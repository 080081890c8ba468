import MsimeLinux.Lib.Run

/-!
# Workers on the latest request

Callers leave requests in one slot, each replacing the one before, and workers
`w : W` pick up the latest. A worker waits until the slot has changed, then until
it has not changed for a while, takes the request out with the lock held and works
on it with the lock released. `Loop` is what a kind of worker adds: which requests
it takes and how its job goes on. Every lock region and every load made outside one
is a single step of `Crew.Step`.

- `Crew.Sound`: what holds of every reachable state; a stopped crew has no worker
  that has seen the last change.
- `Crew.chronicle`: how the state follows from the events so far: a job was started
  from the last request, after the wait and for the first time.
- `Crew.Since`: what is known of a job since it was started.
- `Crew.stopped_stale`: behind an event of a worker that loads `stopping` and finds
  it set, none finds its token current.
-/

namespace Lib

namespace Debounce

variable {W R J E : Type}

/-! ## The slot -/

/-- The request that waits, when the slot was last changed, how often it has been,
and whether the crew is being stopped. -/
structure Slot (R : Type) where
  latest : Option R := none
  updated : Nat := 0
  token : Nat := 0
  stopping : Bool := false
  deriving DecidableEq, Repr

/-- What a caller does to the slot. -/
inductive Change (R : Type) where
  | submit (request : R)
  | clear
  | stop
  deriving DecidableEq, Repr

/-! ## Workers -/

/-- What a worker finds when it asks whether it has been cancelled. -/
structure View where
  stopping : Bool
  current : Bool
  deriving DecidableEq, Repr

/-- A worker waits for a change, or for a change to settle, or works, or is gone. -/
inductive Phase (J : Type) where
  | waiting
  | debouncing (deadline : Nat)
  | working (job : J)
  | exited
  deriving DecidableEq, Repr

/-- Where one event takes a job: on, back to waiting, or out of the loop with an
exception nobody catches. -/
inductive Outcome (J : Type) where
  | next (job : J)
  | finished
  | escaped
  deriving DecidableEq, Repr

/-- A kind of crew. -/
structure Loop (W R J E : Type) where
  /-- How long a request has to stay the latest. -/
  debounce : Nat
  /-- The requests callers may leave in the slot. -/
  accepts : R → Bool
  /-- Clearing looks at `stopping` before it takes the lock, not behind it. -/
  lateClear : Bool
  /-- Clearing restarts the wait. -/
  clearRestarts : Bool
  /-- The job a worker starts on a request, if it takes it. -/
  start : W → R → Option J
  /-- What an event does to a job, given what the worker would find. -/
  react : W → View → J → E → Option (Outcome J)

/-- The crew: the time, the slot, the callers about to clear it, what each worker
has seen last and where it is, and whether an exception has ended the process. -/
structure Crew (W R J : Type) where
  now : Nat := 0
  slot : Slot R := {}
  clearing : Nat := 0
  observed : W → Nat := fun _ => 0
  phase : W → Phase J := fun _ => .waiting
  terminated : Bool := false

/-- What happens to a crew. -/
inductive Event (W R E : Type) where
  | elapse (duration : Nat)
  | enter
  | change (c : Change R)
  | wake (w : W)
  | exit (w : W)
  | skip (w : W)
  | start (w : W) (request : R)
  | work (w : W) (view : View) (event : E)
  deriving DecidableEq, Repr

/-- The time of an event. -/
def Event.duration : Event W R E → Nat
  | .elapse duration => duration
  | _ => 0

/-- The change of an event. -/
def Event.change? : Event W R E → Option (Change R)
  | .change c => some c
  | _ => none

/-- The worker of an event. -/
def Event.worker? : Event W R E → Option W
  | .wake w | .exit w | .skip w | .start w _ | .work w _ _ => some w
  | _ => none

/-- The time that passes during `events`. -/
def elapsed (events : List (Event W R E)) : Nat :=
  (events.map Event.duration).foldr (· + ·) 0

/-- No caller changes the slot during `events`. -/
def Still (events : List (Event W R E)) : Prop :=
  ∀ e ∈ events, e.change? = none

/-- `w` starts no job during `events`. -/
def Idle (w : W) (events : List (Event W R E)) : Prop :=
  ∀ request, Event.start w request ∉ events

namespace Crew

/-- What `w` finds when it asks. -/
def view (s : Crew W R J) (w : W) : View :=
  ⟨s.slot.stopping, s.observed w = s.slot.token⟩

/-- The slot behind a change. -/
def changed (L : Loop W R J E) (s : Crew W R J) : Change R → Slot R
  | .submit request =>
    { s.slot with latest := some request, updated := s.now, token := s.slot.token + 1 }
  | .clear =>
    { s.slot with
      latest := none
      updated := if L.clearRestarts then s.now else s.slot.updated
      token := s.slot.token + 1 }
  | .stop => { s.slot with stopping := true, token := s.slot.token + 1 }

/-- Who may change the slot: nobody who finds it stopping, except for a caller that
has looked too early. -/
def MayChange (L : Loop W R J E) (s : Crew W R J) : Change R → Prop
  | .submit request => s.slot.stopping = false ∧ L.accepts request = true
  | .clear => if L.lateClear then 0 < s.clearing else s.slot.stopping = false
  | .stop => s.slot.stopping = false

/-- The callers about to clear the slot behind a change. -/
def leftClearing (L : Loop W R J E) (s : Crew W R J) : Change R → Nat
  | .clear => if L.lateClear then s.clearing - 1 else s.clearing
  | _ => s.clearing

/-- The wait of `w` is over: the request it has seen has settled. -/
structure Settled (s : Crew W R J) (w : W) : Prop where
  running : s.slot.stopping = false
  current : s.observed w = s.slot.token
  phase : ∃ deadline, s.phase w = .debouncing deadline ∧ deadline ≤ s.now

/-- `w` is in one of its two waits. -/
def Waits (s : Crew W R J) (w : W) : Prop :=
  s.phase w = .waiting ∨ ∃ deadline, s.phase w = .debouncing deadline

variable [DecidableEq W]

/-- `w` moves to another phase. -/
def moved (s : Crew W R J) (w : W) (phase : Phase J) : Crew W R J :=
  { s with phase := Function.update s.phase w phase }

@[simp] theorem moved_phase_self (s : Crew W R J) (w : W) (phase : Phase J) :
    (s.moved w phase).phase w = phase :=
  Function.update_self ..

@[simp] theorem moved_phase_of_ne (s : Crew W R J) {v w : W} (h : v ≠ w) (phase : Phase J) :
    (s.moved w phase).phase v = s.phase v :=
  Function.update_of_ne h ..

/-- An event of a job, taken to the crew. -/
def outcome (s : Crew W R J) (w : W) : Outcome J → Crew W R J
  | .next job => s.moved w (.working job)
  | .finished => s.moved w .waiting
  | .escaped => { s.moved w .exited with terminated := true }

/-- One step. Nothing happens any more once the process has been terminated. -/
inductive Step (L : Loop W R J E) : Crew W R J → Event W R E → Crew W R J → Prop
  | elapse {s : Crew W R J} (duration : Nat) : s.terminated = false →
      Step L s (.elapse duration) { s with now := s.now + duration }
  | enter {s : Crew W R J} : s.terminated = false → s.slot.stopping = false →
      Step L s .enter { s with clearing := s.clearing + 1 }
  | change {s : Crew W R J} (c : Change R) : s.terminated = false → s.MayChange L c →
      Step L s (.change c) { s with slot := s.changed L c, clearing := s.leftClearing L c }
  | wake {s : Crew W R J} {w : W} : s.terminated = false → s.Waits w →
      s.slot.stopping = false → s.observed w ≠ s.slot.token →
      Step L s (.wake w)
        { s with
          observed := Function.update s.observed w s.slot.token
          phase := Function.update s.phase w (.debouncing (s.slot.updated + L.debounce)) }
  | exit {s : Crew W R J} {w : W} : s.terminated = false → s.Waits w →
      s.slot.stopping = true → Step L s (.exit w) (s.moved w .exited)
  | skip {s : Crew W R J} {w : W} : s.terminated = false → s.Settled w →
      s.slot.latest.bind (L.start w) = none → Step L s (.skip w) (s.moved w .waiting)
  | start {s : Crew W R J} {w : W} {request : R} {job : J} : s.terminated = false →
      s.Settled w → s.slot.latest = some request → L.start w request = some job →
      Step L s (.start w request) (s.moved w (.working job))
  | work {s : Crew W R J} {w : W} {job : J} {event : E} {o : Outcome J} :
      s.terminated = false → s.phase w = .working job →
      L.react w (s.view w) job event = some o →
      Step L s (.work w (s.view w) event) (s.outcome w o)

/-- The token is a 64-bit number in the source: it tells the changes of a run apart while there
are fewer steps than it has values. -/
theorem token_uint64 {L : Loop W R J E} {s t : Crew W R J} {events later : List (Event W R E)}
    (h : Run (Step L) {} events s) (h' : Run (Step L) s later t)
    (hfew : events.length + later.length < UInt64.size) :
    UInt64.ofNat s.slot.token = UInt64.ofNat t.slot.token ↔ s.slot.token = t.slot.token := by
  have hstart : ({} : Crew W R J).slot.token = 0 := rfl
  refine h.counter_uint64 (fun s => s.slot.token) (fun s e t hs => ?_) h' (by omega)
  cases hs with
  | change c => cases c <;> exact Nat.le_refl _
  | work => rename_i o _ _ _; cases o <;> exact Nat.le_succ _
  | _ => exact Nat.le_succ _

/-! ## What every step keeps -/

/-- No worker has seen more changes than there were, and of a stopped crew none has
seen the last. A worker whose wait is for the last change waits long enough. The
request in the slot is one that callers may leave there, and it is not newer than
now. -/
structure Sound (L : Loop W R J E) (s : Crew W R J) : Prop where
  accepted : ∀ request, s.slot.latest = some request → L.accepts request = true
  past : s.slot.updated ≤ s.now
  seen : ∀ w, s.observed w ≤ s.slot.token
  stopped : s.slot.stopping = true → ∀ w, s.observed w < s.slot.token
  deadline : ∀ w deadline, s.phase w = .debouncing deadline →
    s.observed w = s.slot.token → deadline = s.slot.updated + L.debounce

omit [DecidableEq W] in
theorem Sound.initial (L : Loop W R J E) : Sound L ({} : Crew W R J) where
  accepted _ h := by cases h
  past := Nat.le_refl _
  seen _ := Nat.le_refl _
  stopped h := by cases h
  deadline _ _ h := by cases h

/-- A worker that moves to a phase other than the wait for a change to settle. -/
theorem Sound.moved {L : Loop W R J E} {s : Crew W R J} (h : Sound L s) (w : W) {phase : Phase J}
    (hphase : ∀ deadline, phase ≠ .debouncing deadline) : Sound L (s.moved w phase) where
  accepted := h.accepted
  past := h.past
  seen := h.seen
  stopped := h.stopped
  deadline v deadline hv hcurrent := by
    by_cases hvw : v = w
    · subst hvw
      rw [moved_phase_self] at hv
      exact absurd hv (hphase deadline)
    · rw [moved_phase_of_ne s hvw] at hv
      exact h.deadline v deadline hv hcurrent

/-- **The step lemma** of `Sound`. -/
theorem Sound.step {L : Loop W R J E} {s t : Crew W R J} {e : Event W R E} (h : Sound L s)
    (hs : Step L s e t) : Sound L t := by
  cases hs with
  | elapse duration =>
    have hpast : s.slot.updated ≤ s.now + duration := Nat.le_add_right_of_le h.past
    exact ⟨h.accepted, hpast, h.seen, h.stopped, h.deadline⟩
  | enter => exact ⟨h.accepted, h.past, h.seen, h.stopped, h.deadline⟩
  | change c _ hmay =>
    -- whatever changes, the token moves on
    have htoken : (s.changed L c).token = s.slot.token + 1 := by cases c <;> rfl
    have hbehind : ∀ w, s.observed w < (s.changed L c).token := fun w => by
      rw [htoken]
      exact Nat.lt_succ_of_le (h.seen w)
    refine ⟨?_, ?_, fun w => Nat.le_of_lt (hbehind w), fun _ => hbehind,
      fun w _ _ hcurrent => absurd hcurrent (Nat.ne_of_lt (hbehind w))⟩
    · intro request hrequest
      cases c with
      | submit latest =>
        obtain rfl : latest = request := Option.some.inj hrequest
        exact hmay.2
      | clear => cases hrequest
      | stop => exact h.accepted request hrequest
    · show (s.changed L c).updated ≤ s.now
      cases c with
      | submit => exact Nat.le_refl _
      | clear =>
        show (if L.clearRestarts then s.now else s.slot.updated) ≤ s.now
        split
        · exact Nat.le_refl _
        · exact h.past
      | stop => exact h.past
  | @wake w _ _ hrunning hnew =>
    refine ⟨h.accepted, h.past, fun v => ?_, fun hstop => ?_, fun v deadline hv hcurrent => ?_⟩
    · by_cases hvw : v = w
      · subst hvw
        simp
      · simpa [Function.update_of_ne hvw] using h.seen v
    · rw [hrunning] at hstop
      cases hstop
    · by_cases hvw : v = w
      · subst hvw
        simp only [Function.update_self, Phase.debouncing.injEq] at hv
        exact hv.symm
      · simp only [Function.update_of_ne hvw] at hv hcurrent
        exact h.deadline v deadline hv hcurrent
  | exit => exact h.moved _ fun _ hne => by cases hne
  | skip => exact h.moved _ fun _ hne => by cases hne
  | start => exact h.moved _ fun _ hne => by cases hne
  | @work w job event o _ _ _ =>
    cases o with
    | next job => exact h.moved _ fun _ hne => by cases hne
    | finished => exact h.moved _ fun _ hne => by cases hne
    | escaped =>
      have hgone : Sound L (s.moved w .exited) := h.moved w fun _ hne => by cases hne
      exact ⟨hgone.accepted, hgone.past, hgone.seen, hgone.stopped, hgone.deadline⟩

theorem Sound.run {L : Loop W R J E} {s : Crew W R J} {ls : List (Event W R E)}
    (hrun : Run (Step L) {} ls s) : Sound L s :=
  hrun.invariant (I := Sound L) (fun _ _ _ h hs => h.step hs) (.initial L)

omit [DecidableEq W] in
/-- A worker of a stopped crew never finds its token current. -/
theorem Sound.stale {L : Loop W R J E} {s : Crew W R J} (h : Sound L s)
    (hstop : s.slot.stopping = true) (w : W) : (s.view w).current = false :=
  decide_eq_false (Nat.ne_of_lt (h.stopped hstop w))

/-- Nothing happens in a process that is gone. -/
theorem Step.live {L : Loop W R J E} {s t : Crew W R J} {e : Event W R E} (hs : Step L s e t) :
    s.terminated = false := by
  cases hs with
  | elapse _ hl => exact hl
  | enter hl => exact hl
  | change _ hl => exact hl
  | wake hl => exact hl
  | exit hl => exact hl
  | skip hl => exact hl
  | start hl => exact hl
  | work hl => exact hl

/-- Stopping is for good. -/
theorem Step.stopping {L : Loop W R J E} {s t : Crew W R J} {e : Event W R E}
    (hs : Step L s e t) (hstop : s.slot.stopping = true) : t.slot.stopping = true := by
  cases hs with
  | change c _ hmay =>
    cases c with
    | submit request => exact hstop
    | clear => exact hstop
    | stop => rfl
  | @work w job event o _ _ _ => cases o <;> exact hstop
  | _ => exact hstop

/-! ## What a step does to one worker -/

/-- Time passes by the duration of the event. -/
theorem Step.now {L : Loop W R J E} {s t : Crew W R J} {e : Event W R E} (hs : Step L s e t) :
    t.now = s.now + e.duration := by
  cases hs with
  | @work w job event o _ _ _ => cases o <;> rfl
  | _ => rfl

/-- Only a change touches the slot. -/
theorem Step.slot {L : Loop W R J E} {s t : Crew W R J} {e : Event W R E} (hs : Step L s e t)
    (hstill : e.change? = none) : t.slot = s.slot := by
  cases hs with
  | change => cases hstill
  | @work w job event o _ _ _ => cases o <;> rfl
  | _ => rfl

/-- A worker stays where it is in a step of another one. -/
theorem Step.other {L : Loop W R J E} {s t : Crew W R J} {e : Event W R E} (hs : Step L s e t)
    {w : W} (hother : e.worker? ≠ some w) :
    t.phase w = s.phase w ∧ t.observed w = s.observed w := by
  have hmoved : ∀ {v : W} {phase : Phase J}, some v ≠ some w →
      (s.moved v phase).phase w = s.phase w := fun hv =>
    moved_phase_of_ne s (fun h => hv (congrArg some h.symm)) _
  cases hs with
  | wake =>
    have hne : w ≠ _ := fun h => hother (congrArg some h.symm)
    exact ⟨Function.update_of_ne hne .., Function.update_of_ne hne ..⟩
  | exit => exact ⟨hmoved hother, rfl⟩
  | skip => exact ⟨hmoved hother, rfl⟩
  | start => exact ⟨hmoved hother, rfl⟩
  | @work v job event o _ _ _ =>
    cases o with
    | next => exact ⟨hmoved hother, rfl⟩
    | finished => exact ⟨hmoved hother, rfl⟩
    | escaped => exact ⟨hmoved hother, rfl⟩
  | _ => exact ⟨rfl, rfl⟩

/-! ## The chronicle -/

/-- What `w` went through at work during `events`. -/
def worksOf (w : W) : List (Event W R E) → List (View × E)
  | [] => []
  | .work v view event :: events =>
    if v = w then (view, event) :: worksOf w events else worksOf w events
  | _ :: events => worksOf w events

/-- One event of a job that goes on. -/
def Reacts (L : Loop W R J E) (w : W) (job : J) (work : View × E) (next : J) : Prop :=
  L.react w work.1 job work.2 = some (.next next)

/-- Since the last change, a worker that has not seen it or is about to settle it
has started nothing; and the request in the slot was submitted then. -/
def Recent (s : Crew W R J) (events : List (Event W R E)) : Prop :=
  s.slot.latest = none ∨
  ∃ before c between, events = before ++ .change c :: between ∧ Still between ∧
    (∀ w, s.observed w ≠ s.slot.token ∨ (∃ deadline, s.phase w = .debouncing deadline) →
      Idle w between) ∧
    ∀ request, s.slot.stopping = false → s.slot.latest = some request →
      c = .submit request ∧ s.slot.updated + elapsed between = s.now

/-- `w` waited long enough on `request`, took it for the first time, and has been at
work on it and come to `job` since. -/
structure Began (L : Loop W R J E) (w : W) (request : R) (between after : List (Event W R E))
    (job : J) : Prop where
  still : Still between
  first : Idle w between
  settled : L.debounce ≤ elapsed between
  busy : ∀ e ∈ after, e.worker? = some w → ∃ view event, e = .work w view event
  current : ∀ past view event rest, after = past ++ .work w view event :: rest →
    view.current = true → Still past
  works : ∃ start, L.start w request = some start ∧ Run (Reacts L w) start (worksOf w after) job

/-- How the state of a crew follows from the events so far. -/
structure Chronicle (L : Loop W R J E) (events : List (Event W R E)) (s : Crew W R J) : Prop where
  sound : Sound L s
  recent : Recent s events
  working : ∀ w job, s.phase w = .working job → ∃ before request between after,
    events = before ++ .change (.submit request) :: (between ++ .start w request :: after) ∧
    Began L w request between after job ∧ (s.observed w = s.slot.token → Still after)

end Crew

section Events

variable {events : List (Event W R E)} {e : Event W R E} {w : W}

theorem still_nil : Still ([] : List (Event W R E)) :=
  fun _ h => absurd h List.not_mem_nil

theorem Still.snoc (h : Still events) (he : e.change? = none) : Still (events ++ [e]) := by
  intro x hx
  rcases List.mem_append.mp hx with hx | hx
  · exact h x hx
  · rw [List.mem_singleton.mp hx]
    exact he

theorem idle_nil : Idle w ([] : List (Event W R E)) :=
  fun _ h => absurd h List.not_mem_nil

theorem Idle.snoc (h : Idle w events) (he : ∀ request, e ≠ .start w request) :
    Idle w (events ++ [e]) := by
  intro request hmem
  rcases List.mem_append.mp hmem with hmem | hmem
  · exact h request hmem
  · exact he request (List.mem_singleton.mp hmem).symm

theorem Still.of_append {events' : List (Event W R E)} (h : Still (events ++ events')) :
    Still events ∧ Still events' :=
  ⟨fun e he => h e (List.mem_append_left _ he), fun e he => h e (List.mem_append_right _ he)⟩

theorem elapsed_snoc : elapsed (events ++ [e]) = elapsed events + e.duration := by
  induction events with
  | nil => simp [elapsed]
  | cons x events ih =>
    show x.duration + elapsed (events ++ [e]) = x.duration + elapsed events + e.duration
    rw [ih, Nat.add_assoc]

end Events

section Chronicles

variable [DecidableEq W] {L : Loop W R J E}

namespace Crew

theorem worksOf_append (w : W) (events events' : List (Event W R E)) :
    worksOf w (events ++ events') = worksOf w events ++ worksOf w events' := by
  induction events with
  | nil => rfl
  | cons e events ih =>
    cases e with
    | work v view event =>
      simp only [List.cons_append, worksOf, ih]
      split <;> rfl
    | _ => exact ih

/-- What another worker, a caller or the clock does leaves the works alone. -/
theorem worksOf_other {w : W} {e : Event W R E} (hother : e.worker? ≠ some w) :
    worksOf w [e] = [] := by
  cases e with
  | work v view event => exact if_neg fun h => hother (congrArg some h)
  | _ => rfl

theorem mem_worksOf {w : W} {events : List (Event W R E)} {view : View} {event : E} :
    (view, event) ∈ worksOf w events ↔ .work w view event ∈ events := by
  induction events with
  | nil => simp [worksOf]
  | cons e events ih =>
    cases e with
    | work v view' event' =>
      by_cases hvw : v = w
      · simp [worksOf, hvw, ih]
      · simp [worksOf, hvw, ih, Ne.symm hvw]
    | _ => simp [worksOf, ih]

/-- A work of `w`, found among the events. -/
theorem worksOf_split {w : W} {events : List (Event W R E)} {works works' : List (View × E)}
    {view : View} {event : E} (h : worksOf w events = works ++ (view, event) :: works') :
    ∃ past rest, events = past ++ .work w view event :: rest ∧ worksOf w past = works ∧
      worksOf w rest = works' := by
  induction events generalizing works with
  | nil => simp [worksOf] at h
  | cons e events ih =>
    -- the event is a work of `w`, which may be the one, or it adds nothing to the list
    by_cases hother : e.worker? = some w ∧ worksOf w [e] ≠ []
    · obtain ⟨hw, hworks⟩ := hother
      cases e with
      | work v view' event' =>
        obtain rfl : v = w := Option.some.inj hw
        rw [worksOf, if_pos rfl] at h
        cases works with
        | nil =>
          obtain ⟨hhead, htail⟩ := List.cons.inj h
          obtain ⟨rfl, rfl⟩ := Prod.mk.inj hhead
          exact ⟨[], events, rfl, rfl, htail⟩
        | cons first works =>
          obtain ⟨rfl, htail⟩ := List.cons.inj h
          obtain ⟨past, rest, rfl, hpast, hrest⟩ := ih htail
          exact ⟨.work v view' event' :: past, rest, rfl, by rw [worksOf, if_pos rfl, hpast],
            hrest⟩
      | _ => exact absurd rfl hworks
    · have hnone : worksOf w [e] = [] := by
        by_contra hworks
        by_cases hw : e.worker? = some w
        · exact hother ⟨hw, hworks⟩
        · exact hworks (worksOf_other hw)
      have hskip : ∀ rest, worksOf w (e :: rest) = worksOf w rest := fun rest => by
        have happend := worksOf_append w [e] rest
        rwa [hnone, List.nil_append] at happend
      rw [hskip] at h
      obtain ⟨past, rest, rfl, hpast, hrest⟩ := ih h
      exact ⟨e :: past, rest, rfl, by rw [hskip, hpast], hrest⟩

/-- Nothing has been submitted in a new crew. -/
theorem Chronicle.initial : Chronicle L [] ({} : Crew W R J) where
  sound := .initial L
  recent := .inl rfl
  working _ _ h := by cases h

/-- An event of the worker that is not its start, or of anyone else, behind what a
job has gone through. -/
theorem Began.snoc {w : W} {request : R} {between after : List (Event W R E)} {job job' : J}
    {e : Event W R E} (h : Began L w request between after job)
    (hwork : e.worker? = some w → ∃ view event, e = .work w view event)
    (hcurrent : ∀ view event, e = .work w view event → view.current = true → Still after)
    (hworks : worksOf w [e] = [] ∧ job' = job ∨
      ∃ work, worksOf w [e] = [work] ∧ Reacts L w job work job') :
    Began L w request between (after ++ [e]) job' where
  still := h.still
  first := h.first
  settled := h.settled
  busy := by
    intro x hx hworker
    rcases List.mem_append.mp hx with hx | hx
    · exact h.busy x hx hworker
    · rw [List.mem_singleton.mp hx] at hworker ⊢
      exact hwork hworker
  current := by
    intro past view event rest hsplit hview
    -- the work is the event that is added, or one before it
    rcases List.eq_nil_or_concat rest with rfl | ⟨rest', last, rfl⟩
    · obtain ⟨rfl, he⟩ := List.append_inj' hsplit rfl
      exact hcurrent view event (List.singleton_inj.mp he) hview
    · rw [List.concat_eq_append, ← List.cons_append, ← List.append_assoc] at hsplit
      obtain ⟨hafter, -⟩ := List.append_inj' hsplit rfl
      exact h.current past view event rest' hafter hview
  works := by
    obtain ⟨start, hfirst, hrun⟩ := h.works
    refine ⟨start, hfirst, ?_⟩
    rw [worksOf_append]
    rcases hworks with ⟨hnone, rfl⟩ | ⟨work, hone, hreacts⟩
    · rw [hnone, List.append_nil]
      exact hrun
    · rw [hone]
      exact hrun.snoc hreacts

/-- **The step lemma** of `Recent`. -/
theorem Recent.step {s t : Crew W R J} {events : List (Event W R E)} {e : Event W R E}
    (h : Recent s events) (hs : Step L s e t) : Recent t (events ++ [e]) := by
  by_cases hchange : e.change? = none
  · have hslot := hs.slot hchange
    rcases h with hnone | ⟨before, c, between, rfl, hstill, hidle, hlast⟩
    · exact .inl (by rw [hslot, hnone])
    · refine .inr ⟨before, c, between ++ [e], by simp, hstill.snoc hchange, ?_, ?_⟩
      · intro w hw
        -- a job starts only behind the wait, with the last change seen
        have hnotstart : ∀ request, e ≠ .start w request := by
          rintro request rfl
          cases hs with
          | start _ hsettled _ _ =>
            rcases hw with hnew | ⟨deadline, hphase⟩
            · exact hnew hsettled.current
            · rw [moved_phase_self] at hphase
              cases hphase
        refine (hidle w ?_).snoc hnotstart
        by_cases hother : e.worker? = some w
        · -- the worker itself: awake it had not seen the change, else it still has not
          cases hs with
          | wake _ _ _ hnew =>
            obtain rfl : _ = w := Option.some.inj hother
            exact .inl hnew
          | exit =>
            obtain rfl : _ = w := Option.some.inj hother
            rcases hw with hnew | ⟨deadline, hphase⟩
            · exact .inl hnew
            · rw [moved_phase_self] at hphase
              cases hphase
          | skip =>
            obtain rfl : _ = w := Option.some.inj hother
            rcases hw with hnew | ⟨deadline, hphase⟩
            · exact .inl hnew
            · rw [moved_phase_self] at hphase
              cases hphase
          | start =>
            obtain rfl : _ = w := Option.some.inj hother
            exact absurd rfl (hnotstart _)
          | @work v job event o _ _ _ =>
            obtain rfl : v = w := Option.some.inj hother
            rcases hw with hnew | ⟨deadline, hphase⟩
            · refine .inl ?_
              cases o <;> exact hnew
            · exfalso
              cases o <;> simp [outcome] at hphase
          | _ => cases hother
        · obtain ⟨hphase, hobserved⟩ := hs.other hother
          rwa [hphase, hobserved, hslot] at hw
      · intro request hrunning hlatest
        rw [hslot] at hrunning hlatest ⊢
        obtain ⟨rfl, htime⟩ := hlast request hrunning hlatest
        refine ⟨rfl, ?_⟩
        rw [elapsed_snoc, hs.now, ← htime, Nat.add_assoc]
  · cases hs with
    | change c _ hmay =>
      refine .inr ⟨events, c, [], rfl, still_nil, fun _ _ => idle_nil, ?_⟩
      intro request hrunning hlatest
      cases c with
      | submit latest =>
        obtain rfl : latest = request := Option.some.inj hlatest
        exact ⟨rfl, rfl⟩
      | clear => cases hlatest
      | stop => cases hrunning
    | _ => exact absurd rfl hchange

/-- The chronicle of a worker whose job an event of others leaves alone. -/
theorem Chronicle.working_other {s t : Crew W R J} {events : List (Event W R E)}
    {e : Event W R E} (h : Chronicle L events s) (hs : Step L s e t) {w : W}
    (hother : e.worker? ≠ some w) {job : J} (hphase : t.phase w = .working job) :
    ∃ before request between after,
      events ++ [e] =
        before ++ .change (.submit request) :: (between ++ .start w request :: after) ∧
      Began L w request between after job ∧ (t.observed w = t.slot.token → Still after) := by
  obtain ⟨hsame, hobserved⟩ := hs.other hother
  rw [hsame] at hphase
  obtain ⟨before, request, between, after, rfl, hbegan, hcurrent⟩ := h.working w job hphase
  refine ⟨before, request, between, after ++ [e], by simp, ?_, fun hnow => ?_⟩
  · refine hbegan.snoc (fun hsame => absurd hsame hother) ?_
      (.inl ⟨worksOf_other hother, rfl⟩)
    rintro view event rfl
    exact absurd rfl hother
  · by_cases hchange : e.change? = none
    · rw [hobserved, hs.slot hchange] at hnow
      exact (hcurrent hnow).snoc hchange
    · -- a change leaves the worker behind
      exfalso
      rw [hobserved] at hnow
      cases hs with
      | change c =>
        have htoken : (s.changed L c).token = s.slot.token + 1 := by cases c <;> rfl
        have hseen := h.sound.seen w
        have hlast : s.observed w = (s.changed L c).token := hnow
        omega
      | _ => exact hchange rfl

/-- **The step lemma** of `Chronicle`. -/
theorem Chronicle.step {s t : Crew W R J} {events : List (Event W R E)} {e : Event W R E}
    (h : Chronicle L events s) (hs : Step L s e t) : Chronicle L (events ++ [e]) t where
  sound := h.sound.step hs
  recent := h.recent.step hs
  working := by
    intro w job hphase
    -- only a step of the worker itself starts or changes its job
    by_cases hother : e.worker? = some w
    · cases hs with
      | wake =>
        obtain rfl : _ = w := Option.some.inj hother
        simp at hphase
      | exit =>
        obtain rfl : _ = w := Option.some.inj hother
        simp at hphase
      | skip =>
        obtain rfl : _ = w := Option.some.inj hother
        simp at hphase
      | @start v request first _ hsettled hlatest hstart =>
        obtain rfl : v = w := Option.some.inj hother
        -- a job begins: the request of the last change, once the delay is over
        obtain ⟨deadline, hdebouncing, hdeadline⟩ := hsettled.phase
        rw [moved_phase_self] at hphase
        obtain rfl : first = job := Phase.working.inj hphase
        rcases h.recent with hnone | ⟨before, c, between, rfl, hstill, hidle, hlast⟩
        · rw [hnone] at hlatest
          cases hlatest
        obtain ⟨rfl, htime⟩ := hlast request hsettled.running hlatest
        refine ⟨before, request, between, [], by simp, ?_, fun _ => still_nil⟩
        refine ⟨hstill, hidle v (.inr ⟨deadline, hdebouncing⟩), ?_, (fun _ hx => by cases hx), ?_,
          ⟨first, hstart, .nil first⟩⟩
        · have hsince := h.sound.deadline v deadline hdebouncing hsettled.current
          omega
        · intro past view event rest hsplit
          simp at hsplit
      | @work v old event o _ hworking hreact =>
        obtain rfl : v = w := Option.some.inj hother
        cases o with
        | next after =>
          -- a job goes on, with one more piece of work
          rw [outcome, moved_phase_self] at hphase
          obtain rfl : after = job := Phase.working.inj hphase
          obtain ⟨before, request, between, after', rfl, hbegan, hcurrent⟩ :=
            h.working v _ hworking
          refine ⟨before, request, between, after' ++ [.work v (s.view v) event], by simp, ?_,
            fun hnow => ?_⟩
          · refine hbegan.snoc (fun _ => ⟨_, _, rfl⟩) ?_
              (.inr ⟨(s.view v, event), if_pos rfl, hreact⟩)
            intro view event' heq hview
            obtain ⟨-, rfl, -⟩ := Event.work.inj heq
            exact hcurrent (of_decide_eq_true hview)
          · exact (hcurrent hnow).snoc rfl
        | finished =>
          rw [outcome, moved_phase_self] at hphase
          cases hphase
        | escaped => simp [outcome] at hphase
      | _ => cases hother
    · exact h.working_other hs hother hphase

/-- **The chronicle** of every run of a new crew. -/
theorem chronicle {s : Crew W R J} {ls : List (Event W R E)} (hrun : Run (Step L) {} ls s) :
    Chronicle L ls s :=
  hrun.history (I := Chronicle L) (fun _ _ _ _ h hs => h.step hs) .initial

/-- A run passes through the state before any of its events. -/
theorem run_at {s : Crew W R J} {pre post : List (Event W R E)} {e : Event W R E}
    (hrun : Run (Step L) {} (pre ++ e :: post) s) :
    ∃ t u, Run (Step L) {} pre t ∧ Step L t e u := by
  obtain ⟨t, hpre, hrest⟩ := hrun.split
  cases hrest with
  | cons hs _ => exact ⟨t, _, hpre, hs⟩

/-- **A job is started from the last request**, which was left alone for as long as
it takes, and only once. -/
theorem start_chronicle {s : Crew W R J} {pre post : List (Event W R E)} {w : W} {request : R}
    (hrun : Run (Step L) {} (pre ++ .start w request :: post) s) :
    ∃ before between, pre = before ++ .change (.submit request) :: between ∧ Still between ∧
      Idle w between ∧ L.debounce ≤ elapsed between ∧ (L.start w request).isSome := by
  obtain ⟨t, u, hpre, hs⟩ := run_at hrun
  have h := chronicle hpre
  cases hs with
  | start _ hsettled hlatest hstart =>
    obtain ⟨deadline, hdebouncing, hdeadline⟩ := hsettled.phase
    rcases h.recent with hnone | ⟨before, c, between, rfl, hstill, hidle, hlast⟩
    · rw [hnone] at hlatest
      cases hlatest
    obtain ⟨rfl, htime⟩ := hlast request hsettled.running hlatest
    refine ⟨before, between, rfl, hstill, hidle w (.inr ⟨deadline, hdebouncing⟩), ?_, ?_⟩
    · have hsince := h.sound.deadline w deadline hdebouncing hsettled.current
      omega
    · rw [hstart]
      rfl

/-- **A job works on the request it was started from**, and an event that finds the
token current finds the slot unchanged since the start. -/
theorem work_chronicle {s : Crew W R J} {pre post : List (Event W R E)} {w : W} {view : View}
    {event : E} (hrun : Run (Step L) {} (pre ++ .work w view event :: post) s) :
    ∃ before request between after job,
      pre = before ++ .change (.submit request) :: (between ++ .start w request :: after) ∧
      Began L w request between after job ∧ (view.current = true → Still after) ∧
      (L.react w view job event).isSome := by
  obtain ⟨t, u, hpre, hs⟩ := run_at hrun
  cases hs with
  | work _ hworking hreact =>
    obtain ⟨before, request, between, after, hsplit, hbegan, hcurrent⟩ :=
      (chronicle hpre).working w _ hworking
    exact ⟨before, request, between, after, _, hsplit, hbegan,
      fun hview => hcurrent (of_decide_eq_true hview), by rw [hreact]; rfl⟩

/-- Someone has stopped the crew, or a worker finds that someone has. -/
def Stops : Event W R E → Prop
  | .change .stop => True
  | .exit _ => True
  | .work _ view _ => view.stopping = true
  | _ => False

/-- **Behind a stop** no worker finds its token current. -/
theorem stopped_stale {s : Crew W R J} {pre post : List (Event W R E)} {w : W} {view : View}
    {event : E} (hrun : Run (Step L) {} (pre ++ .work w view event :: post) s)
    (hstops : ∃ e ∈ pre, Stops e) : view.stopping = true ∧ view.current = false := by
  obtain ⟨t, u, hpre, hs⟩ := run_at hrun
  have hnew : (∃ e ∈ ([] : List (Event W R E)), Stops e) →
      ({} : Crew W R J).slot.stopping = true := by
    rintro ⟨x, hx, -⟩
    cases hx
  have hstopping : (∃ e ∈ pre, Stops e) → t.slot.stopping = true := by
    refine hpre.history (I := fun events s => (∃ e ∈ events, Stops e) → s.slot.stopping = true)
      ?_ hnew
    · rintro events s e t h hs ⟨x, hx, hstops⟩
      rcases List.mem_append.mp hx with hx | hx
      · exact hs.stopping (h ⟨x, hx, hstops⟩)
      · obtain rfl : x = e := List.mem_singleton.mp hx
        cases hs with
        | change c =>
          cases c with
          | stop => rfl
          | _ => exact hstops.elim
        | exit _ _ hstop => exact hstop
        | @work v job event o _ _ _ => cases o <;> exact hstops
        | _ => exact hstops.elim
  cases hs with
  | work =>
    exact ⟨hstopping hstops, (chronicle hpre).sound.stale (hstopping hstops) w⟩

/-! ## One job -/

/-- Where a worker is that was at `start` when `works` began, and has started nothing since. -/
inductive Stands (L : Loop W R J E) (w : W) (start : J) (works : List (View × E))
    (s : Crew W R J) : Prop
  | busy (job : J) (hphase : s.phase w = .working job)
      (hworks : Run (Reacts L w) start works job)
  | past (before : List (View × E)) (last : View × E) (job : J) (o : Outcome J)
      (hfree : ∀ job, s.phase w ≠ .working job) (hsplit : works = before ++ [last])
      (hworks : Run (Reacts L w) start before job)
      (hlast : L.react w last.1 job last.2 = some o)
      (hover : o = .finished ∨ o = .escaped ∧ s.terminated = true)

/-- What is known since a job was started. -/
structure Since (L : Loop W R J E) (w : W) (start : J) (events : List (Event W R E))
    (s : Crew W R J) : Prop where
  sound : Sound L s
  stands : Stands L w start (worksOf w events) s
  current : (∃ job, s.phase w = .working job) → s.observed w = s.slot.token → Still events

omit [DecidableEq W] in
theorem Waits.free {w : W} {s : Crew W R J} (h : s.Waits w) (job : J) :
    s.phase w ≠ .working job := by
  intro hjob
  obtain hwaiting | ⟨deadline, hdebouncing⟩ := h
  · rw [hwaiting] at hjob
    cases hjob
  · rw [hdebouncing] at hjob
    cases hjob

omit [DecidableEq W] in
/-- A job that is over stays so, until the next is started. -/
theorem Stands.free {w : W} {start : J} {works : List (View × E)} {s t : Crew W R J}
    (h : Stands L w start works s) (hs : s.terminated = false)
    (hidle : ∀ job, s.phase w ≠ .working job) (hfree : ∀ job, t.phase w ≠ .working job) :
    Stands L w start (works ++ []) t := by
  rw [List.append_nil]
  cases h with
  | busy job hphase => exact absurd hphase (hidle job)
  | past before last job o _ hsplit hworks hlast hover =>
    refine .past before last job o hfree hsplit hworks hlast (hover.imp_right fun hgone => ?_)
    rw [hgone.2] at hs
    cases hs

/-- **The step lemma** of `Stands`. -/
theorem Stands.step {w : W} {start : J} {works : List (View × E)} {s t : Crew W R J}
    {e : Event W R E} (h : Stands L w start works s) (hs : Step L s e t)
    (hstart : ∀ request, e ≠ .start w request) :
    Stands L w start (works ++ worksOf w [e]) t := by
  by_cases hother : e.worker? = some w
  · cases hs with
    | wake hlive hwaits =>
      obtain rfl : _ = w := Option.some.inj hother
      refine h.free hlive hwaits.free fun job hjob => ?_
      simp at hjob
    | exit hlive hwaits =>
      obtain rfl : _ = w := Option.some.inj hother
      refine h.free hlive hwaits.free fun job hjob => ?_
      simp at hjob
    | skip hlive hsettled =>
      obtain rfl : _ = w := Option.some.inj hother
      refine h.free hlive (Waits.free (.inr ?_)) fun job hjob => ?_
      · obtain ⟨deadline, hdebouncing, -⟩ := hsettled.phase
        exact ⟨deadline, hdebouncing⟩
      · simp at hjob
    | start =>
      obtain rfl : _ = w := Option.some.inj hother
      exact absurd rfl (hstart _)
    | @work v old event o hlive hworking hreact =>
      obtain rfl : v = w := Option.some.inj hother
      rw [worksOf, if_pos rfl, worksOf]
      cases h with
      -- a job that is over does no more work
      | past _ _ _ _ hfree => exact absurd hworking (hfree old)
      | busy job hphase hworks =>
        obtain rfl : old = job := Phase.working.inj (hworking.symm.trans hphase)
        cases o with
        | next job' => exact .busy job' (by simp [outcome]) (hworks.snoc hreact)
        | finished =>
          exact .past works _ old _ (by simp [outcome]) rfl hworks hreact (.inl rfl)
        | escaped =>
          exact .past works _ old _ (by simp [outcome]) rfl hworks hreact (.inr ⟨rfl, rfl⟩)
    | _ => cases hother
  · rw [worksOf_other hother, List.append_nil]
    have hphase := (hs.other hother).1
    cases h with
    | busy job hbusy hworks => exact .busy job (hphase.trans hbusy) hworks
    | past before last job o hfree hsplit hworks hlast hover =>
      refine .past before last job o (fun job' hjob => hfree job' (hphase.symm.trans hjob)) hsplit
        hworks hlast (hover.imp_right fun hgone => ?_)
      have hlive := hs.live
      rw [hgone.2] at hlive
      cases hlive

/-- A worker at work was so before, if it has started nothing. -/
theorem Step.working_before {w : W} {s t : Crew W R J} {e : Event W R E} (hs : Step L s e t)
    (hstart : ∀ request, e ≠ .start w request) {job : J} (hphase : t.phase w = .working job) :
    (∃ old, s.phase w = .working old) ∧ t.observed w = s.observed w := by
  by_cases hother : e.worker? = some w
  · cases hs with
    | wake =>
      obtain rfl : _ = w := Option.some.inj hother
      simp at hphase
    | exit =>
      obtain rfl : _ = w := Option.some.inj hother
      simp at hphase
    | skip =>
      obtain rfl : _ = w := Option.some.inj hother
      simp at hphase
    | start =>
      obtain rfl : _ = w := Option.some.inj hother
      exact absurd rfl (hstart _)
    | @work v old event o hlive hworking hreact =>
      obtain rfl : v = w := Option.some.inj hother
      refine ⟨⟨old, hworking⟩, ?_⟩
      cases o <;> rfl
    | _ => cases hother
  · obtain ⟨hsame, hobserved⟩ := hs.other hother
    exact ⟨⟨job, hsame.symm.trans hphase⟩, hobserved⟩

/-- **The step lemma** of `Since`. -/
theorem Since.step {w : W} {start : J} {events : List (Event W R E)} {s t : Crew W R J}
    {e : Event W R E} (h : Since L w start events s) (hs : Step L s e t)
    (hstart : ∀ request, e ≠ .start w request) : Since L w start (events ++ [e]) t where
  sound := h.sound.step hs
  stands := by
    rw [worksOf_append]
    exact h.stands.step hs hstart
  current := by
    rintro ⟨job, hphase⟩ hnow
    obtain ⟨hbefore, hobserved⟩ := hs.working_before hstart hphase
    rw [hobserved] at hnow
    by_cases hchange : e.change? = none
    · rw [hs.slot hchange] at hnow
      exact (h.current hbefore hnow).snoc hchange
    · -- a change leaves the worker behind
      exfalso
      cases hs with
      | change c =>
        have htoken : (s.changed L c).token = s.slot.token + 1 := by cases c <;> rfl
        have hseen := h.sound.seen w
        have hlast : s.observed w = (s.changed L c).token := hnow
        omega
      | _ => exact hchange rfl

/-- **The run lemma** of `Since`. -/
theorem Since.run {w : W} {start : J} {events : List (Event W R E)} {s t : Crew W R J}
    (hsound : Sound L s) (hphase : s.phase w = .working start) (hrun : Run (Step L) s events t)
    (hidle : Idle w events) : Since L w start events t := by
  have hnew : Idle w ([] : List (Event W R E)) → Since L w start [] s := fun _ =>
    ⟨hsound, .busy start hphase (.nil start), fun _ _ => still_nil⟩
  refine hrun.history (I := fun events s => Idle w events → Since L w start events s) ?_ hnew hidle
  intro before s e t h hs hidle
  refine (h fun request hmem => hidle request (List.mem_append_left _ hmem)).step hs ?_
  rintro request rfl
  exact hidle request (by simp)

/-- While nothing changes, a worker that has seen the last change stays up to date. -/
theorem still_run {w : W} {events : List (Event W R E)} {s t : Crew W R J}
    (hrun : Run (Step L) s events t) (hstill : Still events)
    (hs : s.observed w = s.slot.token ∧ s.slot.stopping = false) :
    t.observed w = t.slot.token ∧ t.slot.stopping = false := by
  refine hrun.invariantOn (I := fun s => s.observed w = s.slot.token ∧ s.slot.stopping = false)
    (P := fun e : Event W R E => e.change? = none) ?_ (fun e he => hstill e he) hs
  intro s e t h hchange hs
  rw [hs.slot hchange]
  refine ⟨?_, h.2⟩
  by_cases hother : e.worker? = some w
  · cases hs with
    | wake _ _ _ hnew =>
      obtain rfl : _ = w := Option.some.inj hother
      exact absurd h.1 hnew
    | @work v old event o hlive hworking hreact =>
      obtain rfl : v = w := Option.some.inj hother
      cases o <;> exact h.1
    | _ => exact h.1
  · rw [(hs.other hother).2, h.1]

/-- What a worker finds, while nothing has changed since. -/
theorem still_view {w : W} {events : List (Event W R E)} {s t : Crew W R J}
    (hrun : Run (Step L) s events t) (hstill : Still events)
    (hs : s.observed w = s.slot.token ∧ s.slot.stopping = false) {view : View} {event : E}
    (hmem : (view, event) ∈ worksOf w events) : view = ⟨false, true⟩ := by
  obtain ⟨pre, post, rfl⟩ := List.append_of_mem (mem_worksOf.mp hmem)
  obtain ⟨u, hpre, hrest⟩ := hrun.split
  obtain ⟨hcurrent, hrunning⟩ := still_run hpre hstill.of_append.1 hs
  cases hrest with
  | cons hwork _ =>
    cases hwork with
    | work => rw [view, hrunning, decide_eq_true hcurrent]

end Crew

end Chronicles

end Debounce

end Lib

import Mathlib.Data.List.Nodup
import MsimeLinux.Dictionary.LeaseExclusion
import MsimeLinux.Dictionary.Publication

/-!
# The generations that reviews stage (`NativeRestoreReview.cpp`)

A review of a restore stages a generation of the dictionary, and asks the engine to
publish it. If it ends without having asked, or was told that nothing was published, a
worker discards the generation. Reviews, workers and engines are many, and in processes of
their own; calls and replies travel, and get lost.

The model is a transition system over the machine of the leases: a `RestoreStep` is a step
of a lease, or a step of a review, its worker or an engine at a place its lease has come to.
A call of `Publish` is one element of `calls` until its reply is read or dropped.

- `RestoreStep`: what each of them can do.
- `RestoreState.Inv`: who may still publish what, and what a worker is sure of.
- `active_generation_never_removed`: what is named is never removed.
-/

namespace MsimeLinux

open Lib

namespace NativeRestore

open NativeInstallation Publication

/-- Who takes a lease. -/
inductive Holder (ρ ε : Type) where
  /-- an engine, for as long as it lives -/
  | engine (e : ε)
  /-- `prepare`, while a review stages its generation -/
  | prepare (r : ρ)
  /-- `discard_worker` -/
  | discard (r : ρ)
  /-- anybody else -/
  | other (n : Nat)
  deriving DecidableEq

/-- What `Publish` is asked for. -/
structure PublishRequest where
  generation : Bytes
  content : Bytes
  token : Bytes
  revision : Bytes
  deriving DecidableEq

/-- How `operation()` has ended. -/
inductive OperationEnd where
  | published
  | unchanged
  | threw
  deriving DecidableEq

/-- Where a call of `Publish` is. -/
inductive CallStage where
  /-- sent, and not yet read by the engine -/
  | queued
  /-- read: nothing is being typed, and what the engine had open is closed -/
  | accepted
  /-- in `exclusively`, with nothing compared yet -/
  | entered
  /-- the marker and the revision are the reviewed ones, and every session opens -/
  | compared
  /-- `operation()` has returned or thrown -/
  | operated (result : OperationEnd)
  /-- the reply is on its way; `none` is an error -/
  | replied (reply : Option PublicationStatus)
  deriving DecidableEq

/-- The engine is in `publish_native_dictionary`. -/
def CallStage.running : CallStage → Bool
  | .queued | .replied _ => false
  | _ => true

/-- What is left of a call when its engine is gone: the bus answers. -/
def CallStage.lost : CallStage → CallStage
  | .replied reply => .replied reply
  | _ => .replied none

/-- What is replied, when `exclusively` ends (IBusEngine.cpp:1478). -/
def replyAt : CallStage → LeaseExit → Option PublicationStatus
  | .operated .published, _ => some .published
  | _, .published => some .conflict
  | _, .busy => some .busy
  | _, _ => none

/-- A call of `Publish`. -/
structure Call (ρ ε : Type) where
  review : ρ
  engine : ε
  request : PublishRequest
  stage : CallStage

/-- Where a review is. -/
inductive ReviewPc where
  /-- nothing is staged, or not by this review -/
  | unstaged
  /-- `staged_`, and nobody is calling -/
  | held
  /-- in `publish`, waiting for the reply -/
  | calling
  /-- destroyed; `discard_worker` has not yet looked at the marker -/
  | discarding
  /-- `discard_worker` is in `remove_all` -/
  | removing
  /-- the generation is gone -/
  | removed
  /-- destroyed, and the generation retained -/
  | left
  deriving DecidableEq

/-- There is a generation of this review. -/
def ReviewPc.staged : ReviewPc → Bool
  | .unstaged | .removed => false
  | _ => true

/-- A review whose process has died. -/
def ReviewPc.die : ReviewPc → ReviewPc
  | .unstaged => .unstaged
  | .removed => .removed
  | _ => .left

/-- `NativeRestoreReview` (NativeRestoreReview.h:23): what it will ask for, the engine it is
pinned to, and `attempted_`. -/
structure Review (ε : Type) where
  pc : ReviewPc
  request : PublishRequest
  owner : ε
  attempted : Bool

/-- The leases, the files, the reviews and the calls. -/
structure RestoreState (ρ ε : Type) where
  lease : LeaseState (Holder ρ ε)
  marker : Option Bytes
  generations : Bytes → Bool
  review : ρ → Review ε
  calls : List (Call ρ ε)

/-- What happens. -/
inductive RestoreEvent (ρ ε π : Type) where
  | lease (event : LeaseEvent (Holder ρ ε) π)
  | review (r : ρ)
  | worker (r : ρ)
  | engine (e : ε)
  | crash (p : π)

section

variable {ρ ε π : Type}

/-- The marker names a generation. -/
def RestoreState.Names (s : RestoreState ρ ε) (generation : Bytes) : Prop :=
  ∃ value content, s.marker = some value ∧ decodeMarker value = some (generation, content)

/-- A call that asks for a generation is somewhere on its way. -/
def RestoreState.Publishing (s : RestoreState ρ ε) (generation : Bytes) : Prop :=
  ∃ c ∈ s.calls, c.request.generation = generation

/-- `active().generation`, where `active` does not throw. -/
def RestoreState.activeGeneration (s : RestoreState ρ ε) : Option Bytes :=
  match s.marker with
  | none => some []
  | some value => (decodeMarker value).map Prod.fst

/-- The steps of a lease that are not a step of this machine: an engine shares its lease,
and only a publication calls `exclusively`; a worker takes a lease once it runs, and keeps
it until it ends. -/
def RestoreState.Free (s : RestoreState ρ ε) : LeaseEvent (Holder ρ ε) π → Prop
  | .acquire (.other _) _ => True
  | .acquire (.discard r) mode => mode = .shared ∧ (s.review r).pc = .discarding
  | .acquire _ mode => mode = .shared
  | .exclusively (.other _) => True
  | .exclusively _ => False
  | .finish (.engine _) _ | .exit (.engine _) _ | .close (.engine _) | .crash _ => False
  | .close (.discard r) => (s.review r).pc = .left ∨ (s.review r).pc = .removed
  | _ => True

variable [DecidableEq ρ] [DecidableEq ε] [DecidableEq π]

/-- A review moves on. -/
def RestoreState.setReview (s : RestoreState ρ ε) (r : ρ) (v : Review ε) : RestoreState ρ ε :=
  { s with review := Function.update s.review r v }

/-- A review whose generation is staged, or not, moves to another place. -/
def RestoreState.goto (s : RestoreState ρ ε) (r : ρ) (pc : ReviewPc) : RestoreState ρ ε :=
  s.setReview r { s.review r with pc := pc }

/-- What is left of a review when a process has died. -/
def RestoreState.survivor (proc : Holder ρ ε → π) (p : π) (s : RestoreState ρ ε) (r : ρ) :
    Review ε :=
  if proc (.discard r) = p then { s.review r with pc := (s.review r).pc.die } else s.review r

/-- One step. `proc` is the process each holder belongs to. -/
inductive RestoreStep (proc : Holder ρ ε → π) :
    RestoreState ρ ε → RestoreEvent ρ ε π → RestoreState ρ ε → Prop
  | lease {s : RestoreState ρ ε} {event : LeaseEvent (Holder ρ ε) π}
      {l : LeaseState (Holder ρ ε)} : s.Free event → LeaseStep proc s.lease event l →
      RestoreStep proc s (.lease event) { s with lease := l }
  -- `prepare`, under its lease; the name is a new UUID
  | stage {s : RestoreState ρ ε} {r : ρ} {request : PublishRequest} {owner : ε} :
      (s.review r).pc = .unstaged → s.lease.pc (.prepare r) = .ready .shared →
      s.generations request.generation = false →
      RestoreStep proc s (.review r)
        { s.setReview r ⟨.held, request, owner, false⟩ with
          generations := Function.update s.generations request.generation true }
  | stageFailed {s : RestoreState ρ ε} {r : ρ} {generation : Bytes} {leftover : Bool} :
      (s.review r).pc = .unstaged → s.lease.pc (.prepare r) = .ready .shared →
      s.generations generation = false →
      RestoreStep proc s (.review r)
        { s with generations := Function.update s.generations generation leftover }
  -- `publish`
  | send {s : RestoreState ρ ε} {r : ρ} :
      (s.review r).pc = .held → (s.review r).attempted = false →
      RestoreStep proc s (.review r)
        { s.setReview r { s.review r with pc := .calling, attempted := true } with
          calls := s.calls ++ [⟨r, (s.review r).owner, (s.review r).request, .queued⟩] }
  | sendFailed {s : RestoreState ρ ε} {r : ρ} :
      (s.review r).pc = .held → (s.review r).attempted = false →
      RestoreStep proc s (.review r) (s.setReview r { s.review r with attempted := true })
  | timeout {s : RestoreState ρ ε} {r : ρ} :
      (s.review r).pc = .calling → RestoreStep proc s (.review r) (s.goto r .held)
  | reply {s : RestoreState ρ ε} {before after : List (Call ρ ε)} {c : Call ρ ε}
      {reply : Option PublicationStatus} :
      s.calls = before ++ c :: after → c.stage = .replied reply →
      (s.review c.review).pc = .calling →
      RestoreStep proc s (.review c.review)
        { s.setReview c.review { s.review c.review with
            pc := .held
            attempted := decide (reply ≠ some .busy ∧ reply ≠ some .conflict) } with
          calls := before ++ after }
  | lateReply {s : RestoreState ρ ε} {before after : List (Call ρ ε)} {c : Call ρ ε}
      {reply : Option PublicationStatus} :
      s.calls = before ++ c :: after → c.stage = .replied reply →
      (s.review c.review).pc ≠ .calling →
      RestoreStep proc s (.review c.review) { s with calls := before ++ after }
  -- `~NativeRestoreReview`
  | destroy {s : RestoreState ρ ε} {r : ρ} : (s.review r).pc = .held →
      RestoreStep proc s (.review r)
        (s.goto r (if (s.review r).attempted then .left else .discarding))
  -- `discard_worker`
  | retain {s : RestoreState ρ ε} {r : ρ} :
      (s.review r).pc = .discarding → RestoreStep proc s (.worker r) (s.goto r .left)
  | check {s : RestoreState ρ ε} {r : ρ} {generation : Bytes} :
      (s.review r).pc = .discarding → s.lease.pc (.discard r) = .ready .shared →
      s.activeGeneration = some generation → generation ≠ (s.review r).request.generation →
      RestoreStep proc s (.worker r) (s.goto r .removing)
  | remove {s : RestoreState ρ ε} {r : ρ} : (s.review r).pc = .removing →
      RestoreStep proc s (.worker r)
        { s.goto r .removed with
          generations := Function.update s.generations (s.review r).request.generation false }
  | removeFailed {s : RestoreState ρ ε} {r : ρ} :
      (s.review r).pc = .removing → RestoreStep proc s (.worker r) (s.goto r .left)
  -- `publish_native_dictionary`, one call at a time
  | refuse {s : RestoreState ρ ε} {before after : List (Call ρ ε)} {c : Call ρ ε}
      {reply : Option PublicationStatus} :
      s.calls = before ++ c :: after → c.stage = .queued ∨ c.stage = .accepted →
      reply = some .busy ∨ reply = none →
      RestoreStep proc s (.engine c.engine)
        { s with calls := before ++ { c with stage := .replied reply } :: after }
  | accept {s : RestoreState ρ ε} {before after : List (Call ρ ε)} {c : Call ρ ε} :
      s.calls = before ++ c :: after → c.stage = .queued →
      (∀ d ∈ s.calls, d.engine = c.engine → d.stage.running = false) →
      validRequest c.request.token c.request.revision = true →
      RestoreStep proc s (.engine c.engine)
        { s with calls := before ++ { c with stage := .accepted } :: after }
  | enter {s : RestoreState ρ ε} {before after : List (Call ρ ε)} {c : Call ρ ε}
      {l : LeaseState (Holder ρ ε)} :
      s.calls = before ++ c :: after → c.stage = .accepted →
      LeaseStep proc s.lease (.exclusively (.engine c.engine)) l →
      RestoreStep proc s (.engine c.engine)
        { s with lease := l, calls := before ++ { c with stage := .entered } :: after }
  -- `operation()`
  | compare {s : RestoreState ρ ε} {before after : List (Call ρ ε)} {c : Call ρ ε} :
      s.calls = before ++ c :: after → c.stage = .entered →
      s.lease.pc (.engine c.engine) = .operating →
      s.activeGeneration.isSome = true → s.marker.getD [] = c.request.token →
      RestoreStep proc s (.engine c.engine)
        { s with calls := before ++ { c with stage := .compared } :: after }
  | stop {s : RestoreState ρ ε} {before after : List (Call ρ ε)} {c : Call ρ ε}
      {result : OperationEnd} :
      s.calls = before ++ c :: after → c.stage = .entered ∨ c.stage = .compared →
      s.lease.pc (.engine c.engine) = .operating → result ≠ .published →
      RestoreStep proc s (.engine c.engine)
        { s with calls := before ++ { c with stage := .operated result } :: after }
  | publish {s : RestoreState ρ ε} {before after : List (Call ρ ε)} {c : Call ρ ε} :
      s.calls = before ++ c :: after → c.stage = .compared →
      s.lease.pc (.engine c.engine) = .operating →
      -- `prepared_paths`, and the marker read once more
      identifier c.request.generation = true → identifier c.request.content = true →
      s.generations c.request.generation = true →
      s.activeGeneration.isSome = true → s.marker.getD [] = c.request.token →
      RestoreStep proc s (.engine c.engine)
        { s with
          marker := some (markerText c.request.generation c.request.content)
          calls := before ++ { c with stage := .operated .published } :: after }
  | finish {s : RestoreState ρ ε} {c : Call ρ ε} {result : OperationEnd}
      {l : LeaseState (Holder ρ ε)} :
      c ∈ s.calls → c.stage = .operated result →
      LeaseStep proc s.lease (.finish (.engine c.engine) (result == .threw)) l →
      RestoreStep proc s (.engine c.engine) { s with lease := l }
  | exit {s : RestoreState ρ ε} {before after : List (Call ρ ε)} {c : Call ρ ε}
      {exit : LeaseExit} {l : LeaseState (Holder ρ ε)} :
      s.calls = before ++ c :: after →
      c.stage = .entered ∨ (∃ result, c.stage = .operated result) →
      LeaseStep proc s.lease (.exit (.engine c.engine) exit) l →
      RestoreStep proc s (.engine c.engine)
        { s with
          lease := l
          calls := before ++ { c with stage := .replied (replyAt c.stage exit) } :: after }
  | crash {s : RestoreState ρ ε} {p : π} {l : LeaseState (Holder ρ ε)} :
      LeaseStep proc s.lease (.crash p) l →
      RestoreStep proc s (.crash p)
        { s with
          lease := l
          review := s.survivor proc p
          calls := s.calls.map fun c =>
            if proc (.engine c.engine) = p then { c with stage := c.stage.lost } else c }

end

/-! ## What a step leaves -/

section

variable {ρ ε : Type} {s : RestoreState ρ ε} {r : ρ}

theorem ReviewPc.staged_die (pc : ReviewPc) : pc.die.staged = pc.staged := by
  cases pc <;> rfl

/-- What every reachable state meets. -/
structure RestoreState.Inv (s : RestoreState ρ ε) : Prop where
  lease : s.lease.Inv
  /-- a review has one call at a time, late ones included -/
  oneCall : (s.calls.map Call.review).Nodup
  called : ∀ c ∈ s.calls, (s.review c.review).attempted = true ∧
    (s.review c.review).pc.staged = true ∧
    c.request.generation = (s.review c.review).request.generation
  distinct : ∀ r r', (s.review r).pc.staged = true → (s.review r').pc.staged = true →
    (s.review r).request.generation = (s.review r').request.generation → r = r'
  present : ∀ r, (s.review r).pc.staged = true →
    s.generations (s.review r).request.generation = true
  unattempted : ∀ r, (s.review r).pc = .discarding ∨ (s.review r).pc = .removing →
    (s.review r).attempted = false
  /-- a worker that removes a generation holds its lease, and the marker is another -/
  removing : ∀ r, (s.review r).pc = .removing →
    s.lease.pc (.discard r) = .ready .shared ∧ ¬ s.Names (s.review r).request.generation

/-- Nothing a review without a call in flight was to publish is on its way. -/
theorem RestoreState.Inv.not_publishing (h : s.Inv) (hstaged : (s.review r).pc.staged = true)
    (hattempted : (s.review r).attempted = false) :
    ¬ s.Publishing (s.review r).request.generation := by
  rintro ⟨c, hc, hgeneration⟩
  obtain ⟨hcalled, hcstaged, hcgeneration⟩ := h.called c hc
  obtain rfl := h.distinct _ _ hcstaged hstaged (hcgeneration.symm.trans hgeneration)
  rw [hattempted] at hcalled
  cases hcalled

/-- A review that moves without staging anything, and remembers that it has called. -/
structure RestoreState.Moves (s : RestoreState ρ ε) (r : ρ) (v : Review ε) : Prop where
  request : v.request = (s.review r).request
  staged : v.pc.staged = (s.review r).pc.staged
  called : (∃ c ∈ s.calls, c.review = r) → v.attempted = true
  unattempted : v.pc = .discarding ∨ v.pc = .removing → v.attempted = false
  removing : v.pc = .removing →
    s.lease.pc (.discard r) = .ready .shared ∧ ¬ s.Names (s.review r).request.generation

/-- Calls move on, or are dropped. -/
theorem RestoreState.Inv.setCalls (h : s.Inv) {calls : List (Call ρ ε)}
    (hone : (calls.map Call.review).Nodup)
    (hcalls : ∀ c ∈ calls, ∃ d ∈ s.calls, d.review = c.review ∧ d.request = c.request) :
    ({ s with calls := calls } : RestoreState ρ ε).Inv := by
  refine ⟨h.lease, hone, fun c hc => ?_, h.distinct, h.present, h.unattempted, h.removing⟩
  obtain ⟨d, hd, hreview, hrequest⟩ := hcalls c hc
  rw [← hreview, ← hrequest]
  exact h.called d hd

theorem RestoreState.Inv.setLease (h : s.Inv) {l : LeaseState (Holder ρ ε)} (hl : l.Inv)
    (hkept : ∀ r, (s.review r).pc = .removing → s.lease.pc (.discard r) = .ready .shared →
      l.pc (.discard r) = .ready .shared) :
    ({ s with lease := l } : RestoreState ρ ε).Inv := by
  refine ⟨hl, h.oneCall, h.called, h.distinct, h.present, h.unattempted, fun k hk => ?_⟩
  obtain ⟨hready, hnames⟩ := h.removing k hk
  exact ⟨hkept k hk hready, hnames⟩

/-- One call comes to another stage. -/
theorem RestoreState.Inv.setStage (h : s.Inv) {before after : List (Call ρ ε)} {c : Call ρ ε}
    (hcalls : s.calls = before ++ c :: after) (stage : CallStage) :
    ({ s with calls := before ++ { c with stage := stage } :: after } :
      RestoreState ρ ε).Inv := by
  refine h.setCalls ?_ fun d hd => ?_
  · have hone := h.oneCall
    rw [hcalls] at hone
    simpa using hone
  · rw [hcalls]
    rcases List.mem_append.mp hd with hd | hd
    · exact ⟨d, List.mem_append_left _ hd, rfl, rfl⟩
    · rcases List.mem_cons.mp hd with rfl | hd
      · exact ⟨c, List.mem_append_right _ List.mem_cons_self, rfl, rfl⟩
      · exact ⟨d, List.mem_append_right _ (List.mem_cons_of_mem _ hd), rfl, rfl⟩

/-- One call is read or dropped; its review has no other. -/
theorem RestoreState.Inv.dropCall (h : s.Inv) {before after : List (Call ρ ε)} {c : Call ρ ε}
    (hcalls : s.calls = before ++ c :: after) :
    ({ s with calls := before ++ after } : RestoreState ρ ε).Inv ∧
      ∀ d ∈ before ++ after, d.review ≠ c.review := by
  have hone := h.oneCall
  rw [hcalls, List.map_append, List.map_cons, List.nodup_middle, List.nodup_cons,
    ← List.map_append] at hone
  refine ⟨h.setCalls hone.2 fun d hd => ⟨d, ?_, rfl, rfl⟩, fun d hd heq => ?_⟩
  · rw [hcalls]
    rcases List.mem_append.mp hd with hd | hd
    · exact List.mem_append_left _ hd
    · exact List.mem_append_right _ (List.mem_cons_of_mem _ hd)
  · exact hone.1 (heq ▸ List.mem_map_of_mem hd)

/-- A review that has none makes a call. -/
theorem RestoreState.Inv.addCall (h : s.Inv) {c : Call ρ ε}
    (hnone : ∀ d ∈ s.calls, d.review ≠ c.review)
    (hcalled : (s.review c.review).attempted = true ∧ (s.review c.review).pc.staged = true ∧
      c.request.generation = (s.review c.review).request.generation) :
    ({ s with calls := s.calls ++ [c] } : RestoreState ρ ε).Inv := by
  refine ⟨h.lease, ?_, fun d hd => ?_, h.distinct, h.present, h.unattempted, h.removing⟩
  · rw [List.map_append, List.map_cons, List.map_nil, List.nodup_append_comm,
      List.singleton_append, List.nodup_cons]
    refine ⟨fun hmem => ?_, h.oneCall⟩
    obtain ⟨d, hd, hreview⟩ := List.mem_map.mp hmem
    exact hnone d hd hreview
  · rcases List.mem_append.mp hd with hd | hd
    · exact h.called d hd
    · rw [List.mem_singleton.mp hd]
      exact hcalled

theorem RestoreState.activeGeneration_of_names {generation : Bytes} (h : s.Names generation) :
    s.activeGeneration = some generation := by
  obtain ⟨value, content, hmarker, hdecode⟩ := h
  rw [activeGeneration, hmarker]
  simp [hdecode]

/-- While an engine is in `operation()` no worker removes anything. -/
theorem RestoreState.Inv.not_removing (h : s.Inv) {e : ε}
    (hengine : s.lease.pc (.engine e) = .operating) (r : ρ) : (s.review r).pc ≠ .removing := by
  intro hpc
  have hready := (h.removing r hpc).1
  have hlive := (h.lease.exclusion (i := .engine e) (j := .discard r)
    (by rw [hengine]; rfl) nofun).1
  rw [hready] at hlive
  cases hlive

/-- A worker that removes a generation is sure of it. -/
theorem RestoreState.Inv.unused (h : s.Inv) (hpc : (s.review r).pc = .removing) :
    ¬ s.Names (s.review r).request.generation ∧
      ¬ s.Publishing (s.review r).request.generation :=
  ⟨(h.removing r hpc).2, h.not_publishing (by rw [hpc]; rfl) (h.unattempted r (.inr hpc))⟩

/-- What a call asks for is there. -/
theorem RestoreState.Inv.publishing_present {generation : Bytes} (h : s.Inv)
    (hpublishing : s.Publishing generation) : s.generations generation = true := by
  obtain ⟨c, hc, rfl⟩ := hpublishing
  obtain ⟨-, hstaged, hgeneration⟩ := h.called c hc
  rw [hgeneration]
  exact h.present _ hstaged

/-- Nothing has been staged, sent or locked. -/
structure RestoreState.Start (s : RestoreState ρ ε) : Prop where
  lease : s.lease = .initial
  unstaged : ∀ r, (s.review r).pc = .unstaged
  calls : s.calls = []

theorem RestoreState.Start.inv (h : s.Start) : s.Inv := by
  have hstaged : ∀ r, (s.review r).pc.staged = false := by
    intro r
    rw [h.unstaged]
    rfl
  have hnone : ∀ r, (s.review r).pc.staged ≠ true := by simp [hstaged]
  refine ⟨?_, ?_, fun c hc => ?_, fun r _ hr => absurd hr (hnone r),
    fun r hr => absurd hr (hnone r), fun r hr => ?_, fun r hr => ?_⟩
  · rw [h.lease]
    exact LeaseState.initial_inv
  · rw [h.calls]
    exact List.nodup_nil
  · rw [h.calls] at hc
    cases hc
  · rw [h.unstaged] at hr
    rcases hr with hr | hr <;> cases hr
  · rw [h.unstaged] at hr
    cases hr

theorem RestoreState.survivor_spec {π : Type} [DecidableEq π]
    (proc : Holder ρ ε → π) (p : π) (s : RestoreState ρ ε) (k : ρ) :
    (s.survivor proc p k).request = (s.review k).request ∧
      (s.survivor proc p k).attempted = (s.review k).attempted ∧
      (s.survivor proc p k).pc.staged = (s.review k).pc.staged ∧
      ((s.survivor proc p k).pc = .discarding ∨ (s.survivor proc p k).pc = .removing →
        proc (.discard k) ≠ p ∧ (s.survivor proc p k).pc = (s.review k).pc) := by
  unfold survivor
  split
  · refine ⟨rfl, rfl, ReviewPc.staged_die _, fun hpc => ?_⟩
    change (s.review k).pc.die = .discarding ∨ (s.review k).pc.die = .removing at hpc
    revert hpc
    cases (s.review k).pc <;> exact fun h => nomatch h
  · exact ⟨rfl, rfl, rfl, fun _ => ⟨‹_›, rfl⟩⟩

variable [DecidableEq ρ] {r' : ρ}

@[simp] theorem RestoreState.setReview_self (v : Review ε) : (s.setReview r v).review r = v :=
  Function.update_self ..

theorem RestoreState.setReview_other (v : Review ε) (h : r' ≠ r) :
    (s.setReview r v).review r' = s.review r' :=
  Function.update_of_ne h ..

theorem RestoreState.Inv.setReview (h : s.Inv) {v : Review ε} (hmoves : s.Moves r v) :
    (s.setReview r v).Inv := by
  -- the step changes neither a request nor whether a review is staged
  have hrequest : ∀ k, ((s.setReview r v).review k).request = (s.review k).request := by
    intro k
    by_cases hk : k = r
    · subst hk
      rw [setReview_self, hmoves.request]
    · rw [setReview_other v hk]
  have hstaged : ∀ k, ((s.setReview r v).review k).pc.staged = (s.review k).pc.staged := by
    intro k
    by_cases hk : k = r
    · subst hk
      rw [setReview_self, hmoves.staged]
    · rw [setReview_other v hk]
  refine ⟨h.lease, h.oneCall, fun c hc => ?_, fun k k' hk hk' hsame => ?_, fun k hk => ?_,
    fun k hk => ?_, fun k hk => ?_⟩
  · -- the call under way belongs to this review or to another
    obtain ⟨hattempted, hcstaged, hgeneration⟩ := h.called c hc
    rw [hstaged, hrequest]
    refine ⟨?_, hcstaged, hgeneration⟩
    by_cases hk : c.review = r
    · rw [hk, setReview_self]
      exact hmoves.called ⟨c, hc, hk⟩
    · rw [setReview_other v hk]
      exact hattempted
  · rw [hstaged] at hk hk'
    rw [hrequest, hrequest] at hsame
    exact h.distinct k k' hk hk' hsame
  · rw [hstaged] at hk
    rw [hrequest]
    exact h.present k hk
  · by_cases hkr : k = r
    · subst hkr
      rw [setReview_self] at hk ⊢
      exact hmoves.unattempted hk
    · rw [setReview_other v hkr] at hk ⊢
      exact h.unattempted k hk
  · rw [hrequest]
    by_cases hkr : k = r
    · subst hkr
      rw [setReview_self] at hk
      exact hmoves.removing hk
    · rw [setReview_other v hkr] at hk
      exact h.removing k hk

/-- Only its place changes. -/
theorem RestoreState.Inv.goto (h : s.Inv) {pc : ReviewPc}
    (hstaged : (s.review r).pc.staged = pc.staged)
    (hunattempted : pc = .discarding ∨ pc = .removing → (s.review r).attempted = false)
    (hremoving : pc = .removing →
      s.lease.pc (.discard r) = .ready .shared ∧ ¬ s.Names (s.review r).request.generation) :
    (s.goto r pc).Inv :=
  h.setReview ⟨rfl, hstaged.symm, fun ⟨c, hc, hreview⟩ => hreview ▸ (h.called c hc).1,
    hunattempted, hremoving⟩

/-- A review without a call begins or ends to have a generation of its own. -/
theorem RestoreState.Inv.replace (h : s.Inv) {v : Review ε} {generations : Bytes → Bool}
    (hcalls : ∀ c ∈ s.calls, c.review ≠ r)
    (hkept : ∀ k, k ≠ r → (s.review k).pc.staged = true →
      (s.review k).request.generation ≠ v.request.generation ∧
        generations (s.review k).request.generation = true)
    (hpresent : v.pc.staged = true → generations v.request.generation = true)
    (hdiscarding : v.pc ≠ .discarding) (hremoving : v.pc ≠ .removing) :
    ({ s.setReview r v with generations := generations } : RestoreState ρ ε).Inv := by
  refine ⟨h.lease, h.oneCall, fun c hc => ?_, fun k k' hk hk' hsame => ?_, fun k hk => ?_,
    fun k hk => ?_, fun k hk => ?_⟩
  · show ((s.setReview r v).review c.review).attempted = true ∧ _
    rw [setReview_other v (hcalls c hc)]
    exact h.called c hc
  · change ((s.setReview r v).review k).pc.staged = true at hk
    change ((s.setReview r v).review k').pc.staged = true at hk'
    change ((s.setReview r v).review k).request.generation =
      ((s.setReview r v).review k').request.generation at hsame
    -- two generations: the new one, or an old one, on either side
    by_cases hkr : k = r <;> by_cases hkr' : k' = r
    · rw [hkr, hkr']
    · rw [setReview_other v hkr'] at hk' hsame
      rw [hkr, setReview_self] at hsame
      exact absurd hsame.symm (hkept k' hkr' hk').1
    · rw [setReview_other v hkr] at hk hsame
      rw [hkr', setReview_self] at hsame
      exact absurd hsame (hkept k hkr hk).1
    · rw [setReview_other v hkr] at hk hsame
      rw [setReview_other v hkr'] at hk' hsame
      exact h.distinct k k' hk hk' hsame
  · change ((s.setReview r v).review k).pc.staged = true at hk
    show generations ((s.setReview r v).review k).request.generation = true
    by_cases hkr : k = r
    · rw [hkr, setReview_self] at hk ⊢
      exact hpresent hk
    · rw [setReview_other v hkr] at hk ⊢
      exact (hkept k hkr hk).2
  · change ((s.setReview r v).review k).pc = .discarding ∨
      ((s.setReview r v).review k).pc = .removing at hk
    show ((s.setReview r v).review k).attempted = false
    by_cases hkr : k = r
    · rw [hkr, setReview_self] at hk
      exact absurd hk (not_or.mpr ⟨hdiscarding, hremoving⟩)
    · rw [setReview_other v hkr] at hk ⊢
      exact h.unattempted k hk
  · change ((s.setReview r v).review k).pc = .removing at hk
    show s.lease.pc (.discard k) = .ready .shared ∧
      ¬ s.Names ((s.setReview r v).review k).request.generation
    by_cases hkr : k = r
    · rw [hkr, setReview_self] at hk
      exact absurd hk hremoving
    · rw [setReview_other v hkr] at hk ⊢
      exact h.removing k hk

theorem RestoreState.Inv.stage (h : s.Inv) {request : PublishRequest} {owner : ε}
    (hpc : (s.review r).pc = .unstaged) (hnew : s.generations request.generation = false) :
    ({ s.setReview r ⟨.held, request, owner, false⟩ with
      generations := Function.update s.generations request.generation true } :
        RestoreState ρ ε).Inv := by
  refine h.replace (fun c hc => ?_) (fun k _ hk => ?_) (fun _ => Function.update_self ..)
    nofun nofun
  · rintro rfl
    have hstaged := (h.called c hc).2.1
    rw [hpc] at hstaged
    cases hstaged
  · -- a generation that is staged is there
    have hne : (s.review k).request.generation ≠ request.generation := by
      intro heq
      have hpresent := h.present k hk
      rw [heq, hnew] at hpresent
      cases hpresent
    rw [Function.update_of_ne hne]
    exact ⟨hne, h.present k hk⟩

theorem RestoreState.Inv.remove (h : s.Inv) (hpc : (s.review r).pc = .removing) :
    ({ s.goto r .removed with
      generations := Function.update s.generations (s.review r).request.generation false } :
        RestoreState ρ ε).Inv := by
  have hstaged : (s.review r).pc.staged = true := by
    rw [hpc]
    rfl
  refine h.replace (fun c hc => ?_) (fun k hkr hk => ?_) nofun nofun nofun
  · rintro rfl
    have hattempted := (h.called c hc).1
    rw [h.unattempted _ (.inr hpc)] at hattempted
    cases hattempted
  · have hne : (s.review k).request.generation ≠ (s.review r).request.generation :=
      fun hsame => hkr (h.distinct k r hk hstaged hsame)
    rw [Function.update_of_ne hne]
    exact ⟨hne, h.present k hk⟩

/-! ## Every step -/

variable [DecidableEq ε] {π : Type} [DecidableEq π] {proc : Holder ρ ε → π}
  {s' : RestoreState ρ ε} {event : RestoreEvent ρ ε π}

/-- A step of a lease leaves a worker its lease until it ends. -/
theorem RestoreState.Inv.freeLease (h : s.Inv) {event : LeaseEvent (Holder ρ ε) π}
    {l : LeaseState (Holder ρ ε)} (hfree : s.Free event)
    (hlease : LeaseStep proc s.lease event l) :
    ({ s with lease := l } : RestoreState ρ ε).Inv := by
  refine h.setLease (h.lease.step hlease) fun k hk hready => ?_
  refine hlease.ready_kept hready ?_ ?_ ?_
  · rintro rfl
    exact hfree
  · rintro rfl
    rcases hfree with hpc | hpc <;> (rw [hk] at hpc; cases hpc)
  · rintro rfl
    exact hfree

/-- The lease of an engine moves, and no worker's. -/
theorem RestoreState.Inv.engineLease (h : s.Inv) {event : LeaseEvent (Holder ρ ε) π}
    {l : LeaseState (Holder ρ ε)} (hlease : LeaseStep proc s.lease event l)
    (hexclusively : ∀ r, event ≠ .exclusively (.discard r)) (hclose : ∀ i, event ≠ .close i)
    (hcrash : ∀ p, event ≠ .crash p) : ({ s with lease := l } : RestoreState ρ ε).Inv :=
  h.setLease (h.lease.step hlease) fun _ _ hready =>
    hlease.ready_kept hready (hexclusively _) (hclose _) (hcrash _)

theorem RestoreState.Inv.crash (h : s.Inv) {p : π} {l : LeaseState (Holder ρ ε)}
    (hlease : LeaseStep proc s.lease (.crash p) l) :
    ({ s with
      lease := l
      review := s.survivor proc p
      calls := s.calls.map fun c =>
        if proc (.engine c.engine) = p then { c with stage := c.stage.lost } else c } :
          RestoreState ρ ε).Inv := by
  have hspec := s.survivor_spec proc p
  have hcall : ∀ c : Call ρ ε,
      (if proc (.engine c.engine) = p then { c with stage := c.stage.lost } else c).review =
        c.review ∧
      (if proc (.engine c.engine) = p then { c with stage := c.stage.lost } else c).request =
        c.request := by
    intro c
    split <;> exact ⟨rfl, rfl⟩
  -- clause by clause: a crash keeps the requests, and who was staged and attempted
  refine ⟨h.lease.step hlease, ?_, fun c hc => ?_, fun k k' hk hk' hsame => ?_, fun k hk => ?_,
    fun k hk => ?_, fun k hk => ?_⟩
  · show ((s.calls.map _).map Call.review).Nodup
    rw [List.map_map]
    have hsame : (Call.review ∘ fun c : Call ρ ε =>
        if proc (.engine c.engine) = p then { c with stage := c.stage.lost } else c) =
          Call.review := funext fun c => (hcall c).1
    rw [hsame]
    exact h.oneCall
  · obtain ⟨d, hd, rfl⟩ := List.mem_map.mp hc
    rw [(hcall d).1, (hcall d).2]
    show (s.survivor proc p d.review).attempted = true ∧
      (s.survivor proc p d.review).pc.staged = true ∧
      d.request.generation = (s.survivor proc p d.review).request.generation
    rw [(hspec _).1, (hspec _).2.1, (hspec _).2.2.1]
    exact h.called d hd
  · change (s.survivor proc p k).pc.staged = true at hk
    change (s.survivor proc p k').pc.staged = true at hk'
    change (s.survivor proc p k).request.generation =
      (s.survivor proc p k').request.generation at hsame
    rw [(hspec _).2.2.1] at hk hk'
    rw [(hspec _).1, (hspec _).1] at hsame
    exact h.distinct k k' hk hk' hsame
  · change (s.survivor proc p k).pc.staged = true at hk
    show s.generations (s.survivor proc p k).request.generation = true
    rw [(hspec _).2.2.1] at hk
    rw [(hspec _).1]
    exact h.present k hk
  · change (s.survivor proc p k).pc = .discarding ∨ (s.survivor proc p k).pc = .removing at hk
    show (s.survivor proc p k).attempted = false
    rw [(hspec k).2.1]
    rw [((hspec k).2.2.2 hk).2] at hk
    exact h.unattempted k hk
  · change (s.survivor proc p k).pc = .removing at hk
    show l.pc (.discard k) = .ready .shared ∧
      ¬ s.Names (s.survivor proc p k).request.generation
    -- a review that is still removing was not in the process that is gone
    obtain ⟨hp, hpc⟩ := (hspec k).2.2.2 (.inr hk)
    obtain ⟨hready, hnames⟩ := h.removing k (hpc.symm.trans hk)
    rw [(hspec k).1]
    exact ⟨hlease.ready_kept hready nofun nofun fun heq => hp (LeaseEvent.crash.inj heq).symm,
      hnames⟩

theorem RestoreState.Inv.step (h : s.Inv) (hs : RestoreStep proc s event s') : s'.Inv := by
  cases hs with
  | lease hfree hlease => exact h.freeLease hfree hlease
  | stage hpc _ hnew => exact h.stage hpc hnew
  | @stageFailed r generation leftover hpc _ hnew =>
    -- what is left of a failed staging has a name of its own
    refine ⟨h.lease, h.oneCall, h.called, h.distinct, fun k hk => ?_, h.unattempted, h.removing⟩
    have hne : (s.review k).request.generation ≠ generation := by
      intro heq
      have hpresent := h.present k hk
      rw [heq, hnew] at hpresent
      cases hpresent
    show Function.update s.generations generation leftover _ = true
    rw [Function.update_of_ne hne]
    exact h.present k hk
  | @send r hpc hattempted =>
    -- the one request of a review goes out
    have hsent : (s.setReview r { s.review r with pc := .calling, attempted := true }).Inv :=
      h.setReview ⟨rfl, by rw [hpc]; rfl, fun _ => rfl, nofun, nofun⟩
    refine hsent.addCall (c := ⟨r, (s.review r).owner, (s.review r).request, .queued⟩) ?_ ?_
    · rintro c hc rfl
      have hcalled := (h.called c hc).1
      rw [hattempted] at hcalled
      cases hcalled
    · show ((s.setReview r _).review r).attempted = true ∧
        ((s.setReview r _).review r).pc.staged = true ∧
        (s.review r).request.generation = ((s.setReview r _).review r).request.generation
      rw [setReview_self]
      exact ⟨rfl, rfl, rfl⟩
  | @sendFailed r hpc hattempted =>
    refine h.setReview ⟨rfl, rfl, fun _ => rfl, fun hd => ?_, fun hd => ?_⟩
    · exact absurd hd (by simp [hpc])
    · exact absurd hd (by simp [hpc])
  | timeout hpc =>
    exact h.goto (by rw [hpc]; rfl) nofun nofun
  | @reply before after c reply hcalls hstage hpc =>
    -- a reply ends the call, so the review may be destroyed
    obtain ⟨hdropped, hother⟩ := h.dropCall hcalls
    refine hdropped.setReview (r := c.review) ⟨rfl, by rw [hpc]; rfl, ?_, nofun, nofun⟩
    rintro ⟨d, hd, hreview⟩
    exact absurd hreview (hother d hd)
  | lateReply hcalls _ _ => exact (h.dropCall hcalls).1
  | @destroy r hpc =>
    -- a review that was attempted keeps its generation
    cases hattempted : (s.review r).attempted with
    | true => exact h.goto (by rw [hpc]; rfl) nofun nofun
    | false => exact h.goto (by rw [hpc]; rfl) (fun _ => hattempted) nofun
  | retain hpc => exact h.goto (by rw [hpc]; rfl) nofun nofun
  | check hpc hready hactive hne =>
    refine h.goto (by rw [hpc]; rfl) (fun _ => h.unattempted _ (.inl hpc)) fun _ => ⟨hready, ?_⟩
    intro hnames
    rw [RestoreState.activeGeneration_of_names hnames] at hactive
    exact hne (Option.some.inj hactive).symm
  | remove hpc => exact h.remove hpc
  | removeFailed hpc => exact h.goto (by rw [hpc]; rfl) nofun nofun
  | refuse hcalls _ _ | accept hcalls _ _ _ | compare hcalls _ _ _ _ | stop hcalls _ _ _ =>
    exact h.setStage hcalls _
  | enter hcalls _ hlease =>
    exact (h.engineLease hlease nofun nofun nofun).setStage hcalls _
  | publish hcalls _ hengine _ _ _ _ _ =>
    -- the engine has the lease to itself, so nothing is being removed
    have hstage := h.setStage hcalls (.operated .published)
    exact ⟨hstage.lease, hstage.oneCall, hstage.called, hstage.distinct, hstage.present,
      hstage.unattempted, fun k hk => absurd hk (h.not_removing hengine k)⟩
  | finish _ _ hlease => exact h.engineLease hlease nofun nofun nofun
  | exit hcalls _ hlease =>
    exact (h.engineLease hlease nofun nofun nofun).setStage hcalls _
  | crash hlease => exact h.crash hlease

/-! ## What is removed -/

/-- What goes is what a worker removes. -/
theorem RestoreStep.gone {generation : Bytes} (hs : RestoreStep proc s event s')
    (hthere : s.generations generation = true) (hgone : s'.generations generation = false) :
    ∃ r, (s.review r).pc = .removing ∧ (s.review r).request.generation = generation ∧
      s'.marker = s.marker ∧ s'.calls = s.calls := by
  have hsame : s'.generations ≠ s.generations := by
    intro heq
    rw [heq, hthere] at hgone
    cases hgone
  cases hs with
  | @stage r request owner _ _ hnew =>
    change Function.update s.generations request.generation true generation = false at hgone
    by_cases heq : generation = request.generation
    · rw [heq, hnew] at hthere
      cases hthere
    · rw [Function.update_of_ne heq, hthere] at hgone
      cases hgone
  | @stageFailed r name leftover _ _ hnew =>
    change Function.update s.generations name leftover generation = false at hgone
    by_cases heq : generation = name
    · rw [heq, hnew] at hthere
      cases hthere
    · rw [Function.update_of_ne heq, hthere] at hgone
      cases hgone
  | @remove r hpc =>
    change Function.update s.generations (s.review r).request.generation false generation =
      false at hgone
    by_cases heq : generation = (s.review r).request.generation
    · exact ⟨r, hpc, heq.symm, rfl, rfl⟩
    · rw [Function.update_of_ne heq, hthere] at hgone
      cases hgone
  | _ => exact absurd rfl hsame

/-- What the marker comes to name is what a call has asked for. -/
theorem RestoreStep.names {generation : Bytes} (hs : RestoreStep proc s event s')
    (hnames : s'.Names generation) : s.Names generation ∨
      s'.generations = s.generations ∧ s.Publishing generation := by
  cases hs with
  | @publish before after c hcalls _ _ hname hcontent _ _ _ =>
    obtain ⟨value, content, hmarker, hdecode⟩ := hnames
    cases hmarker
    rw [decodeMarker_markerText hname hcontent] at hdecode
    cases hdecode
    exact .inr ⟨rfl, c, by rw [hcalls]; exact List.mem_append_right _ List.mem_cons_self, rfl⟩
  | _ => exact .inl hnames

/-- What the marker names is there. -/
def RestoreState.Installed (s : RestoreState ρ ε) : Prop :=
  ∀ generation, s.Names generation → s.generations generation = true

theorem RestoreState.Installed.step (hinstalled : s.Installed) (h : s.Inv)
    (hs : RestoreStep proc s event s') : s'.Installed := by
  intro generation hnames
  rcases hs.names hnames with hbefore | ⟨hsame, hpublishing⟩
  · by_contra hgone
    rw [Bool.not_eq_true] at hgone
    obtain ⟨r, hpc, rfl, -, -⟩ := hs.gone (hinstalled generation hbefore) hgone
    exact (h.unused hpc).1 hbefore
  · rw [hsame]
    exact h.publishing_present hpublishing

/-- The run lemma. -/
theorem RestoreState.run_inv {s₀ : RestoreState ρ ε} {events : List (RestoreEvent ρ ε π)}
    (hstart : s₀.Start) (hrun : Run (RestoreStep proc) s₀ events s) : s.Inv :=
  hrun.invariant (I := RestoreState.Inv) (fun _ _ _ h hs => h.step hs) hstart.inv

/-- **The active marker never names a removed generation.** However reviews, their workers,
engines and whoever else takes a lease take turns, whatever fails, and whichever replies are
late or lost:

- a generation that is being removed is not the one the marker names, and nobody asks for it
  to be published;
- so nothing that goes was named or asked for, before or after;
- what the marker names is there if it was at the start, and so is what a call asks for. -/
theorem active_generation_never_removed {s₀ : RestoreState ρ ε}
    {events : List (RestoreEvent ρ ε π)} (hstart : s₀.Start)
    (hrun : Run (RestoreStep proc) s₀ events s) :
    (∀ r, (s.review r).pc = .removing →
      ¬ s.Names (s.review r).request.generation ∧
        ¬ s.Publishing (s.review r).request.generation) ∧
    (∀ event s' generation, RestoreStep proc s event s' →
      s.generations generation = true → s'.generations generation = false →
      (¬ s.Names generation ∧ ¬ s.Publishing generation) ∧
        ¬ s'.Names generation ∧ ¬ s'.Publishing generation) ∧
    (s₀.Installed → s.Installed) ∧
    ∀ generation, s.Publishing generation → s.generations generation = true := by
  have h := RestoreState.run_inv hstart hrun
  refine ⟨fun r hpc => h.unused hpc, fun event s' generation hs hthere hgone => ?_,
    fun hinstalled => ?_, fun generation => h.publishing_present⟩
  · obtain ⟨r, hpc, rfl, hmarker, hcalls⟩ := hs.gone hthere hgone
    have hunused := h.unused hpc
    refine ⟨hunused, ?_⟩
    unfold RestoreState.Names RestoreState.Publishing
    rw [hmarker, hcalls]
    exact hunused
  · have hboth : s.Inv ∧ s.Installed :=
      hrun.invariant (I := fun t => t.Inv ∧ t.Installed)
        (fun _ _ _ ht hs => ⟨ht.1.step hs, ht.2.step ht.1 hs⟩) ⟨hstart.inv, hinstalled⟩
    exact hboth.2

end

/-! ## A review that was told `busy` -/

/-- What review 0 asks for. -/
def sampleRequest : PublishRequest := ⟨ascii "new", ascii "content", [], []⟩

/-- The marker names another generation. -/
def sampleState : RestoreState Nat Nat where
  lease := .initial
  marker := some (markerText (ascii "old") (ascii "content"))
  generations := fun generation => generation == ascii "old"
  review := fun _ => ⟨.unstaged, sampleRequest, 0, false⟩
  calls := []

/-- A lease is taken. -/
def leaseEvents (i : Holder Nat Nat) : List (RestoreEvent Nat Nat Nat) :=
  [.lease (.acquire i .shared), .lease (.lock i), .lease (.lock i), .lease (.lock i)]

/-- Nobody has either lock to himself. -/
def Shared (l : LeaseState (Holder Nat Nat)) : Prop :=
  ∀ j, l.gate j ≠ some .exclusive ∧ l.session j ≠ some .exclusive

/-- A lease that nobody stands in the way of. -/
theorem lease_taken {s : RestoreState Nat Nat} {i : Holder Nat Nat}
    (hfree : s.Free (.acquire i .shared : LeaseEvent (Holder Nat Nat) Nat))
    (hfresh : s.lease.pc i = .fresh) (hshared : Shared s.lease) :
    ∃ l, Run (RestoreStep fun _ => 0) s (leaseEvents i) { s with lease := l } ∧
      l.pc i = .ready .shared ∧ (∀ j, j ≠ i → l.pc j = s.lease.pc j) ∧ Shared l := by
  have hput : ∀ (l : LeaseState (Holder Nat Nat)) pc gate session, Shared l →
      gate ≠ some .exclusive → session ≠ some .exclusive → Shared (l.put i pc gate session) := by
    intro l pc gate session hl hgate hsession j
    by_cases hji : j = i
    · subst hji
      simpa [LeaseState.put] using And.intro hgate hsession
    · simpa [LeaseState.put, hji] using hl j
  have h₁ := hput _ (.gateTry .shared) _ _ hshared (hshared i).1 (hshared i).2
  have h₂ := hput _ (.sessionTry .shared) (some .shared) _ h₁ (by simp) (h₁ i).2
  have h₃ := hput _ .gateDrop _ (some .shared) h₂ (h₂ i).1 (by simp)
  have h₄ := hput _ (.ready .shared) none _ h₃ (by simp) (h₃ i).2
  refine ⟨_, .cons (.lease hfree (.acquire hfresh)) <|
    .cons (.lease trivial (.gateGranted (LeaseState.put_pc_self ..) fun j _ => (h₁ j).1)) <|
    .cons (.lease trivial (.sharedGranted (LeaseState.put_pc_self ..) fun j _ => (h₂ j).2)) <|
    .single (.lease trivial (.gateDropped (LeaseState.put_pc_self ..))),
    LeaseState.put_pc_self .., fun j hji => ?_, h₄⟩
  rw [LeaseState.put_pc_other _ hji, LeaseState.put_pc_other _ hji,
    LeaseState.put_pc_other _ hji, LeaseState.goto, LeaseState.put_pc_other _ hji]

/-- It is told so, and destroyed; its worker looks at the marker. -/
theorem active_generation_never_removed_busy :
    ∃ events s, Run (RestoreStep fun _ => 0) sampleState events s ∧
      (s.review 0).pc = .removing ∧ ¬ s.Names (ascii "new") ∧ ¬ s.Publishing (ascii "new") := by
  have hstart : sampleState.Start := ⟨rfl, fun _ => rfl, rfl⟩
  obtain ⟨l, htaken, hready, hother, hshared⟩ := lease_taken (s := sampleState)
    (i := .prepare 0) rfl rfl fun _ =>
      ⟨(Option.some_ne_none _).symm, (Option.some_ne_none _).symm⟩
  obtain ⟨t, htold, hlease, hdiscarding, hrequest, hmarker⟩ : ∃ t : RestoreState Nat Nat,
      Run (RestoreStep fun _ => 0) { sampleState with lease := l }
        [.review 0, .review 0, .engine 0, .review 0, .review 0] t ∧ t.lease = l ∧
      (t.review 0).pc = .discarding ∧ (t.review 0).request = sampleRequest ∧
      t.marker = sampleState.marker := by
    have hstage := @RestoreStep.stage Nat Nat Nat _ _ _ (fun _ => 0)
      { sampleState with lease := l } 0 sampleRequest 0 rfl hready rfl
    have hsent := (Run.single hstage).snoc (.send (r := 0) rfl rfl)
    have hrefused := hsent.snoc
      (@RestoreStep.refuse _ _ _ _ _ _ _ _ [] [] _ (some .busy) rfl (.inl rfl) (.inl rfl))
    have hread := hrefused.snoc (@RestoreStep.reply _ _ _ _ _ _ _ _ [] [] _ _ rfl rfl rfl)
    have hdestroyed := hread.snoc (.destroy (r := 0) rfl)
    exact ⟨_, hdestroyed, rfl, rfl, rfl, rfl⟩
  obtain ⟨l', hworker, hready', -, -⟩ := lease_taken (s := t) (i := .discard 0)
    ⟨rfl, hdiscarding⟩ (by rw [hlease, hother (.discard 0) (by simp)]; rfl) (hlease ▸ hshared)
  have hactive : ({ t with lease := l' } : RestoreState Nat Nat).activeGeneration =
      some (ascii "old") := by
    refine RestoreState.activeGeneration_of_names ⟨_, ascii "content", hmarker, ?_⟩
    exact decodeMarker_markerText (by decide) (by decide)
  have hchecked := ((htaken.append htold).append hworker).snoc (.check (r := 0) hdiscarding
    hready' hactive (by rw [hrequest]; decide))
  have hunused := (active_generation_never_removed hstart hchecked).1 0
  rw [RestoreState.goto, RestoreState.setReview_self] at hunused
  refine ⟨_, _, hchecked, by rw [RestoreState.goto, RestoreState.setReview_self], ?_⟩
  rw [show ascii "new" = (t.review 0).request.generation by rw [hrequest]; rfl]
  exact hunused rfl

end NativeRestore

end MsimeLinux

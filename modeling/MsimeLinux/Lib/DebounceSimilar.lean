import MsimeLinux.Lib.Debounce

/-!
# What a worker can tell apart

A worker sees the clock, the slot and whether its token is current; it does not see
how often the slot has changed before it last looked, nor what the other workers are
at. `Similar w` relates two crews that look the same to `w`.

- `Similar.step`, `Similar.run`: what can happen to `w` in one of them can happen in
  the other, as long as no other worker ends the process.
- `Sound.asIfFirst`: a worker that waits, with a request ahead of it, is in the
  position of one to which no other request has ever been submitted.
- `serves`: and it can start on that request.
-/

namespace Lib

namespace Debounce

namespace Crew

variable {W R J E : Type}

/-! ## Similar crews -/

/-- Two crews that look the same to `w`, up to the number of changes there were and
what the others are at. Which of its waits it is in makes no difference to a worker
that has not seen the last change. -/
structure Similar (w : W) (s t : Crew W R J) : Prop where
  now : t.now = s.now
  latest : t.slot.latest = s.slot.latest
  updated : t.slot.updated = s.slot.updated
  stopping : t.slot.stopping = s.slot.stopping
  clearing : t.clearing = s.clearing
  phase : t.phase w = s.phase w ∨ s.Waits w ∧ t.Waits w ∧ s.observed w ≠ s.slot.token
  current : t.observed w = t.slot.token ↔ s.observed w = s.slot.token
  terminated : t.terminated = s.terminated

/-- What happens to `w`, to the slot and to the clock. -/
def Concerns (w : W) (e : Event W R E) : Prop :=
  e.worker? = none ∨ e.worker? = some w

instance [DecidableEq W] (w : W) (e : Event W R E) : Decidable (Concerns w e) :=
  inferInstanceAs (Decidable (_ ∨ _))

theorem Similar.symm {w : W} {s t : Crew W R J} (h : Similar w s t) : Similar w t s :=
  ⟨h.now.symm, h.latest.symm, h.updated.symm, h.stopping.symm, h.clearing.symm,
    h.phase.imp Eq.symm fun hwaits => ⟨hwaits.2.1, hwaits.1, fun hlast =>
      hwaits.2.2 (h.current.mp hlast)⟩, h.current.symm, h.terminated.symm⟩

/-- The two find the same when they ask. -/
theorem Similar.view {w : W} {s t : Crew W R J} (h : Similar w s t) : t.view w = s.view w := by
  rw [Crew.view, Crew.view, h.stopping]
  congr 1
  exact decide_eq_decide.mpr h.current

theorem Similar.moved [DecidableEq W] {w : W} {s t : Crew W R J} (h : Similar w s t)
    (phase : Phase J) :
    Similar w (s.moved w phase) (t.moved w phase) where
  now := h.now
  latest := h.latest
  updated := h.updated
  stopping := h.stopping
  clearing := h.clearing
  phase := .inl (by rw [moved_phase_self, moved_phase_self])
  current := h.current
  terminated := h.terminated

theorem Similar.waits {w : W} {s t : Crew W R J} (h : Similar w s t) (hs : s.Waits w) :
    t.Waits w := by
  rcases h.phase with hphase | hwaits
  · rw [Waits, hphase]
    exact hs
  · exact hwaits.2.1

theorem Similar.settled {w : W} {s t : Crew W R J} (h : Similar w s t) (hs : s.Settled w) :
    t.Settled w where
  running := h.stopping.trans hs.running
  current := h.current.mpr hs.current
  phase := by
    have hphase : t.phase w = s.phase w :=
      h.phase.resolve_right fun hwaits => hwaits.2.2 hs.current
    rw [hphase, h.now]
    exact hs.phase

theorem Similar.working {w : W} {s t : Crew W R J} (h : Similar w s t) {job : J}
    (hs : s.phase w = .working job) : t.phase w = .working job := by
  rcases h.phase with hphase | ⟨hwaiting | ⟨deadline, hdebouncing⟩, -⟩
  · exact hphase.trans hs
  · rw [hs] at hwaiting
    cases hwaiting
  · rw [hs] at hdebouncing
    cases hdebouncing

section Futures

variable [DecidableEq W] {L : Loop W R J E}

theorem Similar.outcome {w : W} {s t : Crew W R J} (h : Similar w s t) (o : Outcome J) :
    Similar w (s.outcome w o) (t.outcome w o) := by
  cases o with
  | next job => exact h.moved _
  | finished => exact h.moved _
  | escaped =>
    have hgone := h.moved .exited
    exact ⟨hgone.now, hgone.latest, hgone.updated, hgone.stopping, hgone.clearing, hgone.phase,
      hgone.current, rfl⟩

/-- **The step lemma** of `Similar`, for what happens to `w`. -/
theorem Similar.step {w : W} {s t s' : Crew W R J} {e : Event W R E} (h : Similar w s t)
    (hsound : Sound L s) (hsound' : Sound L t) (hs : Step L s e s') (he : Concerns w e) :
    ∃ t', Step L t e t' ∧ Similar w s' t' := by
  have hlive : s.terminated = false → t.terminated = false := fun hl => h.terminated.trans hl
  cases hs with
  | elapse duration hl =>
    refine ⟨_, .elapse duration (hlive hl), ⟨?_, h.latest, h.updated, h.stopping, h.clearing,
      h.phase, h.current, h.terminated⟩⟩
    show t.now + duration = s.now + duration
    rw [h.now]
  | enter hl hrunning =>
    refine ⟨_, .enter (hlive hl) (h.stopping.trans hrunning), ⟨h.now, h.latest, h.updated,
      h.stopping, ?_, h.phase, h.current, h.terminated⟩⟩
    show t.clearing + 1 = s.clearing + 1
    rw [h.clearing]
  | change c hl hmay =>
    have hmay' : t.MayChange L c := by
      cases c with
      | submit request => exact ⟨h.stopping.trans hmay.1, hmay.2⟩
      | clear =>
        show if L.lateClear then 0 < t.clearing else t.slot.stopping = false
        rw [h.clearing, h.stopping]
        exact hmay
      | stop => exact h.stopping.trans hmay
    -- behind a change neither has seen it
    have hbehind : ∀ {u : Crew W R J}, Sound L u → ¬ u.observed w = (u.changed L c).token := by
      intro u hu hlast
      have hseen := hu.seen w
      have htoken : (u.changed L c).token = u.slot.token + 1 := by cases c <;> rfl
      omega
    refine ⟨_, .change c (hlive hl) hmay', ⟨h.now, ?_, ?_, ?_, ?_,
      h.phase.imp_right fun hwaits => ⟨hwaits.1, hwaits.2.1, hbehind hsound⟩,
      iff_of_false (hbehind hsound') (hbehind hsound), h.terminated⟩⟩
    · show (t.changed L c).latest = (s.changed L c).latest
      cases c with
      | submit => rfl
      | clear => rfl
      | stop => exact h.latest
    · show (t.changed L c).updated = (s.changed L c).updated
      cases c with
      | submit => exact h.now
      | clear =>
        show (if L.clearRestarts then t.now else t.slot.updated) =
          if L.clearRestarts then s.now else s.slot.updated
        rw [h.now, h.updated]
      | stop => exact h.updated
    · show (t.changed L c).stopping = (s.changed L c).stopping
      cases c with
      | submit => exact h.stopping
      | clear => exact h.stopping
      | stop => rfl
    · show t.leftClearing L c = s.leftClearing L c
      cases c <;> simp only [leftClearing, h.clearing]
  | @wake v hl hwaits hrunning hnew =>
    obtain rfl : v = w := Option.some.inj (he.resolve_left fun hnone => by cases hnone)
    refine ⟨_, .wake (hlive hl) (h.waits hwaits) (h.stopping.trans hrunning)
      (fun hlast => hnew (h.current.mp hlast)), ⟨h.now, h.latest, h.updated, h.stopping,
      h.clearing, ?_, ?_, h.terminated⟩⟩
    · exact .inl (by simp only [Function.update_self, h.updated])
    · simp only [Function.update_self]
  | @exit v hl hwaits hstop =>
    obtain rfl : v = w := Option.some.inj (he.resolve_left fun hnone => by cases hnone)
    exact ⟨_, .exit (hlive hl) (h.waits hwaits) (h.stopping.trans hstop), h.moved _⟩
  | @skip v hl hsettled hnone =>
    obtain rfl : v = w := Option.some.inj (he.resolve_left fun hnone => by cases hnone)
    exact ⟨_, .skip (hlive hl) (h.settled hsettled) (by rw [h.latest]; exact hnone), h.moved _⟩
  | @start v request job hl hsettled hlatest hstart =>
    obtain rfl : v = w := Option.some.inj (he.resolve_left fun hnone => by cases hnone)
    exact ⟨_, .start (hlive hl) (h.settled hsettled) (h.latest.trans hlatest) hstart, h.moved _⟩
  | @work v job event o hl hworking hreact =>
    obtain rfl : v = w := Option.some.inj (he.resolve_left fun hnone => by cases hnone)
    have hs' : Step L t (.work v (t.view v) event) (t.outcome v o) :=
      .work (hlive hl) (h.working hworking) (by rw [h.view]; exact hreact)
    rw [h.view] at hs'
    exact ⟨_, hs', h.outcome o⟩

/-- What happens to another worker passes `w` by, unless it ends the process. -/
theorem Similar.step_other {w : W} {s t s' : Crew W R J} {e : Event W R E} (h : Similar w s t)
    (hs : Step L s e s') (he : ¬ Concerns w e)
    (hcalm : ∀ v view job event, v ≠ w → L.react v view job event ≠ some .escaped) :
    Similar w s' t := by
  obtain ⟨hnone, hother⟩ := not_or.mp he
  have hchange : e.change? = none := by
    cases e <;> first | rfl | exact absurd rfl hnone
  have hslot := hs.slot hchange
  obtain ⟨hphase, hobserved⟩ := hs.other hother
  have hclearing : s'.clearing = s.clearing := by
    cases hs with
    | enter => exact absurd rfl hnone
    | change => exact absurd rfl hnone
    | @work v job event o _ _ _ => cases o <;> rfl
    | _ => rfl
  have hterminated : s'.terminated = s.terminated := by
    cases hs with
    | @work v job event o _ _ hreact =>
      cases o with
      | escaped =>
        exact absurd hreact (hcalm _ _ _ _ fun hvw => hother (congrArg some hvw))
      | _ => rfl
    | _ => rfl
  have hnow : s'.now = s.now := by
    rw [hs.now]
    cases e with
    | elapse => exact absurd rfl hnone
    | _ => rfl
  exact ⟨h.now.trans hnow.symm, by rw [hslot, h.latest], by rw [hslot, h.updated],
    by rw [hslot, h.stopping], by rw [hclearing, h.clearing],
    by rw [Waits, hphase, hslot, hobserved]; exact h.phase,
    by rw [hslot, hobserved]; exact h.current, by rw [hterminated, h.terminated]⟩

/-- **Similar crews have the same futures** for `w`. -/
theorem Similar.run {w : W} {s t s' : Crew W R J} {ls : List (Event W R E)} (h : Similar w s t)
    (hsound : Sound L s) (hsound' : Sound L t)
    (hcalm : ∀ v view job event, v ≠ w → L.react v view job event ≠ some .escaped)
    (hrun : Run (Step L) s ls s') :
    ∃ t', Run (Step L) t (ls.filter fun e => Concerns w e) t' ∧ Similar w s' t' := by
  induction hrun generalizing t with
  | nil => exact ⟨t, .nil t, h⟩
  | @cons s u s' e ls hs _ ih =>
    by_cases he : Concerns w e
    · obtain ⟨t', hs', h'⟩ := h.step hsound hsound' hs he
      obtain ⟨t'', hrun', h''⟩ := ih h' (hsound.step hs) (hsound'.step hs')
      rw [List.filter_cons_of_pos (by simpa using he)]
      exact ⟨t'', .cons hs' hrun', h''⟩
    · obtain ⟨t'', hrun', h''⟩ :=
        ih (h.step_other hs he hcalm) (hsound.step hs) hsound'
      rw [List.filter_cons_of_neg (by simpa using he)]
      exact ⟨t'', hrun', h''⟩

/-- **And it can start on it**, after the wait. -/
theorem serves {w : W} {s : Crew W R J} (hlive : s.terminated = false)
    (hrunning : s.slot.stopping = false) (hwaits : s.Waits w)
    (hnew : s.observed w ≠ s.slot.token) {request : R}
    (hlatest : s.slot.latest = some request) {job : J} (hstart : L.start w request = some job) :
    ∃ t, Run (Step L) s [.wake w, .elapse (s.slot.updated + L.debounce), .start w request] t ∧
      t.phase w = .working job := by
  have hsettled : Settled { s with
      now := s.now + (s.slot.updated + L.debounce)
      observed := Function.update s.observed w s.slot.token
      phase := Function.update s.phase w (.debouncing (s.slot.updated + L.debounce)) } w :=
    ⟨hrunning, Function.update_self .., _, Function.update_self .., Nat.le_add_left ..⟩
  exact ⟨_, .cons (.wake hlive hwaits hrunning hnew) (.cons (.elapse _ hlive)
    (.single (.start hlive hsettled hlatest hstart))), moved_phase_self ..⟩

/-- No exception escapes a crew whose jobs let none out. -/
theorem live {s : Crew W R J} {ls : List (Event W R E)} (hrun : Run (Step L) {} ls s)
    (hcaught : ∀ w view event, Event.work w view event ∈ ls → ∀ job,
      L.react w view job event ≠ some .escaped) : s.terminated = false := by
  refine hrun.invariantOn (I := fun s => s.terminated = false)
    (P := fun e => ∀ w view event, e = .work w view event → ∀ job,
      L.react w view job event ≠ some .escaped) ?_ ?_ rfl
  · intro s e t hs hP hstep
    cases hstep with
    | @work w job event o _ _ hreact =>
      cases o with
      | escaped => exact absurd hreact (hP _ _ _ rfl job)
      | _ => exact hs
    | _ => exact hs
  · rintro e he w view event rfl job
    exact hcaught w view event he job

end Futures

end Crew

end Debounce

end Lib

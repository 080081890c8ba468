import MsimeLinux.Dictionary.Lease

/-!
# What a lease guarantees

The results about `DictionaryLease`, from the invariant of its machine:

- `LeaseState.Inv.exclusion`: a running operation and an exclusive lease have the
  dictionary to themselves, and the gate keeps everybody else out.
- `LeaseStep.exit_restored`: however `exclusively` ends, unless `restore` itself
  failed, the shared lease is back and the gate is free of it.
- `LeaseState.run_finishing`: between the end of the operation and that point
  nobody else had the exclusive session lock.
- `LeaseState.run_failing`: once `restore` has failed, the call throws.
-/

namespace MsimeLinux

open Lib

variable {ι π : Type} [DecidableEq ι] [DecidableEq π] {proc : ι → π}

/-! ## Exclusion -/

omit [DecidableEq ι] in
/-- Both locks are taken for good by a handle that has the dictionary to itself. -/
theorem LeaseState.Inv.exclusive_locks {s : LeaseState ι} (h : s.Inv) {i : ι}
    (hi : (s.pc i).exclusive = true) :
    s.gate i = some .exclusive ∧ s.session i = some .exclusive := by
  cases hpc : s.pc i with
  | operating => exact h.locksAt hpc
  | ready mode =>
    cases mode with
    | exclusive => exact h.locksAt hpc
    | shared => simp [hpc, LeasePc.exclusive] at hi
  | _ => simp [hpc, LeasePc.exclusive] at hi

omit [DecidableEq ι] in
/-- A lease object always holds one of the two locks. -/
theorem LeaseState.Inv.live_locked {s : LeaseState ι} (h : s.Inv) {i : ι}
    (hi : (s.pc i).live = true) : s.gate i ≠ none ∨ s.session i ≠ none := by
  have hl := h.locks i
  cases hpc : s.pc i with
  | fresh | gateTry _ | sessionTry _ | gateDrop | dead => simp [hpc, LeasePc.live] at hi
  | ready mode => cases mode <;> simp_all [Locks]
  | upgradeGate => simp_all [Locks]
  | upgradeUnlock | upgradeSession | operating => simp_all [Locks]
  | restoreSession exit | restoreWait exit | restoreGate exit => simp_all [Locks]
  | unwinding | broken => simp_all [Locks]

omit [DecidableEq ι] in
/-- **Exclusion**: while an operation runs or an exclusive lease is live, no
other lease exists and no request for the gate can be granted. -/
theorem LeaseState.Inv.exclusion {s : LeaseState ι} (h : s.Inv) {i j : ι}
    (hi : (s.pc i).exclusive = true) (hji : j ≠ i) :
    (s.pc j).live = false ∧ ∀ mode, ¬ s.gate.Compatible j mode := by
  obtain ⟨hgate, hsession⟩ := h.exclusive_locks hi
  refine ⟨?_, fun mode => LockTable.WF.not_compatible hgate hji mode⟩
  by_contra hlive
  rcases h.live_locked (by simpa using hlive) with hj | hj
  · exact hj (h.gate i j hgate hji)
  · exact hj (h.session i j hsession hji)

/-! ## The way out of `exclusively` -/

/-- The error path of `restore`: caught and run again when it was the busy path,
out of the call otherwise. -/
def LeaseExit.afterError : LeaseExit → LeaseExit
  | .busy => .lockThrew
  | _ => .restoreThrew

theorem LeasePc.pending_afterRestoreError (exit : LeaseExit) :
    (LeasePc.afterRestoreError exit).pending = some exit.afterError := by
  cases exit <;> rfl

theorem LeaseState.put_pc_self (s : LeaseState ι) (i : ι) (pc : LeasePc)
    (gate session : Option LockMode) : (s.put i pc gate session).pc i = pc := by
  simp [LeaseState.put]

theorem LeaseState.put_pc_other (s : LeaseState ι) {i k : ι} (hik : i ≠ k) (pc : LeasePc)
    (gate session : Option LockMode) : (s.put k pc gate session).pc i = s.pc i := by
  simp [LeaseState.put, hik]

/-- A call in `restore` ends as it was going to, unless `restore` fails: its
process may die, it may move on, it may take the error path. -/
theorem LeaseStep.pending {s s' : LeaseState ι} {e : LeaseEvent ι π} {i : ι}
    {exit : LeaseExit} (hs : LeaseStep proc s e s') (hexit : (s.pc i).pending = some exit)
    (he : ∀ x, e ≠ .exit i x) :
    s'.pc i = .dead ∨ (s'.pc i).pending = some exit ∨
      (s'.pc i).pending = some exit.afterError := by
  -- a step of another handle changes nothing here
  have hother : ∀ k pc gate session, i ≠ k →
      ((s.put k pc gate session).pc i).pending = some exit := by
    intro k pc gate session hik
    rw [LeaseState.put_pc_other s hik]
    exact hexit
  have hnone : ∀ {k : ι} {pc : LeasePc}, s.pc k = pc → pc.pending = none → i ≠ k := by
    rintro k pc hpc hpending rfl
    rw [hpc, hpending] at hexit
    cases hexit
  cases hs with
  | misuse => exact .inr (.inl hexit)
  | @crash p =>
    by_cases hp : proc i = p
    · exact .inl (by simp [hp])
    · exact .inr (.inl (by simpa [hp] using hexit))
  | acquire hpc | gateRefused hpc | sessionRefused hpc | gateDropFailed hpc | gateDropped hpc
  | exclusively hpc | upgradeUnlocked hpc | upgradeUnlockFailed hpc | upgradeSessionFailed hpc
  | finish hpc | upgradeGateFailed hpc | reapGate hpc | reapSession hpc =>
    exact .inr (.inl (hother _ _ _ _ (hnone hpc rfl)))
  | gateGranted hpc _ | sharedGranted hpc _ | exclusiveGranted hpc _ | upgradeGateGranted hpc _
  | upgradeGateBusy hpc _ | upgradeSessionGranted hpc _ | upgradeSessionBusy hpc _ =>
    exact .inr (.inl (hother _ _ _ _ (hnone hpc rfl)))
  | close hpc =>
    rcases hpc with ⟨mode, hpc⟩ | hpc
    · exact .inr (.inl (hother _ _ _ _ (hnone hpc rfl)))
    · exact .inr (.inl (hother _ _ _ _ (hnone hpc rfl)))
  | @restoreDropped k x hpc =>
    by_cases hik : i = k
    · subst hik
      rw [hpc] at hexit
      exact .inr (.inl (by rw [LeaseState.put_pc_self]; exact hexit))
    · exact .inr (.inl (hother _ _ _ _ hik))
  | @restoreShared k x hpc _ =>
    by_cases hik : i = k
    · subst hik
      rw [hpc] at hexit
      exact .inr (.inl (by rw [LeaseState.put_pc_self]; exact hexit))
    · exact .inr (.inl (hother _ _ _ _ hik))
  | @restoreFailed k x hpc =>
    by_cases hik : i = k
    · subst hik
      obtain rfl : x = exit := by
        rcases hpc with hpc | hpc | hpc <;> (rw [hpc] at hexit; exact Option.some.inj hexit)
      refine .inr (.inr ?_)
      rw [LeaseState.goto, LeaseState.put_pc_self]
      exact LeasePc.pending_afterRestoreError x
    · exact .inr (.inl (hother _ _ _ _ hik))
  | @restored k x hpc =>
    by_cases hik : i = k
    · exact absurd (hik ▸ rfl) (he x)
    · exact .inr (.inl (hother _ _ _ _ hik))
  | @unwound k hpc =>
    by_cases hik : i = k
    · exact absurd (hik ▸ rfl) (he .restoreThrew)
    · exact .inr (.inl (hother _ _ _ _ hik))

/-- A handle that is gone stays gone. -/
theorem LeaseStep.dead {s s' : LeaseState ι} {e : LeaseEvent ι π} {i : ι}
    (hs : LeaseStep proc s e s') (hdead : s.pc i = .dead) : s'.pc i = .dead := by
  have hput : ∀ {k pc gate session}, (i = k → pc = .dead) →
      (s.put k pc gate session).pc i = .dead := by
    intro k pc gate session hk
    by_cases hik : i = k
    · subst hik
      rw [LeaseState.put_pc_self, hk rfl]
    · rw [LeaseState.put_pc_other s hik, hdead]
  cases hs with
  | misuse => exact hdead
  | crash => simp [hdead]
  | restoreFailed hpc => exact hput (by rintro rfl; simp [hdead] at hpc)
  | close | gateRefused | sessionRefused | gateDropFailed | reapGate | reapSession =>
    exact hput fun _ => rfl
  | acquire hpc | gateDropped hpc | exclusively hpc | upgradeUnlocked hpc
  | upgradeUnlockFailed hpc | upgradeSessionFailed hpc | finish hpc | upgradeGateFailed hpc
  | gateGranted hpc _ | sharedGranted hpc _ | exclusiveGranted hpc _ | upgradeGateGranted hpc _
  | upgradeGateBusy hpc _ | upgradeSessionGranted hpc _ | upgradeSessionBusy hpc _
  | restoreDropped hpc | restoreShared hpc _ | restored hpc | unwound hpc =>
    exact hput (by rintro rfl; simp [hdead] at hpc)

/-- A lease nobody calls stays as it is. -/
theorem LeaseStep.ready_kept {s s' : LeaseState ι} {e : LeaseEvent ι π} {i : ι}
    {mode : LockMode} (hs : LeaseStep proc s e s') (hpc : s.pc i = .ready mode)
    (hcalled : e ≠ .exclusively i) (hclosed : e ≠ .close i) (hcrashed : e ≠ .crash (proc i)) :
    s'.pc i = .ready mode := by
  have hput : ∀ {k pc gate session}, i ≠ k → (s.put k pc gate session).pc i = .ready mode := by
    intro k pc gate session hik
    rw [LeaseState.put_pc_other s hik, hpc]
  have hne : ∀ {k : ι} {pc : LeasePc}, s.pc k = pc → pc ≠ .ready mode → i ≠ k := by
    rintro k pc hk hmode rfl
    exact hmode (hk.symm.trans hpc)
  cases hs with
  | misuse => exact hpc
  | @crash p =>
    have hp : proc i ≠ p := fun hp => hcrashed (hp ▸ rfl)
    simpa [hp] using hpc
  | exclusively _ => exact hput fun hik => hcalled (hik ▸ rfl)
  | close _ => exact hput fun hik => hclosed (hik ▸ rfl)
  | restoreFailed hk =>
    rcases hk with hk | hk | hk <;> exact hput (hne hk nofun)
  | acquire hk | gateRefused hk | sessionRefused hk | gateDropFailed hk | gateDropped hk
  | upgradeUnlocked hk | upgradeUnlockFailed hk | upgradeSessionFailed hk | finish hk
  | upgradeGateFailed hk | reapGate hk | reapSession hk | gateGranted hk _ | sharedGranted hk _
  | exclusiveGranted hk _ | upgradeGateGranted hk _ | upgradeGateBusy hk _
  | upgradeSessionGranted hk _ | upgradeSessionBusy hk _ | restoreDropped hk
  | restoreShared hk _ | restored hk | unwound hk =>
    exact hput (hne hk nofun)

/-- A call that was in `restore` ends with what was pending. -/
theorem LeaseStep.exit_pending {s s' : LeaseState ι} {i : ι} {x exit : LeaseExit}
    (hs : LeaseStep proc s (.exit i x) s') (hexit : (s.pc i).pending = some exit) :
    x = exit := by
  cases hs with
  | upgradeGateBusy hpc _ => simp [hpc, LeasePc.pending] at hexit
  | upgradeGateFailed hpc => simp [hpc, LeasePc.pending] at hexit
  | restored hpc => simpa [hpc, LeasePc.pending] using hexit
  | unwound hpc => simpa [hpc, LeasePc.pending] using hexit

/-- **Restoration**: however `exclusively` ends, unless `restore` threw, the
lease shares the session lock again and the gate is free of it. -/
theorem LeaseStep.exit_restored {s s' : LeaseState ι} {i : ι} {exit : LeaseExit}
    (h : s.Inv) (hs : LeaseStep proc s (.exit i exit) s') (hexit : exit ≠ .restoreThrew) :
    s'.pc i = .ready .shared ∧ s'.session i = some .shared ∧ s'.gate i = none := by
  have hpc : s'.pc i = .ready .shared := by
    cases hs with
    | upgradeGateBusy _ _ | upgradeGateFailed _ | restored _ => exact s.put_pc_self _ _ _ _
    | unwound _ => exact absurd rfl hexit
  have hl := (h.step hs).locksAt hpc
  exact ⟨hpc, hl.2, hl.1⟩

/-! ## Between the operation and the return -/

/-- The exclusive session lock is only ever granted to a handle that holds the
gate. -/
theorem LeaseStep.session_exclusive {s s' : LeaseState ι} {e : LeaseEvent ι π} {j : ι}
    (h : s.Inv) (hs : LeaseStep proc s e s') (hj : s'.session j = some .exclusive) :
    s.session j = some .exclusive ∨ s.gate j = some .exclusive := by
  -- a step is of one handle, and most leave its session lock or drop it
  have hput : ∀ {k pc gate session}, (s.put k pc gate session).session j = some .exclusive →
      s.session j = some .exclusive ∨ (j = k ∧ session = some .exclusive) := by
    intro k pc gate session hj
    by_cases hjk : j = k
    · subst hjk
      exact .inr ⟨rfl, by simpa [LeaseState.put] using hj⟩
    · exact .inl (by simpa [LeaseState.put, hjk] using hj)
  have hgoto : ∀ {k pc}, (s.goto k pc).session j = some .exclusive →
      s.session j = some .exclusive := by
    intro k pc hj
    rcases hput hj with hj | ⟨rfl, hj⟩
    · exact hj
    · exact hj
  cases hs with
  | misuse | crash => exact .inl hj
  | acquire | gateRefused | sessionRefused | gateDropFailed | exclusively | upgradeGateBusy
  | upgradeGateFailed | upgradeUnlockFailed | upgradeSessionBusy | upgradeSessionFailed
  | finish | restoreFailed | unwound | close => exact .inl (hgoto hj)
  | gateGranted hpc _ | gateDropped hpc | upgradeGateGranted hpc _ | restored hpc
  | reapGate hpc =>
    rcases hput hj with hj | ⟨rfl, hj⟩
    · exact .inl hj
    · exact .inl hj
  | sharedGranted | upgradeUnlocked | restoreDropped | restoreShared | reapSession =>
    rcases hput hj with hj | ⟨_, hj⟩
    · exact .inl hj
    · cases hj
  | exclusiveGranted hpc _ | upgradeSessionGranted hpc _ =>
    -- the two that grant it find the gate held
    rcases hput hj with hj | ⟨rfl, _⟩
    · exact .inl hj
    · exact .inr (h.locksAt hpc).1

/-- Nobody but `i` holds the exclusive session lock. -/
def LeaseState.OnlyExclusive (s : LeaseState ι) (i : ι) : Prop :=
  ∀ j, j ≠ i → s.session j ≠ some .exclusive

omit [DecidableEq ι] in
theorem LeaseState.Inv.pending_gate {s : LeaseState ι} (h : s.Inv) {i : ι} {exit : LeaseExit}
    (hexit : (s.pc i).pending = some exit) : s.gate i = some .exclusive := by
  cases hpc : s.pc i with
  | restoreSession _ | restoreWait _ | restoreGate _ => exact (h.locksAt hpc).1
  | unwinding => exact h.locksAt hpc
  | _ => simp [hpc, LeasePc.pending] at hexit

/-- While handle `i` is in `restore` it holds the gate, so nobody else is granted
the exclusive session lock. -/
theorem LeaseStep.onlyExclusive {s s' : LeaseState ι} {e : LeaseEvent ι π} {i : ι}
    {exit : LeaseExit} (h : s.Inv) (hs : LeaseStep proc s e s')
    (hexit : (s.pc i).pending = some exit) (honly : s.OnlyExclusive i) :
    s'.OnlyExclusive i := by
  intro j hji hj
  rcases hs.session_exclusive h hj with hsession | hgate
  · exact honly j hji hsession
  · have := h.gate i j (h.pending_gate hexit) hji
    simp [hgate] at this

/-- Handle `i` is in `restore` with an exit in `exits` pending, or gone. -/
def LeaseState.Restoring (s : LeaseState ι) (i : ι) (exits : List LeaseExit) : Prop :=
  s.pc i = .dead ∨ ∃ exit ∈ exits, (s.pc i).pending = some exit

/-- A handle stays in `restore` until it returns or dies. -/
theorem LeaseStep.restoring {s s' : LeaseState ι} {e : LeaseEvent ι π} {i : ι}
    {exits : List LeaseExit} (hclosed : ∀ exit ∈ exits, exit.afterError ∈ exits)
    (hs : LeaseStep proc s e s') (he : ∀ x, e ≠ .exit i x) (hr : s.Restoring i exits) :
    s'.Restoring i exits := by
  rcases hr with hdead | ⟨exit, hmem, hexit⟩
  · exact .inl (hs.dead hdead)
  · rcases hs.pending hexit he with hdead | hsame | herr
    · exact .inl hdead
    · exact .inr ⟨exit, hmem, hsame⟩
    · exact .inr ⟨exit.afterError, hclosed exit hmem, herr⟩

/-- **The run lemma of a finished operation**: until the call returns, its exit
is settled up to a failing `restore`, and nobody else has the exclusive session
lock. -/
theorem LeaseState.run_finishing {s s' u : LeaseState ι} {i : ι} {threw : Bool}
    {events : List (LeaseEvent ι π)} (h : s.Inv)
    (hfinish : LeaseStep proc s (.finish i threw) s')
    (hrun : Run (LeaseStep proc) s' events u) (hevents : ∀ e ∈ events, ∀ x, e ≠ .exit i x) :
    u.Inv ∧ u.Restoring i [if threw then .operationThrew else .published, .restoreThrew] ∧
      (u.pc i = .dead ∨ u.OnlyExclusive i) := by
  have hstart : s'.Inv ∧
      s'.Restoring i [if threw then .operationThrew else .published, .restoreThrew] ∧
      (s'.pc i = .dead ∨ s'.OnlyExclusive i) := by
    refine ⟨h.step hfinish, ?_, .inr fun j hji hj => ?_⟩
    · cases hfinish with
      | finish hpc =>
        exact .inr ⟨_, List.mem_cons_self, by rw [LeaseState.goto, LeaseState.put_pc_self]; rfl⟩
    · cases hfinish with
      | finish hpc =>
        exact h.session.not_exclusive (h.locksAt hpc).2 hji
          (by simpa [LeaseState.goto, LeaseState.put, hji] using hj)
  refine hrun.invariantOn (P := fun e => ∀ x, e ≠ .exit i x)
    (I := fun t => t.Inv ∧
      t.Restoring i [if threw then .operationThrew else .published, .restoreThrew] ∧
      (t.pc i = .dead ∨ t.OnlyExclusive i))
    ?_ hevents hstart
  rintro t e t' ⟨ht, hr, honly⟩ he hs
  refine ⟨ht.step hs, hs.restoring ?_ he hr, ?_⟩
  · cases threw <;> simp [LeaseExit.afterError]
  · rcases hr with hdead | ⟨exit, _, hexit⟩
    · exact .inl (hs.dead hdead)
    · rcases honly with hdead | honly
      · exact .inl (hs.dead hdead)
      · exact .inr (hs.onlyExclusive ht hexit honly)

/-- **The run lemma of a failed `restore`**: whatever happens before it returns,
the call has an exception pending. -/
theorem LeaseState.run_failing {s s' u : LeaseState ι} {i : ι}
    {events : List (LeaseEvent ι π)} (herror : LeaseStep proc s (.restoreError i) s')
    (hrun : Run (LeaseStep proc) s' events u) (hevents : ∀ e ∈ events, ∀ x, e ≠ .exit i x) :
    u.Restoring i [.lockThrew, .restoreThrew] := by
  refine hrun.invariantOn (P := fun e => ∀ x, e ≠ .exit i x)
    (I := fun t => t.Restoring i [.lockThrew, .restoreThrew])
    (fun t e t' hr he hs => hs.restoring (by simp [LeaseExit.afterError]) he hr) hevents ?_
  cases herror with
  | @restoreFailed _ exit hpc =>
    refine .inr ⟨exit.afterError, ?_, ?_⟩
    · cases exit <;> simp [LeaseExit.afterError]
    · rw [LeaseState.goto, LeaseState.put_pc_self]
      exact LeasePc.pending_afterRestoreError exit

/-- A call that returns was in `restore` with that exit pending. -/
theorem LeaseStep.exit_mem {s s' : LeaseState ι} {i : ι} {x : LeaseExit}
    {exits : List LeaseExit} (hs : LeaseStep proc s (.exit i x) s')
    (hr : s.Restoring i exits) : x ∈ exits := by
  rcases hr with hdead | ⟨exit, hmem, hexit⟩
  · cases hs with
    | upgradeGateBusy hpc _ => simp [hpc] at hdead
    | upgradeGateFailed hpc | restored hpc | unwound hpc => simp [hpc] at hdead
  · rw [hs.exit_pending hexit]
    exact hmem

/-- **Dictionary lease mutual exclusion and restoration.** In every run, with any
number of handles and processes and crashes anywhere:

- while handle `i` runs its operation or has an exclusive lease, no other handle
  has a lease, and none can pass the gate to acquire one;
- when `exclusively` returns `true` or `false` or rethrows, the caller shares the
  session lock again and the gate is free of it;
- from the end of the operation to that point nobody else has the exclusive
  session lock, and the call ends as the operation did unless `restore` fails;
- once a lock call of `restore` has failed, the call ends with an exception. -/
theorem leaseExclusionAndRestoration {events : List (LeaseEvent ι π)} {s : LeaseState ι}
    (hrun : Run (LeaseStep proc) LeaseState.initial events s) (i : ι) :
    ((s.pc i).exclusive = true → ∀ j, j ≠ i →
      (s.pc j).live = false ∧ ∀ mode, ¬ s.gate.Compatible j mode) ∧
    (∀ exit s', LeaseStep proc s (.exit i exit) s' → exit ≠ .restoreThrew →
      s'.pc i = .ready .shared ∧ s'.session i = some .shared ∧ s'.gate i = none) ∧
    (∀ threw s' later u, LeaseStep proc s (.finish i threw) s' →
      Run (LeaseStep proc) s' later u → (∀ e ∈ later, ∀ x, e ≠ .exit i x) →
      (u.pc i = .dead ∨ u.OnlyExclusive i) ∧
      ∀ exit u', LeaseStep proc u (.exit i exit) u' →
        (exit = (if threw then .operationThrew else .published) ∨ exit = .restoreThrew) ∧
        u'.OnlyExclusive i) ∧
    (∀ s' later u exit u', LeaseStep proc s (.restoreError i) s' →
      Run (LeaseStep proc) s' later u → (∀ e ∈ later, ∀ x, e ≠ .exit i x) →
      LeaseStep proc u (.exit i exit) u' → exit = .lockThrew ∨ exit = .restoreThrew) := by
  have h := LeaseState.run_inv hrun
  refine ⟨fun hi j hji => h.exclusion hi hji, fun exit s' hs hexit => hs.exit_restored h hexit,
    fun threw s' later u hfinish hlater hevents => ?_,
    fun s' later u exit u' herror hlater hevents hexit => ?_⟩
  · obtain ⟨hu, hr, honly⟩ := LeaseState.run_finishing h hfinish hlater hevents
    refine ⟨honly, fun exit u' hexit => ⟨by simpa using hexit.exit_mem hr, ?_⟩⟩
    rcases hr with hdead | ⟨y, hy, hpending⟩
    · have hnone : exit ∈ [] := hexit.exit_mem (.inl hdead)
      simp at hnone
    · rcases honly with hdead | honly
      · simp [hdead, LeasePc.pending] at hpending
      · exact hexit.onlyExclusive hu hpending honly
  · simpa using hexit.exit_mem (LeaseState.run_failing herror hlater hevents)

/-- Two processes: the second asks for a lease while the first runs its
operation. -/
def publishingEvents : List (LeaseEvent Nat Nat) :=
  [.acquire 0 .shared, .lock 0, .lock 0, .lock 0, .exclusively 0, .lock 0, .lock 0, .lock 0,
    .acquire 1 .shared]

/-- The operation has the dictionary to itself, nobody comes in between its end and that of
the call, and the call leaves the shared lease. -/
theorem leaseExclusionAndRestoration_publishing :
    ∃ s s' u u' : LeaseState Nat, Run (LeaseStep id) LeaseState.initial publishingEvents s ∧
      s.pc 0 = .operating ∧ s.pc 1 = .gateTry .shared ∧ (s.pc 1).live = false ∧
      ¬ s.gate.Compatible 1 .shared ∧
      LeaseStep id s (.finish 0 false) s' ∧ Run (LeaseStep id) s' [.lock 0, .lock 0] u ∧
      LeaseStep id u (.exit 0 .published) u' ∧ u'.OnlyExclusive 0 ∧
      u'.pc 0 = .ready .shared ∧ u'.session 0 = some .shared ∧ u'.gate 0 = none := by
  obtain ⟨s, s', u, u', hrun, h0, h1, hfinish, hrestore, hexit⟩ : ∃ s s' u u' : LeaseState Nat,
      Run (LeaseStep id) LeaseState.initial publishingEvents s ∧
      s.pc 0 = .operating ∧ s.pc 1 = .gateTry .shared ∧ LeaseStep id s (.finish 0 false) s' ∧
      Run (LeaseStep id) s' [.lock 0, .lock 0] u ∧ LeaseStep id u (.exit 0 .published) u' := by
    -- nobody else has touched the lock files, so every request is granted
    refine ⟨_, _, _, _, .cons (.acquire rfl) <| .cons (.gateGranted rfl ?_) <|
      .cons (.sharedGranted rfl ?_) <| .cons (.gateDropped rfl) <| .cons (.exclusively rfl) <|
      .cons (.upgradeGateGranted rfl ?_) <| .cons (.upgradeUnlocked rfl) <|
      .cons (.upgradeSessionGranted rfl ?_) <| .single (.acquire rfl), rfl, rfl, .finish rfl,
      .cons (.restoreDropped rfl) <| .single (.restoreShared rfl ?_), .restored rfl⟩
    all_goals
      intro j hj
      simp [LeaseState.goto, LeaseState.put, LeaseState.initial, LockTable.empty,
        Function.update_apply, hj]
  have hrestored := hrun.append (.cons hfinish hrestore)
  obtain ⟨hlive, hgate⟩ := (leaseExclusionAndRestoration hrun 0).1 (by rw [h0]; rfl) 1 (by decide)
  obtain ⟨-, hends⟩ := (leaseExclusionAndRestoration hrun 0).2.2.1 false s' _ u hfinish hrestore
    (by simp)
  exact ⟨s, s', u, u', hrun, h0, h1, hlive, hgate .shared, hfinish, hrestore, hexit,
    (hends .published u' hexit).2,
    (leaseExclusionAndRestoration hrestored 0).2.1 .published u' hexit (by decide)⟩

end MsimeLinux

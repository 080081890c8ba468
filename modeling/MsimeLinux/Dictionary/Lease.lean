import MsimeLinux.Lib.Flock
import MsimeLinux.Lib.Run

/-!
# Dictionary leases (`DictionaryLease.cpp`)

Every process that touches the native dictionary takes a lease on it: a lock on
`dictionary-sessions.lock`, shared for using the dictionary and exclusive for
replacing it. A second file, `dictionary-publication.lock`, is the gate: whoever
wants the session lock passes it first, which is what closes the window while a
shared lease is converted to an exclusive one and back.

The model is a transition system over *handles*. A handle is one call of
`DictionaryLease::acquire` and the lease it yields, so it owns one open file
description on each of the two files; a process may own any number of them. Each
`flock` call is one step (two when it converts a lock, since the kernel drops the
old one first); a call that fails throws, as `try_lock` and `checked_lock` do.

- `LeaseStep`: what one handle, or a crash, can do.
- `Locks`: what a handle holds at each point of the code; `LeaseState.Inv` says so
  of all handles at once, and `LeaseState.run_inv` that every run keeps it.
-/

namespace MsimeLinux

open Lib

/-- How a call of `exclusively` ends. -/
inductive LeaseExit where
  /-- `return true` -/
  | published
  /-- `return false` -/
  | busy
  /-- the operation's exception, rethrown -/
  | operationThrew
  /-- the exception of a lock call, with the shared lease restored -/
  | lockThrew
  /-- the exception of `restore` itself -/
  | restoreThrew
  deriving DecidableEq, Repr

/-- Where a handle stands in `acquire` (DictionaryLease.cpp:57) and `exclusively`
(DictionaryLease.cpp:80). -/
inductive LeasePc where
  /-- `acquire` has not been called -/
  | fresh
  /-- at `try_lock(gate.value, …)` -/
  | gateTry (mode : LockMode)
  /-- the gate is ours, at `try_lock(lock.value, …)` -/
  | sessionTry (mode : LockMode)
  /-- shared only: both locks are ours, at `checked_lock(gate.value, LOCK_UN)` -/
  | gateDrop
  /-- a lease nobody is calling -/
  | ready (mode : LockMode)
  /-- in `exclusively`, at `try_lock(gate_, LOCK_EX)` -/
  | upgradeGate
  /-- `publishing_`, at `checked_lock(descriptor_, LOCK_UN)` -/
  | upgradeUnlock
  /-- at `try_lock(descriptor_, LOCK_EX)` -/
  | upgradeSession
  /-- inside `operation()` -/
  | operating
  /-- in `restore`, at `checked_lock(descriptor_, LOCK_SH)`; `exit` is what
  follows it -/
  | restoreSession (exit : LeaseExit)
  /-- in the same call, the old lock dropped and the shared one not yet granted -/
  | restoreWait (exit : LeaseExit)
  /-- in `restore`, at `checked_lock(gate_, LOCK_UN)` -/
  | restoreGate (exit : LeaseExit)
  /-- `restore` threw where nothing catches it -/
  | unwinding
  /-- the lease after that: `publishing_` is still set -/
  | broken
  /-- closed, or its process is gone -/
  | dead
  deriving DecidableEq, Repr

/-- A lease object exists. -/
def LeasePc.live : LeasePc → Bool
  | .fresh | .gateTry _ | .sessionTry _ | .gateDrop | .dead => false
  | _ => true

/-- The handle has the dictionary to itself: its operation runs, or its lease is
an exclusive one. -/
def LeasePc.exclusive : LeasePc → Bool
  | .operating | .ready .exclusive => true
  | _ => false

/-- What the call of `exclusively` will end with, once it is in `restore`. -/
def LeasePc.pending : LeasePc → Option LeaseExit
  | .restoreSession exit | .restoreWait exit | .restoreGate exit => some exit
  | .unwinding => some .restoreThrew
  | _ => none

/-- The mutable state of the machine: every handle, and the two lock files. -/
structure LeaseState (ι : Type) where
  pc : ι → LeasePc
  gate : LockTable ι
  session : LockTable ι

/-- Nobody has called anything. -/
def LeaseState.initial {ι : Type} : LeaseState ι := ⟨fun _ => .fresh, .empty, .empty⟩

/-- What an observer sees of a step. -/
inductive LeaseEvent (ι π : Type) where
  /-- `acquire` is called -/
  | acquire (i : ι) (mode : LockMode)
  /-- `acquire` returns null or throws -/
  | refused (i : ι)
  /-- one lock call inside `acquire` or `exclusively` -/
  | lock (i : ι)
  /-- `exclusively` is called -/
  | exclusively (i : ι)
  /-- `exclusively` without an operation, or on a lease that is exclusive or
  publishing: `logic_error` -/
  | misuse (i : ι)
  /-- `operation()` returns, or throws -/
  | finish (i : ι) (threw : Bool)
  /-- a lock call of `restore` fails -/
  | restoreError (i : ι)
  /-- `exclusively` returns or throws -/
  | exit (i : ι) (exit : LeaseExit)
  /-- the lease is destroyed -/
  | close (i : ι)
  | crash (p : π)
  /-- the kernel releases a lock of a handle that is gone -/
  | reap (i : ι)
  deriving DecidableEq, Repr

variable {ι π : Type} [DecidableEq ι] [DecidableEq π]

/-- Handle `i` moves to `pc` and now holds these two locks. -/
def LeaseState.put (s : LeaseState ι) (i : ι) (pc : LeasePc) (gate session : Option LockMode) :
    LeaseState ι where
  pc := Function.update s.pc i pc
  gate := Function.update s.gate i gate
  session := Function.update s.session i session

/-- Handle `i` moves to `pc` and keeps its locks. -/
def LeaseState.goto (s : LeaseState ι) (i : ι) (pc : LeasePc) : LeaseState ι :=
  s.put i pc (s.gate i) (s.session i)

/-- The two ways out of a failed `restore`: the busy path sits inside the `try`,
so its failure is caught and `restore` runs again (DictionaryLease.cpp:99); the
other calls are outside of it. -/
def LeasePc.afterRestoreError : LeaseExit → LeasePc
  | .busy => .restoreSession .lockThrew
  | _ => .unwinding

/-- One step. `proc` is the process each handle belongs to. -/
inductive LeaseStep (proc : ι → π) : LeaseState ι → LeaseEvent ι π → LeaseState ι → Prop
  | acquire {s : LeaseState ι} {i : ι} {mode : LockMode} :
      s.pc i = .fresh → LeaseStep proc s (.acquire i mode) (s.goto i (.gateTry mode))
  -- `acquire`, line by line
  | gateGranted {s : LeaseState ι} {i : ι} {mode : LockMode} :
      s.pc i = .gateTry mode → s.gate.Compatible i mode →
      LeaseStep proc s (.lock i) (s.put i (.sessionTry mode) (some mode) (s.session i))
  | gateRefused {s : LeaseState ι} {i : ι} {mode : LockMode} :
      s.pc i = .gateTry mode → LeaseStep proc s (.refused i) (s.goto i .dead)
  | sharedGranted {s : LeaseState ι} {i : ι} :
      s.pc i = .sessionTry .shared → s.session.Compatible i .shared →
      LeaseStep proc s (.lock i) (s.put i .gateDrop (s.gate i) (some .shared))
  | exclusiveGranted {s : LeaseState ι} {i : ι} :
      s.pc i = .sessionTry .exclusive → s.session.Compatible i .exclusive →
      LeaseStep proc s (.lock i) (s.put i (.ready .exclusive) (s.gate i) (some .exclusive))
  | sessionRefused {s : LeaseState ι} {i : ι} {mode : LockMode} :
      s.pc i = .sessionTry mode → LeaseStep proc s (.refused i) (s.goto i .dead)
  | gateDropped {s : LeaseState ι} {i : ι} :
      s.pc i = .gateDrop →
      LeaseStep proc s (.lock i) (s.put i (.ready .shared) none (s.session i))
  | gateDropFailed {s : LeaseState ι} {i : ι} :
      s.pc i = .gateDrop → LeaseStep proc s (.refused i) (s.goto i .dead)
  -- `exclusively`, line by line
  | exclusively {s : LeaseState ι} {i : ι} :
      s.pc i = .ready .shared → LeaseStep proc s (.exclusively i) (s.goto i .upgradeGate)
  | misuse {s : LeaseState ι} {i : ι} :
      (∃ mode, s.pc i = .ready mode) ∨ s.pc i = .operating ∨ s.pc i = .broken →
      LeaseStep proc s (.misuse i) s
  | upgradeGateGranted {s : LeaseState ι} {i : ι} :
      s.pc i = .upgradeGate → s.gate.Compatible i .exclusive →
      LeaseStep proc s (.lock i) (s.put i .upgradeUnlock (some .exclusive) (s.session i))
  | upgradeGateBusy {s : LeaseState ι} {i : ι} :
      s.pc i = .upgradeGate → ¬ s.gate.Compatible i .exclusive →
      LeaseStep proc s (.exit i .busy) (s.goto i (.ready .shared))
  | upgradeGateFailed {s : LeaseState ι} {i : ι} :
      s.pc i = .upgradeGate → LeaseStep proc s (.exit i .lockThrew) (s.goto i (.ready .shared))
  | upgradeUnlocked {s : LeaseState ι} {i : ι} :
      s.pc i = .upgradeUnlock →
      LeaseStep proc s (.lock i) (s.put i .upgradeSession (s.gate i) none)
  | upgradeUnlockFailed {s : LeaseState ι} {i : ι} :
      s.pc i = .upgradeUnlock →
      LeaseStep proc s (.lock i) (s.goto i (.restoreSession .lockThrew))
  | upgradeSessionGranted {s : LeaseState ι} {i : ι} :
      s.pc i = .upgradeSession → s.session.Compatible i .exclusive →
      LeaseStep proc s (.lock i) (s.put i .operating (s.gate i) (some .exclusive))
  | upgradeSessionBusy {s : LeaseState ι} {i : ι} :
      s.pc i = .upgradeSession → ¬ s.session.Compatible i .exclusive →
      LeaseStep proc s (.lock i) (s.goto i (.restoreSession .busy))
  | upgradeSessionFailed {s : LeaseState ι} {i : ι} :
      s.pc i = .upgradeSession →
      LeaseStep proc s (.lock i) (s.goto i (.restoreSession .lockThrew))
  | finish {s : LeaseState ι} {i : ι} {threw : Bool} :
      s.pc i = .operating →
      LeaseStep proc s (.finish i threw)
        (s.goto i (.restoreSession (if threw then .operationThrew else .published)))
  -- `restore`, line by line
  | restoreDropped {s : LeaseState ι} {i : ι} {exit : LeaseExit} :
      s.pc i = .restoreSession exit →
      LeaseStep proc s (.lock i) (s.put i (.restoreWait exit) (s.gate i) none)
  | restoreShared {s : LeaseState ι} {i : ι} {exit : LeaseExit} :
      s.pc i = .restoreWait exit → s.session.Compatible i .shared →
      LeaseStep proc s (.lock i) (s.put i (.restoreGate exit) (s.gate i) (some .shared))
  | restoreFailed {s : LeaseState ι} {i : ι} {exit : LeaseExit} :
      s.pc i = .restoreSession exit ∨ s.pc i = .restoreWait exit ∨ s.pc i = .restoreGate exit →
      LeaseStep proc s (.restoreError i) (s.goto i (.afterRestoreError exit))
  | restored {s : LeaseState ι} {i : ι} {exit : LeaseExit} :
      s.pc i = .restoreGate exit →
      LeaseStep proc s (.exit i exit) (s.put i (.ready .shared) none (s.session i))
  | unwound {s : LeaseState ι} {i : ι} :
      s.pc i = .unwinding → LeaseStep proc s (.exit i .restoreThrew) (s.goto i .broken)
  -- the end of a handle
  | close {s : LeaseState ι} {i : ι} :
      (∃ mode, s.pc i = .ready mode) ∨ s.pc i = .broken →
      LeaseStep proc s (.close i) (s.goto i .dead)
  | crash {s : LeaseState ι} {p : π} :
      LeaseStep proc s (.crash p)
        { s with pc := fun i => if proc i = p then .dead else s.pc i }
  | reapGate {s : LeaseState ι} {i : ι} :
      s.pc i = .dead → LeaseStep proc s (.reap i) (s.put i .dead none (s.session i))
  | reapSession {s : LeaseState ι} {i : ι} :
      s.pc i = .dead → LeaseStep proc s (.reap i) (s.put i .dead (s.gate i) none)

/-! ## What a handle holds -/

/-- The locks (gate, session) a handle holds at each point of the code. A handle
that is gone may still hold anything, until the kernel has closed its files. -/
def Locks (gate session : Option LockMode) : LeasePc → Prop
  | .fresh | .gateTry _ => gate = none ∧ session = none
  | .sessionTry mode => gate = some mode ∧ session = none
  | .gateDrop => gate = some .shared ∧ session = some .shared
  | .ready .shared | .upgradeGate => gate = none ∧ session = some .shared
  | .ready .exclusive | .operating => gate = some .exclusive ∧ session = some .exclusive
  | .upgradeUnlock => gate = some .exclusive ∧ session = some .shared
  | .upgradeSession => gate = some .exclusive ∧ session = none
  -- the exclusive session lock is still there only when the operation ran
  | .restoreSession exit => gate = some .exclusive ∧
      (session = some .exclusive → exit = .published ∨ exit = .operationThrew)
  | .restoreWait _ => gate = some .exclusive ∧ session = none
  | .restoreGate _ => gate = some .exclusive ∧ session = some .shared
  | .unwinding | .broken => gate = some .exclusive
  | .dead => True

/-- The invariant of the machine. -/
structure LeaseState.Inv (s : LeaseState ι) : Prop where
  gate : s.gate.WF
  session : s.session.WF
  locks : ∀ i, Locks (s.gate i) (s.session i) (s.pc i)

omit [DecidableEq ι] in
theorem LeaseState.initial_inv : (LeaseState.initial : LeaseState ι).Inv where
  gate := LockTable.empty_wf
  session := LockTable.empty_wf
  locks _ := ⟨rfl, rfl⟩

/-- What one step may do to handle `i`: its locks change as the lock files admit,
and they are the ones its new place in the code asks for. -/
structure LeaseState.Moves (s : LeaseState ι) (i : ι) (pc : LeasePc)
    (gate session : Option LockMode) : Prop where
  gateAdmits : s.gate.Admits i gate
  sessionAdmits : s.session.Admits i session
  locks : Locks gate session pc

theorem LeaseState.Inv.put {s : LeaseState ι} (h : s.Inv) {i : ι} {pc : LeasePc}
    {gate session : Option LockMode} (hm : s.Moves i pc gate session) :
    (s.put i pc gate session).Inv where
  gate := h.gate.update hm.gateAdmits
  session := h.session.update hm.sessionAdmits
  locks j := by
    by_cases hji : j = i
    · subst hji
      simpa [LeaseState.put] using hm.locks
    · simpa [LeaseState.put, hji] using h.locks j

omit [DecidableEq ι] in
theorem LeaseState.Moves.goto {s : LeaseState ι} {i : ι} {pc : LeasePc}
    (hlocks : Locks (s.gate i) (s.session i) pc) :
    s.Moves i pc (s.gate i) (s.session i) :=
  ⟨.keep s.gate i, .keep s.session i, hlocks⟩

omit [DecidableEq ι] in
theorem LeaseState.Inv.locksAt {s : LeaseState ι} (h : s.Inv) {i : ι} {pc : LeasePc}
    (hpc : s.pc i = pc) : Locks (s.gate i) (s.session i) pc :=
  hpc ▸ h.locks i

omit [DecidableEq ι] in
/-- Wherever `restore` fails, the gate is still held, and when it is run again
the session lock is not the exclusive one. -/
theorem LeaseState.Inv.afterRestoreError {s : LeaseState ι} (h : s.Inv) {i : ι}
    {exit : LeaseExit}
    (hpc : s.pc i = .restoreSession exit ∨ s.pc i = .restoreWait exit ∨
      s.pc i = .restoreGate exit) :
    Locks (s.gate i) (s.session i) (.afterRestoreError exit) := by
  have hgate : s.gate i = some .exclusive := by
    rcases hpc with hpc | hpc | hpc <;> exact (h.locksAt hpc).1
  have hsession : exit = .busy → s.session i ≠ some .exclusive := by
    rintro rfl hex
    rcases hpc with hpc | hpc | hpc
    · simpa using (h.locksAt hpc).2 hex
    · simp [(h.locksAt hpc).2] at hex
    · simp [(h.locksAt hpc).2] at hex
  cases exit with
  | busy => exact ⟨hgate, fun hex => absurd hex (hsession rfl)⟩
  | published | operationThrew | lockThrew | restoreThrew => exact hgate

/-- **The step lemma**: a step moves one handle, changes nothing, or ends a
process. -/
theorem LeaseStep.moves {proc : ι → π} {s s' : LeaseState ι} {e : LeaseEvent ι π}
    (hs : LeaseStep proc s e s') (h : s.Inv) :
    (∃ i pc gate session, s' = s.put i pc gate session ∧ s.Moves i pc gate session) ∨
    s' = s ∨ ∃ p, s' = { s with pc := fun i => if proc i = p then .dead else s.pc i } := by
  cases hs with
  | misuse => exact .inr (.inl rfl)
  | crash => exact .inr (.inr ⟨_, rfl⟩)
  | gateRefused | sessionRefused | gateDropFailed | close =>
    exact .inl ⟨_, _, _, _, rfl, .goto trivial⟩
  | reapGate => exact .inl ⟨_, _, _, _, rfl, .release _ _, .keep _ _, trivial⟩
  | reapSession => exact .inl ⟨_, _, _, _, rfl, .keep _ _, .release _ _, trivial⟩
  | acquire hpc | exclusively hpc | upgradeGateFailed hpc | unwound hpc =>
    exact .inl ⟨_, _, _, _, rfl, .goto (h.locksAt hpc :)⟩
  | upgradeGateBusy hpc _ => exact .inl ⟨_, _, _, _, rfl, .goto (h.locksAt hpc :)⟩
  | gateGranted hpc hc | upgradeGateGranted hpc hc =>
    -- the kernel grants a lock that is compatible with the others' (`hc`)
    exact .inl ⟨_, _, _, _, rfl, .grant hc, .keep _ _, rfl, (h.locksAt hpc).2⟩
  | sharedGranted hpc hc | exclusiveGranted hpc hc | upgradeSessionGranted hpc hc
  | restoreShared hpc hc =>
    exact .inl ⟨_, _, _, _, rfl, .keep _ _, .grant hc, (h.locksAt hpc).1, rfl⟩
  | gateDropped hpc | restored hpc =>
    exact .inl ⟨_, _, _, _, rfl, .release _ _, .keep _ _, rfl, (h.locksAt hpc).2⟩
  | upgradeUnlocked hpc | restoreDropped hpc =>
    exact .inl ⟨_, _, _, _, rfl, .keep _ _, .release _ _, (h.locksAt hpc).1, rfl⟩
  | upgradeUnlockFailed hpc | upgradeSessionFailed hpc =>
    have hl := h.locksAt hpc
    exact .inl ⟨_, _, _, _, rfl, .goto ⟨hl.1, by simp [hl.2]⟩⟩
  | upgradeSessionBusy hpc _ =>
    have hl := h.locksAt hpc
    exact .inl ⟨_, _, _, _, rfl, .goto ⟨hl.1, by simp [hl.2]⟩⟩
  | @finish i threw hpc =>
    -- the operation returned or threw; the locks are given back either way
    have hl := h.locksAt hpc
    refine .inl ⟨_, _, _, _, rfl, .goto ⟨hl.1, fun _ => ?_⟩⟩
    cases threw
    · exact .inl rfl
    · exact .inr rfl
  | restoreFailed hpc => exact .inl ⟨_, _, _, _, rfl, .goto (h.afterRestoreError hpc)⟩

theorem LeaseState.Inv.step {proc : ι → π} {s s' : LeaseState ι} {e : LeaseEvent ι π}
    (h : s.Inv) (hs : LeaseStep proc s e s') : s'.Inv := by
  rcases hs.moves h with ⟨i, pc, gate, session, rfl, hm⟩ | rfl | ⟨p, rfl⟩
  · exact h.put hm
  · exact h
  · refine ⟨h.gate, h.session, fun i => ?_⟩
    by_cases hp : proc i = p
    · simp [hp, Locks]
    · simpa [hp] using h.locks i

/-- **The run lemma**: on every schedule, with crashes anywhere, every handle
holds exactly the locks its place in the code asks for. -/
theorem LeaseState.run_inv {proc : ι → π} {events : List (LeaseEvent ι π)}
    {s : LeaseState ι} (hrun : Run (LeaseStep proc) LeaseState.initial events s) : s.Inv :=
  hrun.invariant (I := LeaseState.Inv) (fun _ _ _ h hs => h.step hs) LeaseState.initial_inv

end MsimeLinux

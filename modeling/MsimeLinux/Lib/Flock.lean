import Mathlib.Logic.Function.Basic
import Mathlib.Tactic.Common

/-!
# Advisory whole-file locks

One lock file, as `flock` sees it: every open file description holds no lock, a
shared one or the exclusive one. A request is *compatible* when no other
description stands in its way; a table is *well formed* when whoever holds the
exclusive lock holds the only one. Converting a lock is not atomic: the kernel
removes the old one first, so a conversion is a release followed by a request.

The one rule a user needs is `WF.update`: a description may keep its lock, drop
it, or take one its request was compatible with.
-/

namespace Lib

universe u

/-- The kind of a lock: `LOCK_SH` or `LOCK_EX`. -/
inductive LockMode where
  | shared
  | exclusive
  deriving DecidableEq, Repr

/-- What each open file description holds of one lock file. -/
abbrev LockTable (ι : Type u) := ι → Option LockMode

namespace LockTable

variable {ι : Type u}

/-- A file nobody has locked. -/
def empty : LockTable ι := fun _ => none

/-- No other description keeps `i` from a lock of mode `m`: shared goes with
shared, exclusive with nothing. -/
def Compatible (t : LockTable ι) (i : ι) : LockMode → Prop
  | .shared => ∀ j, j ≠ i → t j ≠ some .exclusive
  | .exclusive => ∀ j, j ≠ i → t j = none

/-- The exclusive lock excludes every other lock. -/
def WF (t : LockTable ι) : Prop :=
  ∀ i j, t i = some .exclusive → j ≠ i → t j = none

/-- The locks `i` may find itself with after one operation on the file. -/
def Admits (t : LockTable ι) (i : ι) (l : Option LockMode) : Prop :=
  l = t i ∨ l = none ∨ ∃ m, l = some m ∧ t.Compatible i m

theorem empty_wf : (empty : LockTable ι).WF := by
  intro i j h
  simp [empty] at h

theorem Admits.keep (t : LockTable ι) (i : ι) : t.Admits i (t i) := .inl rfl

theorem Admits.release (t : LockTable ι) (i : ι) : t.Admits i none := .inr (.inl rfl)

theorem Admits.grant {t : LockTable ι} {i : ι} {m : LockMode} (h : t.Compatible i m) :
    t.Admits i (some m) :=
  .inr (.inr ⟨m, rfl, h⟩)

/-- The exclusive lock leaves nothing compatible for anyone else. -/
theorem WF.not_compatible {t : LockTable ι} {i j : ι} (h : t i = some .exclusive)
    (hji : j ≠ i) (m : LockMode) : ¬ t.Compatible j m := by
  intro hc
  cases m with
  | shared => exact hc i hji.symm h
  | exclusive => exact absurd (hc i hji.symm) (by simp [h])

/-- Whoever shares the lock keeps everybody else from having it alone. -/
theorem WF.not_exclusive {t : LockTable ι} (hwf : t.WF) {i j : ι} {m : LockMode}
    (h : t i = some m) (hji : j ≠ i) : t j ≠ some .exclusive := by
  intro hj
  have := hwf j i hj hji.symm
  simp [h] at this

variable [DecidableEq ι]

/-- **The rule of the lock file**: keeping, dropping and taking a compatible lock
all leave the table well formed. -/
theorem WF.update {t : LockTable ι} (hwf : t.WF) {i : ι} {l : Option LockMode}
    (hl : t.Admits i l) : WF (Function.update t i l) := by
  -- what `i` ends up with never conflicts with a third party's lock
  have hmine : ∀ j, j ≠ i → l = some .exclusive → t j = none := by
    intro j hji hex
    rcases hl with hkeep | hnone | ⟨m, hm, hc⟩
    · exact hwf i j (hkeep ▸ hex) hji
    · simp [hnone] at hex
    · obtain rfl : m = .exclusive := Option.some.inj (hm.symm.trans hex)
      exact hc j hji
  have htheirs : ∀ j, j ≠ i → t j = some .exclusive → l = none := by
    intro j hji hex
    rcases hl with hkeep | hnone | ⟨m, _, hc⟩
    · rw [hkeep]
      exact hwf j i hex hji.symm
    · exact hnone
    · cases m with
      | shared => exact absurd hex (hc j hji)
      | exclusive => simp [hc j hji] at hex
  intro a b ha hba
  by_cases hai : a = i
  · subst hai
    rw [Function.update_self] at ha
    rw [Function.update_of_ne hba]
    exact hmine b hba ha
  · rw [Function.update_of_ne hai] at ha
    by_cases hbi : b = i
    · subst hbi
      rw [Function.update_self]
      exact htheirs a hai ha
    · rw [Function.update_of_ne hbi]
      exact hwf a b ha hba

end LockTable

end Lib

import Mathlib.Tactic.Common

/-!
# A value kept twice

A value is shared, and one party keeps a copy of its own. Others write the shared one; the
party writes its copy and, some time later, *writes it back* whole, or it *adopts* the shared
one, whichever comes first. Neither looks whether the other side has changed.

- `Copies.Kept`: the value of the last write is on the side that was written last, and on the
  other one too, once the two were made the same.
- `Copies.Kept.step_iff`: so it stays, if and only if the step is `Safe`.
-/

namespace Lib

universe u

/-- One of the two copies. -/
inductive Side where
  | shared
  | own
  deriving DecidableEq

/-- The two copies, what was written last, and to which of them, since they were last made the
same. -/
structure Copies (α : Type u) where
  shared : α
  own : α
  last : α
  ahead : Option Side := none

/-- What happens to the copies. -/
inductive CopyStep (α : Type u) where
  | share (value : α)
  | write (value : α)
  | writeBack
  | adopt

namespace Copies

variable {α : Type u} {c : Copies α}

/-- A write that changes nothing is none. -/
def step [DecidableEq α] (c : Copies α) : CopyStep α → Copies α
  | .share value =>
    if value = c.shared then c else { c with shared := value, last := value, ahead := some .shared }
  | .write value =>
    if value = c.own then c else { c with own := value, last := value, ahead := some .own }
  | .writeBack => { c with shared := c.own, ahead := none }
  | .adopt => { c with own := c.shared, ahead := none }

section

variable [DecidableEq α] (c) (value : α)

@[simp] theorem step_share_shared : (c.step (.share value)).shared = value := by
  unfold step
  dsimp only
  split
  · next heq => exact heq.symm
  · rfl

@[simp] theorem step_share_own : (c.step (.share value)).own = c.own := by
  unfold step
  dsimp only
  split <;> rfl

theorem step_share_ahead (h : c.ahead ≠ some .own) : (c.step (.share value)).ahead ≠ some .own := by
  unfold step
  dsimp only
  split
  · exact h
  · exact nofun

@[simp] theorem step_write_own : (c.step (.write value)).own = value := by
  unfold step
  dsimp only
  split
  · next heq => exact heq.symm
  · rfl

@[simp] theorem step_write_shared : (c.step (.write value)).shared = c.shared := by
  unfold step
  dsimp only
  split <;> rfl

end

/-- Two copies of one value. -/
def same (value : α) : Copies α where
  shared := value
  own := value
  last := value

/-- The last write is not written over, or it would make no difference. -/
def Safe (c : Copies α) : CopyStep α → Prop
  | .share _ | .write _ => True
  | .writeBack => c.ahead = some .shared → c.shared = c.own
  | .adopt => c.ahead = some .own → c.shared = c.own

instance Safe.decidable [DecidableEq α] (c : Copies α) :
    (s : CopyStep α) → Decidable (c.Safe s)
  | .share _ | .write _ => isTrue trivial
  | .writeBack => inferInstanceAs (Decidable (c.ahead = some .shared → c.shared = c.own))
  | .adopt => inferInstanceAs (Decidable (c.ahead = some .own → c.shared = c.own))

/-- The value of the last write is where it was written, and not only there unless that side is
ahead. -/
structure Kept (c : Copies α) : Prop where
  own : c.ahead ≠ some .shared → c.own = c.last
  shared : c.ahead ≠ some .own → c.shared = c.last

theorem Kept.same (value : α) : (Copies.same value).Kept where
  own _ := rfl
  shared _ := rfl

/-- Writing back loses the last write, if that was to the shared copy. -/
theorem Kept.own_eq_last_iff (h : c.Kept) :
    c.own = c.last ↔ (c.ahead = some .shared → c.shared = c.own) := by
  by_cases hahead : c.ahead = some .shared
  · have hshared : c.shared = c.last := h.shared (by rw [hahead]; exact nofun)
    rw [← hshared]
    exact ⟨fun heq _ => heq.symm, fun heq => (heq hahead).symm⟩
  · exact ⟨fun _ hsame => absurd hsame hahead, fun _ => h.own hahead⟩

/-- Adopting loses it, if it was to the own one. -/
theorem Kept.shared_eq_last_iff (h : c.Kept) :
    c.shared = c.last ↔ (c.ahead = some .own → c.shared = c.own) := by
  by_cases hahead : c.ahead = some .own
  · have hown : c.own = c.last := h.own (by rw [hahead]; exact nofun)
    rw [← hown]
    exact ⟨fun heq _ => heq, fun heq => heq hahead⟩
  · exact ⟨fun _ hsame => absurd hsame hahead, fun _ => h.shared hahead⟩

/-- **A step keeps the last write if and only if it is safe.** -/
theorem Kept.step_iff [DecidableEq α] (h : c.Kept) (s : CopyStep α) :
    (c.step s).Kept ↔ c.Safe s := by
  cases s with
  | share value =>
    refine iff_of_true ?_ trivial
    unfold Copies.step
    dsimp only
    split
    · exact h
    · exact ⟨fun hahead => absurd rfl hahead, fun _ => rfl⟩
  | write value =>
    refine iff_of_true ?_ trivial
    unfold Copies.step
    dsimp only
    split
    · exact h
    · exact ⟨fun _ => rfl, fun hahead => absurd rfl hahead⟩
  | writeBack =>
    constructor
    · intro hkept
      exact h.own_eq_last_iff.mp (hkept.own nofun)
    · intro hsafe
      have hown := h.own_eq_last_iff.mpr hsafe
      exact ⟨fun _ => hown, fun _ => hown⟩
  | adopt =>
    constructor
    · intro hkept
      exact h.shared_eq_last_iff.mp (hkept.shared nofun)
    · intro hsafe
      have hshared := h.shared_eq_last_iff.mpr hsafe
      exact ⟨fun _ => hshared, fun _ => hshared⟩

end Copies

end Lib

import Mathlib.Logic.Function.Basic
import Mathlib.Tactic.Common

/-!
# A list of changes that can be taken back

A store keeps a value, or none, in each of its slots, and a write to a slot may
fail and leave anything there. A *change* names a slot, what it is to hold, and
what it held before the first change. `applyChanges` makes the changes one after
the other and stops at the first that fails; `undoChanges` writes the previous
values back, the last change first.

- `undoChanges_restores`: if every write of the undoing succeeds, the store holds
  what it held before, wherever the changes stopped and whatever the failed one left.
- `applyChanges_value`, `applyChanges_frame`: if every change succeeds, every slot
  holds what it was to hold, and the slots no change names hold what they held.
-/

namespace Lib

universe u v

/-- A store: what each slot holds. -/
abbrev Slots (κ : Type u) (V : Type v) := κ → Option V

/-- What becomes of a write. -/
inductive Reply (V : Type v) where
  | done
  /-- it reports a failure and leaves something in the slot -/
  | failed (left : Option V)

/-- A change of one slot; `none` is an erasure. -/
structure Change (κ : Type u) (V : Type v) where
  slot : κ
  value : Option V
  previous : Option V

/-- How far a list of changes got. -/
structure Applied (κ : Type u) (V : Type v) where
  slots : Slots κ V
  /-- the changes that were tried, the one that failed among them -/
  attempted : List (Change κ V)
  ok : Bool

variable {κ : Type u} {V : Type v} [DecidableEq κ] {reply : κ → Reply V}
  {slots start : Slots κ V} {changes attempted : List (Change κ V)} {k : κ}

/-- What a write leaves in its slot. -/
def Reply.left (value : Option V) : Reply V → Option V
  | done => value
  | failed left => left

def Reply.isDone : Reply V → Bool
  | done => true
  | failed _ => false

/-- A write of `value` to the slot `k`. -/
def Slots.write (slots : Slots κ V) (reply : Reply V) (k : κ) (value : Option V) : Slots κ V :=
  Function.update slots k (reply.left value)

/-- The changes, one after the other, up to the first that fails. -/
def applyChanges (reply : κ → Reply V) : List (Change κ V) → Slots κ V → Applied κ V
  | [], slots => ⟨slots, [], true⟩
  | c :: changes, slots =>
    let after := slots.write (reply c.slot) c.slot c.value
    if (reply c.slot).isDone then
      let rest := applyChanges reply changes after
      { rest with attempted := c :: rest.attempted }
    else ⟨after, [c], false⟩

/-- The previous values, the last change first; whether every write succeeded. -/
def undoChanges (reply : κ → Reply V) : List (Change κ V) → Slots κ V → Slots κ V × Bool
  | [], slots => (slots, true)
  | c :: attempted, slots =>
    let (after, ok) := undoChanges reply attempted slots
    (after.write (reply c.slot) c.slot c.previous, (reply c.slot).isDone && ok)

theorem Slots.write_self (slots : Slots κ V) (r : Reply V) (k : κ) (value : Option V) :
    slots.write r k value k = r.left value :=
  Function.update_self ..

theorem Slots.write_of_ne (slots : Slots κ V) (r : Reply V) {k k' : κ} (h : k' ≠ k)
    (value : Option V) : slots.write r k value k' = slots k' :=
  Function.update_of_ne h ..

/-- What a slot can hold after a write. -/
theorem Slots.write_slot (slots : Slots κ V) (r : Reply V) (k k' : κ) (value : Option V) :
    slots.write r k value k' = slots k' ∨
      k = k' ∧ (slots.write r k value k' = value ∨ r = .failed (slots.write r k value k')) := by
  by_cases h : k' = k
  · subst h
    rw [Slots.write_self]
    cases r with
    | done => exact .inr ⟨rfl, .inl rfl⟩
    | failed left => exact .inr ⟨rfl, .inr rfl⟩
  · exact .inl (Slots.write_of_ne _ _ h _)

theorem Reply.left_of_isDone {r : Reply V} (h : r.isDone = true) (value : Option V) :
    r.left value = value := by
  cases r with
  | done => rfl
  | failed _ => cases h

/-! ## Making the changes -/

/-- Only what is in the list is tried. -/
theorem applyChanges_attempted {c : Change κ V}
    (h : c ∈ (applyChanges reply changes slots).attempted) : c ∈ changes := by
  induction changes generalizing slots with
  | nil => exact absurd h List.not_mem_nil
  | cons d changes ih =>
    rw [applyChanges] at h
    split at h
    · rcases List.mem_cons.mp h with rfl | h
      · exact List.mem_cons_self
      · exact List.mem_cons_of_mem _ (ih h)
    · rw [List.mem_singleton.mp h]
      exact List.mem_cons_self

/-- A slot that no change names keeps its value. -/
theorem applyChanges_frame (h : ∀ c ∈ (applyChanges reply changes slots).attempted, c.slot ≠ k) :
    (applyChanges reply changes slots).slots k = slots k := by
  induction changes generalizing slots with
  | nil => rfl
  | cons d changes ih =>
    rw [applyChanges] at h ⊢
    split
    · next hdone =>
      rw [if_pos hdone] at h
      have hd : d.slot ≠ k := h d List.mem_cons_self
      show (applyChanges reply changes _).slots k = slots k
      rw [ih fun c hc => h c (List.mem_cons_of_mem _ hc)]
      exact slots.write_of_ne _ hd.symm _
    · next hfailed =>
      rw [if_neg hfailed] at h
      exact slots.write_of_ne _ (h d List.mem_cons_self).symm _

/-- When none fails, all were tried. -/
theorem applyChanges_all (h : (applyChanges reply changes slots).ok = true) :
    (applyChanges reply changes slots).attempted = changes := by
  induction changes generalizing slots with
  | nil => rfl
  | cons d changes ih =>
    rw [applyChanges] at h ⊢
    split
    · next hdone =>
      rw [if_pos hdone] at h
      show d :: (applyChanges reply changes _).attempted = d :: changes
      rw [ih h]
    · next hfailed =>
      rw [if_neg hfailed] at h
      cases h

/-- **What the changes make of the store**, when none fails and no two are about the
same slot. -/
theorem applyChanges_value (hslots : (changes.map Change.slot).Nodup)
    (h : (applyChanges reply changes slots).ok = true) {c : Change κ V} (hc : c ∈ changes) :
    (applyChanges reply changes slots).slots c.slot = c.value := by
  induction changes generalizing slots with
  | nil => exact absurd hc List.not_mem_nil
  | cons d changes ih =>
    obtain ⟨hd, hrest⟩ := List.nodup_cons.mp hslots
    rw [applyChanges] at h ⊢
    split
    · next hdone =>
      rw [if_pos hdone] at h
      show (applyChanges reply changes _).slots c.slot = c.value
      rcases List.mem_cons.mp hc with rfl | hc
      · -- nothing later in the list touches the slot again
        rw [applyChanges_frame, slots.write_self, Reply.left_of_isDone hdone]
        intro e he heq
        exact hd (heq ▸ List.mem_map_of_mem (applyChanges_attempted he))
      · exact ih hrest h hc
    · next hfailed =>
      rw [if_neg hfailed] at h
      cases h

/-- What a slot can hold after changes: what it held, what one of them writes, or what
a write that failed has left. -/
theorem applyChanges_slot (reply : κ → Reply V) (changes : List (Change κ V))
    (slots : Slots κ V) (k : κ) :
    (applyChanges reply changes slots).slots k = slots k ∨
      (∃ c ∈ changes, c.slot = k ∧ (applyChanges reply changes slots).slots k = c.value) ∨
      reply k = .failed ((applyChanges reply changes slots).slots k) := by
  induction changes generalizing slots with
  | nil => exact .inl rfl
  | cons d changes ih =>
    have hwrite := slots.write_slot (reply d.slot) d.slot k d.value
    rw [applyChanges]
    split
    · -- the write counts where nothing later touches the slot
      show (applyChanges reply changes _).slots k = slots k ∨
        (∃ c ∈ d :: changes, c.slot = k ∧ (applyChanges reply changes _).slots k = c.value) ∨
        reply k = .failed ((applyChanges reply changes _).slots k)
      rcases ih (slots.write (reply d.slot) d.slot d.value) with h | ⟨c, hc, hslot, h⟩ | h
      · rw [h]
        rcases hwrite with hkept | ⟨hslot, hvalue | hleft⟩
        · exact .inl hkept
        · exact .inr (.inl ⟨d, List.mem_cons_self, hslot, hvalue⟩)
        · exact .inr (.inr (hslot ▸ hleft))
      · exact .inr (.inl ⟨c, List.mem_cons_of_mem _ hc, hslot, h⟩)
      · exact .inr (.inr h)
    · rcases hwrite with hkept | ⟨hslot, hvalue | hleft⟩
      · exact .inl hkept
      · exact .inr (.inl ⟨d, List.mem_cons_self, hslot, hvalue⟩)
      · exact .inr (.inr (hslot ▸ hleft))

/-! ## Taking them back -/

/-- Undoing succeeds where every write does. -/
theorem undoChanges_done (h : ∀ k, (reply k).isDone = true) (attempted : List (Change κ V))
    (slots : Slots κ V) : (undoChanges reply attempted slots).2 = true := by
  induction attempted with
  | nil => rfl
  | cons c attempted ih =>
    rw [undoChanges]
    dsimp only
    rw [h, ih]
    rfl

/-- What undoing makes of one slot. -/
theorem undoChanges_slot (hprevious : ∀ c ∈ attempted, c.previous = start c.slot)
    (h : (undoChanges reply attempted slots).2 = true) (k : κ) :
    (undoChanges reply attempted slots).1 k =
      if k ∈ attempted.map Change.slot then start k else slots k := by
  induction attempted with
  | nil => rfl
  | cons c attempted ih =>
    obtain ⟨hdone, hrest⟩ := Bool.and_eq_true_iff.mp h
    show ((undoChanges reply attempted slots).1.write _ c.slot c.previous) k = _
    by_cases hk : k = c.slot
    · subst hk
      rw [Slots.write_self, Reply.left_of_isDone hdone, hprevious c List.mem_cons_self,
        if_pos (by simp)]
    · rw [Slots.write_of_ne _ _ hk, ih (fun d hd => hprevious d (List.mem_cons_of_mem _ hd)) hrest]
      simp [hk]

/-- And after they were taken back. -/
theorem undoChanges_slot_cases (reply : κ → Reply V) (attempted : List (Change κ V))
    (slots : Slots κ V) (k : κ) :
    (undoChanges reply attempted slots).1 k = slots k ∨
      (∃ c ∈ attempted, c.slot = k ∧ (undoChanges reply attempted slots).1 k = c.previous) ∨
      reply k = .failed ((undoChanges reply attempted slots).1 k) := by
  induction attempted with
  | nil => exact .inl rfl
  | cons d attempted ih =>
    have hwrite :=
      (undoChanges reply attempted slots).1.write_slot (reply d.slot) d.slot k d.previous
    rw [undoChanges]
    dsimp only
    rcases hwrite with hkept | ⟨hslot, hvalue | hleft⟩
    · rw [hkept]
      rcases ih with h | ⟨c, hc, hslot, h⟩ | h
      · exact .inl h
      · exact .inr (.inl ⟨c, List.mem_cons_of_mem _ hc, hslot, h⟩)
      · exact .inr (.inr h)
    · exact .inr (.inl ⟨d, List.mem_cons_self, hslot, hvalue⟩)
    · exact .inr (.inr (hslot ▸ hleft))

/-- **Undoing restores the store**, when it has the values of before and none of its
writes fails: also where two changes name the same slot. -/
theorem undoChanges_restores (reply undo : κ → Reply V)
    (hprevious : ∀ c ∈ changes, c.previous = slots c.slot)
    (h : (undoChanges undo (applyChanges reply changes slots).attempted
      (applyChanges reply changes slots).slots).2 = true) :
    (undoChanges undo (applyChanges reply changes slots).attempted
      (applyChanges reply changes slots).slots).1 = slots := by
  funext k
  rw [undoChanges_slot (fun c hc => hprevious c (applyChanges_attempted hc)) h k]
  split
  · rfl
  · next hk =>
    refine applyChanges_frame ?_
    intro c hc hslot
    exact hk (hslot ▸ List.mem_map_of_mem hc)

end Lib

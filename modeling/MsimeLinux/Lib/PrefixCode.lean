import Mathlib.Tactic.Common

/-!
# Encodings that end by themselves

What `f` writes can be told from whatever follows it. Then things that are written one after
the other can be told apart, and so can sequences of them.
-/

namespace Lib

universe u v

variable {α : Type u} {β : Type v}

/-- Of the values `P` holds of, each can be told from what follows it. -/
def SelfDelimiting (P : α → Prop) (f : α → List β) : Prop :=
  ∀ ⦃a b : α⦄, P a → P b → ∀ ⦃s t : List β⦄, f a ++ s = f b ++ t → a = b ∧ s = t

namespace SelfDelimiting

variable {P : α → Prop} {f : α → List β}

/-- Codes of one length. -/
theorem of_length {n : Nat} (hlength : ∀ a, (f a).length = n)
    (hinj : ∀ a b, P a → P b → f a = f b → a = b) : SelfDelimiting P f := by
  intro a b ha hb s t h
  obtain ⟨hcode, hrest⟩ := List.append_inj h ((hlength a).trans (hlength b).symm)
  exact ⟨hinj a b ha hb hcode, hrest⟩

/-- A text behind its length. -/
theorem of_header {header : Nat → List β} {N : Nat}
    (h : SelfDelimiting (fun n => n < N) header) :
    SelfDelimiting (fun l : List β => l.length < N) fun l => header l.length ++ l := by
  intro a b ha hb s t heq
  rw [List.append_assoc, List.append_assoc] at heq
  obtain ⟨hlength, hrest⟩ := h ha hb heq
  exact List.append_inj hrest hlength

/-- **Sequences can be told apart.** -/
theorem flatMap (h : SelfDelimiting P f) (hne : ∀ a, f a ≠ []) {l l' : List α}
    (hl : ∀ a ∈ l, P a) (hl' : ∀ a ∈ l', P a) (heq : l.flatMap f = l'.flatMap f) : l = l' := by
  induction l generalizing l' with
  | nil =>
    cases l' with
    | nil => rfl
    | cons b l' => exact absurd (List.append_eq_nil_iff.mp heq.symm).1 (hne b)
  | cons a l ih =>
    cases l' with
    | nil => exact absurd (List.append_eq_nil_iff.mp heq).1 (hne a)
    | cons b l' =>
      obtain ⟨rfl, hrest⟩ := h (hl a List.mem_cons_self) (hl' b List.mem_cons_self) heq
      rw [ih (fun c hc => hl c (List.mem_cons_of_mem _ hc))
        (fun c hc => hl' c (List.mem_cons_of_mem _ hc)) hrest]

end SelfDelimiting

end Lib

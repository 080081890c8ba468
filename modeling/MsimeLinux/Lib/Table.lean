import Mathlib.Tactic.Common
import Mathlib.Data.List.Pairwise

/-!
# Tables with unique indexes

A table is the list of its rows. Its unique indexes are one function `keys`: the
keys a row takes, over all indexes that cover it. A row goes in when none of its
keys is taken. `leftJoin` is the left outer join of two tables.

- `insertRow_eq_some_iff`: when a row goes in.
- `mem_leftJoin`: what a left join contains.
-/

namespace Lib

universe u v w

variable {α : Type u} {β : Type v} {κ : Type w}

/-- Two rows that share no key. -/
def Apart (keys : α → List κ) (a b : α) : Prop := ∀ k ∈ keys a, k ∉ keys b

/-- Insert a row, unless one of its keys is taken. -/
def insertRow [DecidableEq κ] (keys : α → List κ) (table : List α) (row : α) :
    Option (List α) :=
  if table.any fun old => (keys old).any fun k => k ∈ keys row then none
  else some (table ++ [row])

theorem insertRow_eq_some_iff [DecidableEq κ] {keys : α → List κ} {table table' : List α}
    {row : α} :
    insertRow keys table row = some table' ↔
      (∀ old ∈ table, Apart keys old row) ∧ table' = table ++ [row] := by
  have htaken : (table.any fun old => (keys old).any fun k => k ∈ keys row) = true ↔
      ¬ ∀ old ∈ table, Apart keys old row := by
    simp [Apart]
  unfold insertRow
  by_cases hapart : ∀ old ∈ table, Apart keys old row
  · rw [if_neg fun h => htaken.mp h hapart]
    simp only [Option.some.injEq]
    exact ⟨fun h => ⟨hapart, h.symm⟩, fun h => h.2.symm⟩
  · rw [if_pos (htaken.mpr hapart)]
    simp [hapart]

/-- `left LEFT JOIN right ON on`: every left row with every right row it goes
with, or alone when there is none. -/
def leftJoin (on : α → β → Bool) (left : List α) (right : List β) : List (α × Option β) :=
  left.flatMap fun a =>
    match right.filter (on a) with
    | [] => [(a, none)]
    | b :: rest => (b :: rest).map fun b => (a, some b)

/-- Where the left row of a join stands on the right. -/
def JoinedWith (on : α → β → Bool) (right : List β) (a : α) : Option β → Prop
  | none => ∀ b ∈ right, on a b = false
  | some b => b ∈ right ∧ on a b = true

theorem mem_leftJoin {on : α → β → Bool} {left : List α} {right : List β} {a : α}
    {o : Option β} :
    (a, o) ∈ leftJoin on left right ↔ a ∈ left ∧ JoinedWith on right a o := by
  -- what one row of the left table contributes
  have hrow : ∀ a', (a, o) ∈ (match right.filter (on a') with
      | [] => [(a', none)]
      | b :: rest => (b :: rest).map fun b => (a', some b)) ↔
      a = a' ∧ JoinedWith on right a' o := by
    intro a'
    cases hmatching : right.filter (on a') with
    | nil =>
      have hnone : ∀ b ∈ right, on a' b = false := by
        simpa [List.filter_eq_nil_iff] using hmatching
      -- no match: the row stands there once, alone
      simp only [List.mem_singleton, Prod.mk.injEq]
      refine and_congr_right fun _ => ?_
      cases o with
      | none => simpa [JoinedWith] using hnone
      | some b =>
        simp only [reduceCtorEq, JoinedWith, false_iff]
        exact fun h => absurd h.2 (by simp [hnone b h.1])
    | cons b rest =>
      have hmem : ∀ c, c ∈ b :: rest ↔ c ∈ right ∧ on a' c = true := by
        intro c
        rw [← hmatching, List.mem_filter]
      -- a match: the row stands there with each of them, and never alone
      simp only [List.mem_map, Prod.mk.injEq]
      cases o with
      | none =>
        obtain ⟨hb, hon⟩ := (hmem b).mp List.mem_cons_self
        simp only [reduceCtorEq, and_false, exists_false, JoinedWith, false_iff, not_and]
        exact fun _ h => absurd hon (by simp [h b hb])
      | some c =>
        simp only [Option.some.injEq, JoinedWith]
        constructor
        · rintro ⟨d, hd, rfl, rfl⟩
          exact ⟨rfl, (hmem d).mp hd⟩
        · rintro ⟨rfl, h⟩
          exact ⟨c, (hmem c).mpr h, rfl, rfl⟩
  unfold leftJoin
  rw [List.mem_flatMap]
  constructor
  · rintro ⟨a', ha', hmem⟩
    obtain ⟨rfl, hjoined⟩ := (hrow a').mp hmem
    exact ⟨ha', hjoined⟩
  · rintro ⟨ha, hjoined⟩
    exact ⟨a, ha, (hrow a).mpr ⟨rfl, hjoined⟩⟩

end Lib

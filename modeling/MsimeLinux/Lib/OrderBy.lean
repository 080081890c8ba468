import Mathlib.Tactic.Common
import Mathlib.Data.List.Basic

/-!
# Sorting rows by a number

`orderBy key rows` sorts rows by `key` and leaves rows with equal keys in the
order they had, as `ORDER BY key, sequence` does when `sequence` numbers the rows
as they came in.

- `orderBy_eq_flatMap`: the result is the rows of one key after the other.
-/

namespace Lib

universe u v

variable {α : Type u} {β : Type v}

/-- Stable sort by a number. -/
def orderBy (key : α → Int) (rows : List α) : List α :=
  rows.mergeSort fun a b => key a ≤ key b

theorem orderBy_perm (key : α → Int) (rows : List α) : (orderBy key rows).Perm rows :=
  List.mergeSort_perm rows _

theorem orderBy_pairwise (key : α → Int) (rows : List α) :
    (orderBy key rows).Pairwise fun a b => key a ≤ key b := by
  have h : (orderBy key rows).Pairwise fun a b => decide (key a ≤ key b) = true :=
    List.pairwise_mergeSort
      (fun a b c hab hbc => by simp only [decide_eq_true_eq] at *; omega)
      (fun a b => by simp only [Bool.or_eq_true, decide_eq_true_eq]; omega) rows
  exact h.imp of_decide_eq_true

theorem map_orderBy {key : α → Int} {key' : β → Int} (f : α → β)
    (h : ∀ a, key a = key' (f a)) (rows : List α) :
    (orderBy key rows).map f = orderBy key' (rows.map f) := by
  refine List.map_mergeSort fun a _ b _ => ?_
  rw [h a, h b]

/-- Rows that are sorted stay as they are. -/
theorem orderBy_of_pairwise {key : α → Int} {rows : List α}
    (h : rows.Pairwise fun a b => key a ≤ key b) : orderBy key rows = rows :=
  List.mergeSort_of_pairwise (h.imp fun hab => decide_eq_true hab)

/-- Rows of one key keep their order. -/
theorem filter_orderBy (key : α → Int) (rows : List α) (k : Int) :
    (orderBy key rows).filter (key · = k) = rows.filter (key · = k) := by
  -- they are sorted as they stand, so they are still a sublist of the result
  have hsorted : (rows.filter (key · = k)).Pairwise
      fun a b => decide (key a ≤ key b) = true := by
    refine List.pairwise_of_forall_mem_list fun a ha b hb => ?_
    have ha := (List.mem_filter.mp ha).2
    have hb := (List.mem_filter.mp hb).2
    simp only [decide_eq_true_eq] at *
    omega
  have hsub : List.Sublist (rows.filter (key · = k)) (orderBy key rows) :=
    List.sublist_mergeSort
      (fun a b c hab hbc => by simp only [decide_eq_true_eq] at *; omega)
      (fun a b => by simp only [Bool.or_eq_true, decide_eq_true_eq]; omega)
      hsorted List.filter_sublist
  have hsub' := hsub.filter (key · = k)
  rw [List.filter_filter] at hsub'
  simp only [Bool.and_self] at hsub'
  exact (hsub'.eq_of_length ((orderBy_perm key rows).filter _).length_eq.symm).symm

/-- A sorted list is the rows of its first key, then the others. -/
theorem sorted_eq_append {key : α → Int} {rows : List α} {k : Int}
    (hsorted : rows.Pairwise fun a b => key a ≤ key b) (hmin : ∀ a ∈ rows, k ≤ key a) :
    rows = rows.filter (key · = k) ++ rows.filter (key · ≠ k) := by
  induction rows with
  | nil => rfl
  | cons a rows ih =>
    rw [List.pairwise_cons] at hsorted
    by_cases ha : key a = k
    · have hrest := ih hsorted.2 fun b hb => hmin b (List.mem_cons_of_mem _ hb)
      simp only [ha, decide_true, List.filter_cons_of_pos, ne_eq, not_true_eq_false,
        decide_false, Bool.false_eq_true, not_false_eq_true, List.filter_cons_of_neg,
        List.cons_append, List.cons.injEq, true_and]
      exact hrest
    · have hlt : ∀ b ∈ a :: rows, key b ≠ k := by
        have := hmin a List.mem_cons_self
        intro b hb
        rcases List.mem_cons.mp hb with rfl | hb
        · exact ha
        · have := hsorted.1 b hb
          omega
      rw [List.filter_eq_nil_iff.mpr (by simpa using hlt),
        List.filter_eq_self.mpr (by simpa using hlt), List.nil_append]

theorem sorted_eq_flatMap {key : α → Int} {rows : List α} {ks : List Int}
    (hsorted : rows.Pairwise fun a b => key a ≤ key b) (hks : ks.Pairwise (· < ·))
    (hmem : ∀ a ∈ rows, key a ∈ ks) : rows = ks.flatMap fun k => rows.filter (key · = k) := by
  induction ks generalizing rows with
  | nil =>
    have : rows = [] := List.eq_nil_iff_forall_not_mem.mpr fun a ha => by simpa using hmem a ha
    simp [this]
  | cons k ks ih =>
    rw [List.pairwise_cons] at hks
    have hmin : ∀ a ∈ rows, k ≤ key a := by
      intro a ha
      rcases List.mem_cons.mp (hmem a ha) with h | h
      · omega
      · have := hks.1 _ h
        omega
    have hothers : ∀ a ∈ rows.filter (key · ≠ k), key a ∈ ks := by
      intro a ha
      obtain ⟨ha, hne⟩ := List.mem_filter.mp ha
      exact (List.mem_cons.mp (hmem a ha)).resolve_left (by simpa using hne)
    have hrest := ih (hsorted.filter _) hks.2 hothers
    rw [List.flatMap_cons]
    refine (sorted_eq_append hsorted hmin).trans (congrArg _ (hrest.trans ?_))
    -- the rows of a later key are among the others
    refine List.flatMap_congr fun k' hk' => ?_
    rw [List.filter_filter]
    refine List.filter_congr fun a _ => ?_
    have := hks.1 k' hk'
    by_cases ha : key a = k'
    · simp [ha]
      omega
    · simp [ha]

/-- **The sorted rows**: those of the first key, then those of the second, and so
on, each in the order they had. -/
theorem orderBy_eq_flatMap {key : α → Int} {rows : List α} {ks : List Int}
    (hks : ks.Pairwise (· < ·)) (hmem : ∀ a ∈ rows, key a ∈ ks) :
    orderBy key rows = ks.flatMap fun k => rows.filter (key · = k) := by
  refine (sorted_eq_flatMap (orderBy_pairwise key rows) hks fun a ha => ?_).trans ?_
  · exact hmem a ((orderBy_perm key rows).mem_iff.mp ha)
  · exact List.flatMap_congr fun k _ => filter_orderBy key rows k

end Lib

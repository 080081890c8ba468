import Mathlib.Tactic.Common

/-!
# Runs of a labelled transition system

`Run step s ls t` is a finite run from `s` to `t` whose steps carry the labels
`ls`, in order. The rules are the ones a proof about runs is built from: runs
compose and split at any point, an invariant of single steps is an invariant of
runs, and it may use a condition that every label of the run satisfies. A schedule
of a function is run by `Guarded.run`.
-/

namespace Lib

universe u v

variable {S : Type u} {L : Type v} {step : S → L → S → Prop}

/-- A finite run, one label for each step. -/
inductive Run (step : S → L → S → Prop) : S → List L → S → Prop
  | nil (s : S) : Run step s [] s
  | cons {s t u : S} {l : L} {ls : List L} :
      step s l t → Run step t ls u → Run step s (l :: ls) u

namespace Run

theorem single {s t : S} {l : L} (h : step s l t) : Run step s [l] t :=
  .cons h (.nil t)

theorem append {s t u : S} {ls ms : List L} (h : Run step s ls t) (h' : Run step t ms u) :
    Run step s (ls ++ ms) u := by
  induction h with
  | nil _ => exact h'
  | cons hs _ ih => exact .cons hs (ih h')

theorem snoc {s t u : S} {l : L} {ls : List L} (h : Run step s ls t) (hs : step t l u) :
    Run step s (ls ++ [l]) u :=
  h.append (.single hs)

/-- A run over `ls ++ ms` passes through a state between the two parts. -/
theorem split {s u : S} {ls ms : List L} (h : Run step s (ls ++ ms) u) :
    ∃ t, Run step s ls t ∧ Run step t ms u := by
  induction ls generalizing s with
  | nil => exact ⟨s, .nil s, h⟩
  | cons l ls ih =>
    cases h with
    | cons hs hrest =>
      obtain ⟨t, hl, hm⟩ := ih hrest
      exact ⟨t, .cons hs hl, hm⟩

/-- **Invariant rule**, under a condition on the labels. -/
theorem invariantOn {I : S → Prop} {P : L → Prop}
    (hstep : ∀ s l t, I s → P l → step s l t → I t)
    {s t : S} {ls : List L} (h : Run step s ls t) (hP : ∀ l ∈ ls, P l) (hs : I s) : I t := by
  induction h with
  | nil _ => exact hs
  | cons hst _ ih =>
    exact ih (fun l hl => hP l (List.mem_cons_of_mem _ hl))
      (hstep _ _ _ hs (hP _ List.mem_cons_self) hst)

/-- **Invariant rule**: what every step preserves, every run preserves. -/
theorem invariant {I : S → Prop} (hstep : ∀ s l t, I s → step s l t → I t)
    {s t : S} {ls : List L} (h : Run step s ls t) (hs : I s) : I t :=
  h.invariantOn (P := fun _ => True) (fun s l t hI _ => hstep s l t hI) (fun _ _ => trivial) hs

/-- **History rule**: an invariant that may speak of the labels taken so far. -/
theorem history {I : List L → S → Prop}
    (hstep : ∀ before s l t, I before s → step s l t → I (before ++ [l]) t)
    {s t : S} {before ls : List L} (h : Run step s ls t) (hs : I before s) :
    I (before ++ ls) t := by
  induction h generalizing before with
  | nil _ => rwa [List.append_nil]
  | cons hst _ ih =>
    have := ih (hstep _ _ _ _ hs hst)
    rwa [List.append_assoc] at this

/-- **Counter rule**: what a step raises by one at most, a run raises by its length. -/
theorem counter_le (count : S → Nat) (hstep : ∀ s l t, step s l t → count t ≤ count s + 1)
    {s t : S} {ls : List L} (h : Run step s ls t) : count t ≤ count s + ls.length := by
  induction h with
  | nil _ => exact Nat.le_refl _
  | cons hst _ ih =>
    have hnext := hstep _ _ _ hst
    rw [List.length_cons]
    omega

/-- A counter of 64 bits tells two moments of a run apart as an unbounded one does, while the
steps are fewer than it has values. -/
theorem counter_uint64 (count : S → Nat) (hstep : ∀ s l t, step s l t → count t ≤ count s + 1)
    {s t u : S} {ls ms : List L} (h : Run step s ls t) (h' : Run step t ms u)
    (hfew : count s + ls.length + ms.length < UInt64.size) :
    UInt64.ofNat (count t) = UInt64.ofNat (count u) ↔ count t = count u := by
  have ht := h.counter_le count hstep
  have hu := h'.counter_le count hstep
  refine ⟨fun heq => ?_, congrArg UInt64.ofNat⟩
  have hfits : count t < UInt64.size ∧ count u < UInt64.size := by omega
  have hnat := congrArg UInt64.toNat heq
  rwa [UInt64.toNat_ofNat_of_lt' hfits.1, UInt64.toNat_ofNat_of_lt' hfits.2] at hnat

/-- Steps of a function that may refuse, taken one after another. -/
theorem of_foldlM {f : S → L → Option S} {s t : S} {ls : List L}
    (h : ls.foldlM f s = some t) : Run (fun s l t => f s l = some t) s ls t := by
  induction ls generalizing s with
  | nil =>
    cases h
    exact .nil _
  | cons l ls ih =>
    rw [List.foldlM_cons] at h
    obtain ⟨u, hu, hrest⟩ := Option.bind_eq_some_iff.mp h
    exact .cons hu (ih hrest)

end Run

/-! ## Schedules of a function -/

/-- Every step of a schedule meets a condition on the state it starts from. -/
def Guarded (f : S → L → S) (P : S → L → Prop) : S → List L → Prop
  | _, [] => True
  | s, l :: ls => P s l ∧ Guarded f P (f s l) ls

instance Guarded.decidable (f : S → L → S) (P : S → L → Prop) [∀ s l, Decidable (P s l)] :
    (s : S) → (ls : List L) → Decidable (Guarded f P s ls)
  | _, [] => isTrue trivial
  | s, l :: ls => @instDecidableAnd _ _ _ (Guarded.decidable f P (f s l) ls)

/-- A schedule whose steps meet a condition is a run of the steps that meet it. -/
theorem Guarded.run {f : S → L → S} {P : S → L → Prop} {s : S} {ls : List L}
    (h : Guarded f P s ls) : Run (fun s l t => P s l ∧ t = f s l) s ls (ls.foldl f s) := by
  induction ls generalizing s with
  | nil => exact .nil s
  | cons l ls ih => exact .cons ⟨h.1, rfl⟩ (ih h.2)

end Lib

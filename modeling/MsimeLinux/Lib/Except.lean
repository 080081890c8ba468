import Mathlib.Tactic.Common

/-!
# When a block that may throw returns

A `do` block in `Except` returns `a` when every guard lets it pass and every call
returns. The lemmas below turn such a statement into the conjunction it means,
one step of the block at a time; used as a simp set they read a whole block off.
`Throws P m` is about the other way a block ends: what it throws satisfies `P`.
-/

namespace Lib

universe u

variable {ε : Type u} {α β : Type}

theorem throw_eq_ok_iff {e : ε} {a : α} : (throw e : Except ε α) = .ok a ↔ False :=
  ⟨fun h => (by cases h), False.elim⟩

theorem pure_eq_ok_iff {a b : α} : (pure a : Except ε α) = .ok b ↔ a = b :=
  ⟨fun h => (by cases h; rfl), fun h => h ▸ rfl⟩

/-- A guard: past it, its condition is false. -/
theorem guard_eq_ok_iff {p : Prop} [Decidable p] {e : ε} {m : Except ε α} {a : α} :
    (do if p then throw e
        m : Except ε α) = .ok a ↔ ¬ p ∧ m = .ok a := by
  by_cases hp : p
  · simp only [hp, not_true_eq_false, false_and, iff_false]
    intro h
    cases h
  · simp only [hp, not_false_eq_true, true_and]
    rfl

/-- A call: it returned, and the rest went on from there. -/
theorem call_eq_ok_iff {m : Except ε α} {f : α → Except ε β} {b : β} :
    (m >>= f) = .ok b ↔ ∃ a, m = .ok a ∧ f a = .ok b := by
  cases m with
  | error e => simp [Bind.bind, Except.bind]
  | ok a => simp [Bind.bind, Except.bind]

/-- A call that throws: it does itself, or what comes after it. -/
theorem call_eq_error_iff {m : Except ε α} {f : α → Except ε β} {e : ε} :
    (m >>= f) = .error e ↔ m = .error e ∨ ∃ a, m = .ok a ∧ f a = .error e := by
  cases m with
  | error e => simp [Bind.bind, Except.bind]
  | ok a => simp [Bind.bind, Except.bind]

/-- What every step keeps, a fold that does not throw keeps. -/
theorem foldlM_invariant {I : β → Prop} {f : β → α → Except ε β}
    (hstep : ∀ b a b', f b a = .ok b' → I b → I b') {l : List α} {b b' : β}
    (h : l.foldlM f b = .ok b') (hb : I b) : I b' := by
  induction l generalizing b with
  | nil =>
    cases h
    exact hb
  | cons a l ih =>
    rw [List.foldlM_cons] at h
    obtain ⟨c, hc, hrest⟩ := call_eq_ok_iff.mp h
    exact ih hrest (hstep b a c hc hb)

/-- The same for what the steps keep that elements of the list make. -/
theorem foldlM_invariant_mem {I : β → Prop} {f : β → α → Except ε β} {l : List α} {b b' : β}
    (hstep : ∀ b, ∀ a ∈ l, ∀ b', f b a = .ok b' → I b → I b') (h : l.foldlM f b = .ok b')
    (hb : I b) : I b' := by
  induction l generalizing b with
  | nil =>
    cases h
    exact hb
  | cons a l ih =>
    rw [List.foldlM_cons] at h
    obtain ⟨c, hc, hrest⟩ := call_eq_ok_iff.mp h
    exact ih (fun b a' ha' => hstep b a' (List.mem_cons_of_mem _ ha')) hrest
      (hstep b a List.mem_cons_self c hc hb)

/-- What a list is turned into, element by element. -/
theorem mapM_returns {f : α → Except ε β} {l : List α} {l' : List β} (h : l.mapM f = .ok l') :
    l'.length = l.length ∧ ∀ b ∈ l', ∃ a ∈ l, f a = .ok b := by
  induction l generalizing l' with
  | nil =>
    obtain rfl := pure_eq_ok_iff.mp h
    exact ⟨rfl, by simp⟩
  | cons a l ih =>
    rw [List.mapM_cons, call_eq_ok_iff] at h
    obtain ⟨b, hb, h⟩ := h
    rw [call_eq_ok_iff] at h
    obtain ⟨bs, hbs, h⟩ := h
    obtain rfl := pure_eq_ok_iff.mp h
    obtain ⟨hlength, hall⟩ := ih hbs
    refine ⟨by simp [hlength], fun c hc => ?_⟩
    rcases List.mem_cons.mp hc with rfl | hc
    · exact ⟨a, List.mem_cons_self, hb⟩
    · obtain ⟨a', ha', hf⟩ := hall c hc
      exact ⟨a', List.mem_cons_of_mem _ ha', hf⟩

/-! ## What a block throws -/

/-- Whatever `m` throws satisfies `P`. -/
def Throws (P : ε → Prop) (m : Except ε α) : Prop := ∀ e, m = .error e → P e

namespace Throws

variable {P : ε → Prop}

@[simp] theorem ok_iff {a : α} : Throws P (.ok a : Except ε α) ↔ True :=
  ⟨fun _ => trivial, fun _ e h => (by cases h)⟩

@[simp] theorem error_iff {e : ε} : Throws P (.error e : Except ε α) ↔ P e :=
  ⟨fun h => h e rfl, fun h _ he => (by cases he; exact h)⟩

@[simp] theorem pure_iff {a : α} : Throws P (pure a : Except ε α) ↔ True := ok_iff

@[simp] theorem throw_iff {e : ε} : Throws P (throw e : Except ε α) ↔ P e := error_iff

@[simp] theorem bind_iff {m : Except ε α} {f : α → Except ε β} :
    Throws P (m >>= f) ↔ Throws P m ∧ ∀ a, m = .ok a → Throws P (f a) := by
  cases m with
  | error e =>
    show Throws P (.error e : Except ε β) ↔ _
    simp [error_iff]
  | ok a =>
    show Throws P (f a) ↔ _
    simp [ok_iff]

@[simp] theorem map_iff {m : Except ε α} {f : α → β} : Throws P (f <$> m) ↔ Throws P m := by
  cases m with
  | error e => exact error_iff.trans error_iff.symm
  | ok a => exact ok_iff.trans ok_iff.symm

@[simp] theorem ite_iff {p : Prop} [Decidable p] {m n : Except ε α} :
    Throws P (if p then m else n) ↔ (p → Throws P m) ∧ (¬ p → Throws P n) := by
  by_cases hp : p <;> simp [hp]

/-- A loop throws what one of its rounds does. -/
theorem foldlM {f : β → α → Except ε β} (h : ∀ b a, Throws P (f b a)) (l : List α) (b : β) :
    Throws P (l.foldlM f b) := by
  induction l generalizing b with
  | nil => exact pure_iff.mpr trivial
  | cons a l ih =>
    rw [List.foldlM_cons, bind_iff]
    exact ⟨h b a, fun c _ => ih c⟩

theorem mapM {f : α → Except ε β} (h : ∀ a, Throws P (f a)) (l : List α) :
    Throws P (l.mapM f) := by
  induction l with
  | nil => exact pure_iff.mpr trivial
  | cons a l ih =>
    rw [List.mapM_cons, bind_iff]
    refine ⟨h a, fun b _ => ?_⟩
    rw [bind_iff]
    exact ⟨ih, fun _ _ => pure_iff.mpr trivial⟩

end Throws

/-! ## What a block returns -/

/-- Whatever `m` returns satisfies `Q`. -/
def Yields (Q : α → Prop) (m : Except ε α) : Prop := ∀ a, m = .ok a → Q a

namespace Yields

variable {Q : α → Prop}

@[simp] theorem ok_iff {a : α} : Yields Q (.ok a : Except ε α) ↔ Q a :=
  ⟨fun h => h a rfl, fun h _ ha => (by cases ha; exact h)⟩

@[simp] theorem error_iff {e : ε} : Yields Q (.error e : Except ε α) ↔ True :=
  ⟨fun _ => trivial, fun _ a h => (by cases h)⟩

@[simp] theorem pure_iff {a : α} : Yields Q (pure a : Except ε α) ↔ Q a := ok_iff

@[simp] theorem throw_iff {e : ε} : Yields Q (throw e : Except ε α) ↔ True := error_iff

@[simp] theorem bind_iff {Q : β → Prop} {m : Except ε α} {f : α → Except ε β} :
    Yields Q (m >>= f) ↔ Yields (fun a => Yields Q (f a)) m := by
  cases m with
  | error e => exact error_iff.trans error_iff.symm
  | ok a =>
    show Yields Q (f a) ↔ _
    rw [ok_iff]

@[simp] theorem map_iff {Q : β → Prop} {m : Except ε α} {f : α → β} :
    Yields Q (f <$> m) ↔ Yields (fun a => Q (f a)) m := by
  cases m with
  | error e => exact error_iff.trans error_iff.symm
  | ok a =>
    show Yields Q (.ok (f a) : Except ε β) ↔ _
    rw [ok_iff, ok_iff]

@[simp] theorem ite_iff {p : Prop} [Decidable p] {m n : Except ε α} :
    Yields Q (if p then m else n) ↔ (p → Yields Q m) ∧ (¬ p → Yields Q n) := by
  by_cases hp : p <;> simp [hp]

@[simp] theorem of_forall {m : Except ε α} : Yields (fun _ : α => True) m := fun _ _ => trivial

end Yields

end Lib

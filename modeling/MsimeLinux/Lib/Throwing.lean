import Mathlib.Tactic.Common

/-!
# Computations that may throw and keep their state

A method of an object with mutable fields is a computation in `Throwing ε σ`: when
it throws, the fields keep what was written to them before. `Outcome m s Q` says
that `m`, started in `s`, ends with a result (returned or thrown) and a state that
satisfy `Q`. There is one rule for each construct of a `do` block; a call is
replaced by what is known of it with `Outcome.call`.
-/

namespace Lib

universe u

variable {ε σ : Type u} {α β : Type u}

/-- A computation that may throw; what it wrote before stays written. -/
abbrev Throwing (ε σ : Type u) := ExceptT ε (StateM σ)

/-- The result and the state after running `m` in `s`. -/
def Throwing.exec (m : Throwing ε σ α) (s : σ) : Except ε α × σ := m.run s

/-- `m`, started in `s`, ends with a result and a state that satisfy `Q`. -/
def Outcome (m : Throwing ε σ α) (s : σ) (Q : Except ε α → σ → Prop) : Prop :=
  Q (m.exec s).1 (m.exec s).2

namespace Outcome

variable {s : σ} {Q : Except ε α → σ → Prop}

theorem pure_iff {a : α} : Outcome (pure a : Throwing ε σ α) s Q ↔ Q (.ok a) s := Iff.rfl

theorem throw_iff {e : ε} : Outcome (throw e : Throwing ε σ α) s Q ↔ Q (.error e) s := Iff.rfl

theorem modify_iff {f : σ → σ} {Q : Except ε PUnit → σ → Prop} :
    Outcome (modify f : Throwing ε σ PUnit) s Q ↔ Q (.ok ⟨⟩) (f s) := Iff.rfl

/-- A sequence: what throws ends it, what returns goes on. -/
theorem bind_iff {m : Throwing ε σ α} {f : α → Throwing ε σ β} {Q : Except ε β → σ → Prop} :
    Outcome (m >>= f) s Q ↔ Outcome m s fun result s' =>
      match result with
      | .ok a => Outcome (f a) s' Q
      | .error e => Q (.error e) s' := by
  have hrun : (m >>= f).exec s = match m.exec s with
      | (.ok a, s') => (f a).exec s'
      | (.error e, s') => (.error e, s') := by
    show (ExceptT.bindCont f (m.exec s).1).run (m.exec s).2 = _
    rcases m.exec s with ⟨_ | a, s'⟩ <;> rfl
  unfold Outcome
  rw [hrun]
  rcases m.exec s with ⟨_ | a, s'⟩ <;> rfl

/-- A handler: it runs on what was thrown, in the state there is then. -/
theorem tryCatch_iff {m : Throwing ε σ α} {handler : ε → Throwing ε σ α} :
    Outcome (tryCatch m handler) s Q ↔ Outcome m s fun result s' =>
      match result with
      | .ok a => Q (.ok a) s'
      | .error e => Outcome (handler e) s' Q := by
  have hrun : (tryCatch m handler).exec s = match m.exec s with
      | (.ok a, s') => (.ok a, s')
      | (.error e, s') => (handler e).exec s' := by
    show ((match (m.exec s).1 with
      | .ok a => (pure (.ok a) : StateM σ (Except ε α))
      | .error e => handler e) (m.exec s).2) = _
    rcases m.exec s with ⟨_ | a, s'⟩ <;> rfl
  unfold Outcome
  rw [hrun]
  rcases m.exec s with ⟨_ | a, s'⟩ <;> rfl

theorem get_bind_iff {f : σ → Throwing ε σ α} :
    Outcome ((get : Throwing ε σ σ) >>= f) s Q ↔ Outcome (f s) s Q :=
  bind_iff

theorem modify_bind_iff {g : σ → σ} {f : PUnit → Throwing ε σ α} :
    Outcome ((modify g : Throwing ε σ PUnit) >>= f) s Q ↔ Outcome (f ⟨⟩) (g s) Q :=
  bind_iff

/-- A guard: past it, its condition is false. -/
theorem guard_iff {p : Prop} [Decidable p] {e : ε} {m : Throwing ε σ α} :
    Outcome (do if p then throw e
                m) s Q ↔ (p → Q (.error e) s) ∧ (¬ p → Outcome m s Q) := by
  by_cases hp : p
  · simp only [hp, if_true, not_true_eq_false, false_implies, and_true, true_implies]
    exact Iff.rfl
  · simp only [hp, if_false, false_implies, not_false_eq_true, true_implies, true_and]

theorem ite_iff {p : Prop} [Decidable p] {m n : Throwing ε σ α} :
    Outcome (if p then m else n) s Q ↔ (p → Outcome m s Q) ∧ (¬ p → Outcome n s Q) := by
  by_cases hp : p <;> simp [hp]

theorem mono {P : Except ε α → σ → Prop} {m : Throwing ε σ α} (h : Outcome m s P)
    (himp : ∀ result s', P result s' → Q result s') : Outcome m s Q :=
  himp _ _ h

theorem and {P : Except ε α → σ → Prop} {m : Throwing ε σ α} (h : Outcome m s P)
    (h' : Outcome m s Q) : Outcome m s fun result s' => P result s' ∧ Q result s' :=
  ⟨h, h'⟩

/-- The rule for a call: its own statement is what the rest may assume. -/
theorem call {m : Throwing ε σ α} {f : α → Throwing ε σ β} {P : Except ε α → σ → Prop}
    {Q : Except ε β → σ → Prop} (hm : Outcome m s P)
    (hok : ∀ a s', P (.ok a) s' → Outcome (f a) s' Q)
    (herror : ∀ e s', P (.error e) s' → Q (.error e) s') : Outcome (m >>= f) s Q := by
  refine bind_iff.mpr (hm.mono ?_)
  intro result s' h
  cases result with
  | ok a => exact hok a s' h
  | error e => exact herror e s' h

end Outcome

end Lib

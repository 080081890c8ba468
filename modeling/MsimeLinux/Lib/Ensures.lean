import Mathlib.Tactic.Common

/-!
# Postconditions of state computations that may throw

`Ensures m n Q` says that when `m`, started in state `n`, returns at all, its
result and final state satisfy `Q`; a computation that throws satisfies every
postcondition. The rules below follow the structure of a `do` block: one for
`pure`, one for a bind, one for weakening the postcondition.
-/

namespace Lib

variable {ν ε α β γ : Type}

/-- When `m` returns from state `n`, its result and final state satisfy `Q`. -/
def Ensures (m : StateT ν (Except ε) α) (n : ν) (Q : α → ν → Prop) : Prop :=
  ∀ a n', m n = .ok (a, n') → Q a n'

namespace Ensures

theorem pure {a : α} {n : ν} {Q : α → ν → Prop} (h : Q a n) :
    Ensures (pure a : StateT ν (Except ε) α) n Q := by
  intro b n' hrun
  change (Except.ok (a, n) : Except ε (α × ν)) = .ok (b, n') at hrun
  cases hrun
  exact h

theorem bind {m : StateT ν (Except ε) α} {f : α → StateT ν (Except ε) β} {n : ν}
    {Q : β → ν → Prop} (h : Ensures m n fun a n' => Ensures (f a) n' Q) :
    Ensures (m >>= f) n Q := by
  intro b n'' hrun
  cases hm : m n with
  | error e => simp [Bind.bind, StateT.bind, Except.bind, hm] at hrun
  | ok r =>
    obtain ⟨a, n'⟩ := r
    exact h a n' hm b n'' (by simpa [Bind.bind, StateT.bind, Except.bind, hm] using hrun)

theorem mono {m : StateT ν (Except ε) α} {n : ν} {P Q : α → ν → Prop}
    (hm : Ensures m n P) (hPQ : ∀ a n', P a n' → Q a n') : Ensures m n Q :=
  fun a n' hrun => hPQ a n' (hm a n' hrun)

/-- The rule for a call followed by the rest of a block: the callee's
postcondition is what the rest may assume. -/
theorem seq {m : StateT ν (Except ε) α} {f : α → StateT ν (Except ε) β} {n : ν}
    {P : α → ν → Prop} {Q : β → ν → Prop} (hm : Ensures m n P)
    (hf : ∀ a n', P a n' → Ensures (f a) n' Q) : Ensures (m >>= f) n Q :=
  bind (hm.mono hf)

theorem apply {m : StateT ν (Except ε) α} {n n' : ν} {a : α} {Q : α → ν → Prop}
    (hm : Ensures m n Q) (hrun : m n = .ok (a, n')) : Q a n' :=
  hm a n' hrun

end Ensures

end Lib

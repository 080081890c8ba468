import MsimeLinux.Lib.Run
import MsimeLinux.Input.Controller

/-!
# The generation counter under contention (`next_online_generation`)

The model of the controller draws a generation in one step. The source draws it with a
compare-and-exchange loop on a process-wide atomic, so that controllers on any
number of threads may draw at once. This module is that loop: a thread loads
`sequence`, tests for exhaustion, and tries to replace the value it saw by its
successor; a weak exchange may also fail for no reason. Every draw is logged
when its exchange takes effect.

- `CounterStep`: one atomic action of one thread.
- `counter_drawn_sorted`: over every run, whatever the schedule, the values
  drawn are strictly increasing in the order in which they were drawn.
- `nextOnlineGeneration_eq_loop`: a thread that is not disturbed computes
  exactly the `nextOnlineGeneration` of the controller.
-/

namespace MsimeLinux

open Lib

universe u

variable {θ : Type u}

/-- Where a thread stands in `next_online_generation` (InputController.cpp:17). -/
inductive CounterPc where
  | idle
  /-- at the top of the loop, holding `previous` -/
  | testing (previous : Nat)
  /-- past the exhaustion test, about to exchange `previous` -/
  | exchanging (previous : Nat)
  | returned (generation : Nat)
  | threw
  deriving DecidableEq, Repr

/-- Inside the loop. -/
def CounterPc.looping : CounterPc → Bool
  | .testing _ | .exchanging _ => true
  | .idle | .returned _ | .threw => false

/-- The atomic, the threads, and the log of the values drawn. -/
structure Counter (θ : Type u) where
  sequence : Nat
  pc : θ → CounterPc
  drawn : List (θ × Nat)

/-- The process at start: `sequence{0}`. -/
def Counter.initial : Counter θ := ⟨0, fun _ => .idle, []⟩

/-- The log is strictly increasing and ends at the atomic's value. -/
structure Counter.Sorted (c : Counter θ) : Prop where
  increasing : c.drawn.Pairwise fun a b => a.2 < b.2
  bounded : ∀ d ∈ c.drawn, 0 < d.2 ∧ d.2 ≤ c.sequence
  returned : ∀ i g, c.pc i = .returned g → (i, g) ∈ c.drawn

theorem Counter.initial_sorted : (Counter.initial : Counter θ).Sorted where
  increasing := List.Pairwise.nil
  bounded := by simp [Counter.initial]
  returned := by simp [Counter.initial]

variable [DecidableEq θ]

/-- Thread `i` moves to `pc`. -/
def Counter.at (c : Counter θ) (i : θ) (pc : CounterPc) : Counter θ :=
  { c with pc := Function.update c.pc i pc }

/-- One atomic action of thread `i`. -/
inductive CounterStep : Counter θ → θ → Counter θ → Prop
  /-- `previous = sequence.load()`; a thread that is done may call again -/
  | load (c : Counter θ) (i : θ) : (c.pc i).looping = false →
      CounterStep c i (c.at i (.testing c.sequence))
  | exhausted (c : Counter θ) (i : θ) : c.pc i = .testing maxGeneration →
      CounterStep c i (c.at i .threw)
  | test (c : Counter θ) (i : θ) (previous : Nat) : c.pc i = .testing previous →
      previous ≠ maxGeneration → CounterStep c i (c.at i (.exchanging previous))
  /-- a failed exchange reloads `previous`; a weak one may fail on equality too -/
  | fail (c : Counter θ) (i : θ) (previous : Nat) : c.pc i = .exchanging previous →
      CounterStep c i (c.at i (.testing c.sequence))
  | exchange (c : Counter θ) (i : θ) : c.pc i = .exchanging c.sequence →
      CounterStep c i
        { c.at i (.returned (c.sequence + 1)) with
          sequence := c.sequence + 1
          drawn := c.drawn ++ [(i, c.sequence + 1)] }

/-- Moving a thread anywhere but to `returned` keeps the log in order. -/
theorem Counter.Sorted.at {c : Counter θ} (h : c.Sorted) (i : θ) {pc : CounterPc}
    (hpc : ∀ g, pc ≠ .returned g) : (c.at i pc).Sorted where
  increasing := h.increasing
  bounded := h.bounded
  returned j g hj := by
    by_cases hji : j = i
    · subst hji
      exact absurd (by simpa [Counter.at] using hj) (hpc g)
    · exact h.returned j g (by simpa [Counter.at, hji] using hj)

theorem Counter.Sorted.step {c c' : Counter θ} {i : θ} (h : c.Sorted)
    (hs : CounterStep c i c') : c'.Sorted := by
  cases hs with
  | load _ => exact h.at i (by simp)
  | exhausted _ => exact h.at i (by simp)
  | test previous _ _ => exact h.at i (by simp)
  | fail previous _ => exact h.at i (by simp)
  | exchange _ =>
    refine ⟨?_, ?_, ?_⟩
    · show (c.drawn ++ [(i, c.sequence + 1)]).Pairwise _
      rw [List.pairwise_append]
      refine ⟨h.increasing, List.pairwise_singleton _ _, fun a ha b hb => ?_⟩
      obtain rfl : b = (i, c.sequence + 1) := by simpa using hb
      exact Nat.lt_succ_of_le (h.bounded a ha).2
    · intro d hd
      show 0 < d.2 ∧ d.2 ≤ c.sequence + 1
      rcases List.mem_append.mp hd with hd | hd
      · exact ⟨(h.bounded d hd).1, Nat.le_succ_of_le (h.bounded d hd).2⟩
      · obtain rfl : d = (i, c.sequence + 1) := by simpa using hd
        exact ⟨Nat.succ_pos _, Nat.le_refl _⟩
    · intro j g hj
      show (j, g) ∈ c.drawn ++ [(i, c.sequence + 1)]
      by_cases hji : j = i
      · subst hji
        obtain rfl : c.sequence + 1 = g := by simpa [Counter.at] using hj
        simp
      · exact List.mem_append_left _ (h.returned j g (by simpa [Counter.at, hji] using hj))

/-- Whatever the schedule, the generations drawn so far are strictly increasing
in the order in which they were drawn. -/
theorem counter_drawn_sorted {c : Counter θ} {schedule : List θ}
    (hrun : Run CounterStep Counter.initial schedule c) : c.Sorted :=
  hrun.invariant (I := Counter.Sorted) (fun _ _ _ h hs => h.step hs) Counter.initial_sorted

/-- A thread that nobody disturbs and whose exchanges do not fail for no reason
runs `nextOnlineGeneration`: it returns what that draws and leaves its counter,
or it throws. -/
theorem nextOnlineGeneration_eq_loop (c : Counter θ) (i : θ) (hidle : c.pc i = .idle) :
    match nextOnlineGeneration c.sequence with
    | .ok (generation, sequence) => ∃ c', Run CounterStep c [i, i, i] c' ∧
        c'.pc i = .returned generation ∧ c'.sequence = sequence
    | .error .exhausted => ∃ c', Run CounterStep c [i, i] c' ∧
        c'.pc i = .threw ∧ c'.sequence = c.sequence := by
  have hload : CounterStep c i (c.at i (.testing c.sequence)) :=
    .load c i (by simp [hidle, CounterPc.looping])
  by_cases hmax : c.sequence = maxGeneration
  · simp only [nextOnlineGeneration, hmax, if_true]
    refine ⟨_, .cons hload (.single (.exhausted _ i ?_)), ?_, ?_⟩
    · simp [Counter.at, hmax]
    · simp [Counter.at]
    · simp [Counter.at, hmax]
  · simp only [nextOnlineGeneration, hmax, if_false]
    refine ⟨_, .cons hload (.cons (.test _ i c.sequence ?_ hmax)
      (.single (.exchange _ i ?_))), ?_, ?_⟩
    · simp [Counter.at]
    · simp [Counter.at]
    · simp [Counter.at]
    · simp [Counter.at]

end MsimeLinux

import Mathlib.Data.List.Perm.Basic
import Mathlib.Tactic.Common

/-!
# Serial orders

Calls `i : ι` work on one shared value, each of them with one step that takes
effect, as `effect i`. `Serial` says that the value is what those that have taken
effect make of the first value, one after the other. There is one rule for a step
that does not touch the value and one for a step that takes effect; once every call
of a finite set has, the order is an order of all of them (`Serial.perm`).
-/

namespace Lib

universe u v

variable {ι : Type u} {V : Type v} {effect : ι → V → V} {start value : V} {done : ι → Prop}

/-- The value after `calls`, one after the other. -/
def runSerial (effect : ι → V → V) (calls : List ι) (start : V) : V :=
  calls.foldl (fun v i => effect i v) start

/-- The calls that are `done` made `value` out of `start` in some order. -/
def Serial (effect : ι → V → V) (start : V) (done : ι → Prop) (value : V) : Prop :=
  ∃ order : List ι, order.Nodup ∧ (∀ i, i ∈ order ↔ done i) ∧ value = runSerial effect order start

namespace Serial

/-- Nothing has taken effect yet. -/
theorem none (h : ∀ i, ¬ done i) : Serial effect start done start :=
  ⟨[], List.nodup_nil, fun i => by simp [h i], rfl⟩

/-- A step that takes no effect. -/
theorem same {done' : ι → Prop} (h : Serial effect start done value)
    (hdone : ∀ i, done' i ↔ done i) : Serial effect start done' value := by
  obtain ⟨order, hnodup, hmem, hvalue⟩ := h
  exact ⟨order, hnodup, fun i => (hmem i).trans (hdone i).symm, hvalue⟩

/-- The step of `i` that takes effect. -/
theorem commit {done' : ι → Prop} {i : ι} (h : Serial effect start done value)
    (hnew : ¬ done i) (hdone : ∀ j, done' j ↔ done j ∨ j = i) :
    Serial effect start done' (effect i value) := by
  obtain ⟨order, hnodup, hmem, rfl⟩ := h
  refine ⟨order ++ [i], ?_, ?_, ?_⟩
  · have hlast : i ∉ order := fun hi => hnew ((hmem i).mp hi)
    rw [List.nodup_append]
    refine ⟨hnodup, by simp, fun a ha b hb hab => hlast ?_⟩
    rwa [← List.mem_singleton.mp hb, ← hab]
  · intro j
    rw [List.mem_append, List.mem_singleton, hdone, hmem]
  · simp [runSerial]

/-- When all calls are done, the order is an order of all of them. -/
theorem perm (h : Serial effect start done value) {calls : List ι} (hnodup : calls.Nodup)
    (hall : ∀ i, done i ↔ i ∈ calls) :
    ∃ order : List ι, order.Perm calls ∧ value = runSerial effect order start := by
  obtain ⟨order, horder, hmem, hvalue⟩ := h
  refine ⟨order, ?_, hvalue⟩
  exact (List.perm_ext_iff_of_nodup horder hnodup).mpr fun i => (hmem i).trans (hall i)

end Serial

end Lib

import Mathlib.Tactic.Common

/-!
# Sizes of 64 bits

A `size_t` wraps. Code that multiplies sizes it was given divides first, to see whether the
product fits; code that counts up to a bound subtracts what it has from the bound. The rules
here turn both into facts about natural numbers.
-/

namespace Lib

/-- The largest size. -/
def maxSize : UInt64 := 18446744073709551615

/-- A product does not fit, as a division tells. -/
def productWraps (size count : UInt64) : Bool := size != 0 && decide (maxSize / size < count)

variable {size count : UInt64}

/-- The division tells the truth. -/
theorem productWraps_eq_false_iff :
    productWraps size count = false ↔ size.toNat * count.toNat ≤ maxSize.toNat := by
  have hzero : size = 0 ↔ size.toNat = 0 := by rw [← UInt64.toNat_inj, UInt64.toNat_zero]
  by_cases hsize : size = 0
  · subst hsize
    simp [productWraps]
  · have hpos : 0 < size.toNat := Nat.pos_of_ne_zero fun h => hsize (hzero.mpr h)
    have hdiv : maxSize / size < count ↔ ¬ size.toNat * count.toNat ≤ maxSize.toNat := by
      rw [UInt64.lt_iff_toNat_lt, UInt64.toNat_div, Nat.div_lt_iff_lt_mul hpos, Nat.mul_comm]
      omega
    simp [productWraps, hsize, hdiv]

/-- A product that fits is the product. -/
theorem toNat_mul_of_fits (h : productWraps size count = false) :
    (size * count).toNat = size.toNat * count.toNat := by
  have hmax : maxSize.toNat = 2 ^ 64 - 1 := rfl
  have hfits := productWraps_eq_false_iff.mp h
  rw [UInt64.toNat_mul, Nat.mod_eq_of_lt (by omega)]

theorem toNat_min (a b : UInt64) : (min a b).toNat = min a.toNat b.toNat := by
  show (if a ≤ b then a else b).toNat = _
  rw [Nat.min_def]
  split
  · next hle => rw [if_pos (UInt64.le_iff_toNat_le.mp hle)]
  · next hle => rw [if_neg (mt UInt64.le_iff_toNat_le.mpr hle)]

/-- What is left of a bound, were it exceeded or not. -/
theorem toNat_sub_min (a b : UInt64) : (a - min a b).toNat = a.toNat - b.toNat := by
  have hmin := toNat_min a b
  have hle : min a b ≤ a := by
    rw [UInt64.le_iff_toNat_le]
    omega
  rw [UInt64.toNat_sub_of_le _ _ hle]
  omega

/-- Adding no more than there is room for. -/
theorem toNat_add_of_le (bound : UInt64) {used more : UInt64} (hused : used.toNat ≤ bound.toNat)
    (hmore : more.toNat ≤ bound.toNat - used.toNat) :
    (used + more).toNat = used.toNat + more.toNat := by
  have hbound := bound.toNat_lt
  rw [UInt64.toNat_add, Nat.mod_eq_of_lt (by omega)]

end Lib

import Mathlib.Algebra.Order.Floor.Ring
import Mathlib.Data.Int.ConditionallyCompleteOrder

/-!
# Conversion of a number to an integer, as C's `(int) x`

The conversion drops the fractional part. On a number that is not negative it is the floor.
-/

/-- The conversion `(int) x` of the number type `F`. -/
class ToInt (F : Type*) where
  toInt : F → ℤ

export ToInt (toInt)

namespace ToInt

variable {K : Type*} [Ring K] [LinearOrder K] [FloorRing K]

instance exact : ToInt K where
  toInt x := if 0 ≤ x then ⌊x⌋ else ⌈x⌉

theorem toInt_of_nonneg {x : K} (h : 0 ≤ x) : toInt x = ⌊x⌋ := by
  simp [toInt, h]

theorem toInt_mem_Ico [IsOrderedRing K] {x : K} {n : ℕ} (h0 : 0 ≤ x) (hn : x < n) : toInt x ∈ Set.Ico (0 : ℤ) n := by
  rw [toInt_of_nonneg h0]
  exact ⟨Int.floor_nonneg.mpr h0, Int.floor_lt.mpr (by exact_mod_cast hn)⟩

end ToInt

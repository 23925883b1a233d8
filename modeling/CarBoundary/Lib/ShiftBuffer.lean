import Mathlib.Algebra.Order.Ring.Nat
import Mathlib.Data.UInt

/-!
# Shift buffers

A 32-bit word that holds three bytes of a sequence: the previous one, the current one and the next one. What is in the
highest byte does not matter.
-/

namespace ShiftBuffer

variable {v : UInt32} {previous current next : UInt8}

structure Holds (v : UInt32) (previous current next : UInt8) : Prop where
  previous : (v >>> 16).toUInt8 = previous
  current : (v >>> 8).toUInt8 = current
  next : v.toUInt8 = next

theorem holds_zero : Holds 0 0 0 0 := ⟨rfl, rfl, rfl⟩

/-! ## Putting values in -/

theorem Holds.insert (h : Holds v previous current 0) (b : UInt8) : Holds (v ||| b.toUInt32) previous current b where
  previous := by
    rw [← h.previous]
    apply UInt8.toBitVec_inj.mp
    ext i hi
    have hhigh : b.toBitVec.getLsbD (16 + i) = false := BitVec.getLsbD_of_ge _ _ (by omega)
    simp [hhigh]
  current := by
    rw [← h.current]
    apply UInt8.toBitVec_inj.mp
    ext i hi
    simp
  next := by
    have hor : v.toUInt8 ||| b = b := by rw [h.next, UInt8.zero_or]
    simpa using hor

theorem Holds.insert_front (h : Holds v 0 current next) (b : UInt8) :
    Holds (v ||| b.toUInt32 <<< 16) b current next where
  previous := by
    apply UInt8.toBitVec_inj.mp
    ext i hi
    have hout : ¬ 16 + i < 16 := by omega
    have hin : 16 + i < 32 := by omega
    have hzero := congrArg (fun x : UInt8 => x.toBitVec.getLsbD i) h.previous
    simp only [UInt32.toBitVec_toUInt8, BitVec.getLsbD_setWidth, hi] at hzero
    simp [hout, hin] at hzero ⊢
    simp [hzero, BitVec.getLsbD_eq_getElem hi]
  current := by
    rw [← h.current]
    apply UInt8.toBitVec_inj.mp
    ext i hi
    have hout : ¬ 16 ≤ 8 + i := by omega
    simp [hout]
  next := by
    rw [← h.next]
    apply UInt8.toBitVec_inj.mp
    ext i hi
    simp

theorem Holds.shift (h : Holds v previous current next) : Holds (v <<< 8) current next 0 where
  previous := by
    rw [← h.current]
    apply UInt8.toNat_inj.mp
    simp [Nat.shiftRight_eq_div_pow, Nat.shiftLeft_eq]
    omega
  current := by
    rw [← h.next]
    apply UInt8.toNat_inj.mp
    simp [Nat.shiftRight_eq_div_pow, Nat.shiftLeft_eq]
    omega
  next := by
    apply UInt8.toNat_inj.mp
    simp [Nat.shiftLeft_eq]

theorem holds_shiftLeft (b : UInt8) : Holds (b.toUInt32 <<< 8) 0 b 0 := by
  have hb := holds_zero.insert b
  rw [UInt32.zero_or] at hb
  exact hb.shift

/-! ## Averages -/

/-- The average of two bytes, rounded down. -/
def half (a b : UInt8) : UInt8 := ((a.toUInt32 + b.toUInt32) >>> 1).toUInt8

theorem half_toNat (a b : UInt8) : (half a b).toNat = (a.toNat + b.toNat) / 2 := by
  have ha := a.toNat_lt
  have hb := b.toNat_lt
  simp [half, Nat.shiftRight_eq_div_pow]
  omega

theorem half_self (a : UInt8) : half a a = a := by
  apply UInt8.toNat_inj.mp
  rw [half_toNat]
  omega

theorem half_toUInt32 (a b : UInt8) : (half a b).toUInt32 = (a.toUInt32 + b.toUInt32) >>> 1 := by
  have ha := a.toNat_lt
  have hb := b.toNat_lt
  apply UInt32.toNat_inj.mp
  rw [UInt8.toNat_toUInt32, half_toNat]
  simp [Nat.shiftRight_eq_div_pow]
  omega

/-- The average of four bytes in two steps may be one less than in one step. -/
theorem half_half (a b c d : UInt8) :
    (half (half a b) (half c d)).toNat ≤ (a.toNat + b.toNat + c.toNat + d.toNat) / 4 ∧
      (a.toNat + b.toNat + c.toNat + d.toNat) / 4 ≤ (half (half a b) (half c d)).toNat + 1 := by
  rw [half_toNat, half_toNat, half_toNat]
  omega

theorem and_shiftLeft (n k : ℕ) : n &&& 255 <<< k = n / 2 ^ k % 256 * 2 ^ k := by
  rw [← Nat.shiftRight_eq_div_pow, ← Nat.shiftLeft_eq]
  refine Nat.eq_of_testBit_eq fun i => ?_
  rw [Nat.testBit_and, Nat.testBit_shiftLeft, Nat.testBit_shiftLeft, show 256 = 2 ^ 8 from rfl, Nat.testBit_mod_two_pow,
    Nat.testBit_shiftRight, show 255 = 2 ^ 8 - 1 from rfl, Nat.testBit_two_pow_sub_one]
  by_cases hk : k ≤ i
  · rw [Nat.add_sub_cancel' hk]
    simp [hk, Bool.and_comm]
  · simp [hk]

/-- An average that is put in as the current value, from the sum and with one shift. -/
theorem half_current (a b : UInt8) :
    (a.toUInt32 + b.toUInt32) <<< 7 &&& (0xFF00 : UInt32) = (half a b).toUInt32 <<< 8 := by
  apply UInt32.toNat_inj.mp
  simp [half, Nat.shiftRight_eq_div_pow, Nat.shiftLeft_eq]
  rw [show 65280 = 255 <<< 8 from rfl, and_shiftLeft]
  omega

theorem half_previous (a b : UInt8) :
    (a.toUInt32 + b.toUInt32) <<< 15 &&& (0xFF0000 : UInt32) = (half a b).toUInt32 <<< 16 := by
  apply UInt32.toNat_inj.mp
  simp [half, Nat.shiftRight_eq_div_pow, Nat.shiftLeft_eq]
  rw [show 16711680 = 255 <<< 16 from rfl, and_shiftLeft]
  omega

end ShiftBuffer

import Mathlib.Data.Nat.Bitwise

/-!
# Strings of bits in fields of one width

A sequence of numbers that are `w` bits wide each is a string of bits, with the most significant bit of a field
first. To pack or to unpack is to cut the same string into fields of another width (`regroup`).
-/

namespace Bits

variable {v w : ℕ} {f g : ℕ → ℕ}

/-- Bit `t` of the string. -/
def bitAt (w : ℕ) (f : ℕ → ℕ) (t : ℕ) : Bool := (f (t / w)).testBit (w - 1 - t % w)

theorem bitAt_field (f : ℕ → ℕ) {k i : ℕ} (hi : i < w) : bitAt w f (k * w + i) = (f k).testBit (w - 1 - i) := by
  have hw : 0 < w := by omega
  rw [bitAt, Nat.mul_add_mod_of_lt hi, Nat.add_comm, Nat.add_mul_div_right _ _ hw, Nat.div_eq_of_lt hi, Nat.zero_add]

theorem bitAt_congr (hw : 0 < w) {n t : ℕ} (h : ∀ k < n, f k = g k) (ht : t < n * w) : bitAt w f t = bitAt w g t := by
  rw [bitAt, bitAt, h]
  exact (Nat.div_lt_iff_lt_mul hw).mpr ht

/-- A field that is narrow enough is determined by its bits. -/
theorem field_eq_of_bits {x y : ℕ} (hx : x < 2 ^ w) (hy : y < 2 ^ w)
    (h : ∀ i < w, x.testBit (w - 1 - i) = y.testBit (w - 1 - i)) : x = y := by
  refine Nat.eq_of_testBit_eq fun i => ?_
  by_cases hi : i < w
  · have := h (w - 1 - i) (by omega)
    rwa [show w - 1 - (w - 1 - i) = i by omega] at this
  · rw [Nat.testBit_lt_two_pow (hx.trans_le (Nat.pow_le_pow_right (by decide) (by omega))),
      Nat.testBit_lt_two_pow (hy.trans_le (Nat.pow_le_pow_right (by decide) (by omega)))]

/-! ## Cutting a string into other fields -/

/-- Field `k` of the string of `v`-bit fields when it is cut into `w`-bit fields. -/
def regroup (v w : ℕ) (f : ℕ → ℕ) (k : ℕ) : ℕ := Nat.ofBits fun i : Fin w => bitAt v f (k * w + (w - 1 - i))

theorem regroup_lt (v w : ℕ) (f : ℕ → ℕ) (k : ℕ) : regroup v w f k < 2 ^ w := Nat.ofBits_lt_two_pow _

theorem testBit_regroup (f : ℕ → ℕ) (k : ℕ) {i : ℕ} (hi : i < w) :
    (regroup v w f k).testBit (w - 1 - i) = bitAt v f (k * w + i) := by
  rw [regroup, Nat.testBit_ofBits_lt _ _ (by omega)]
  congr 2
  simp only
  omega

/-- The string stays the same. -/
theorem bitAt_regroup (hw : 0 < w) (f : ℕ → ℕ) (t : ℕ) : bitAt w (regroup v w f) t = bitAt v f t := by
  rw [bitAt, testBit_regroup _ _ (Nat.mod_lt t hw), Nat.div_add_mod']

theorem eq_regroup {x : ℕ} (f : ℕ → ℕ) (k : ℕ) (hx : x < 2 ^ w)
    (h : ∀ i < w, x.testBit (w - 1 - i) = bitAt v f (k * w + i)) : x = regroup v w f k :=
  field_eq_of_bits hx (regroup_lt v w f k) fun i hi => by rw [h i hi, testBit_regroup _ _ hi]

/-- Cutting back gives the fields that were there. -/
theorem regroup_regroup (hw : 0 < w) {k : ℕ} (hf : f k < 2 ^ v) : regroup w v (regroup v w f) k = f k := by
  refine (eq_regroup _ _ hf fun i hi => ?_).symm
  rw [bitAt_regroup hw, bitAt_field f hi]

/-- A field depends on the part of the string that it covers. -/
theorem regroup_congr (hv : 0 < v) {n k : ℕ} (h : ∀ j < n, f j = g j) (hk : (k + 1) * w ≤ n * v) :
    regroup v w f k = regroup v w g k := by
  refine eq_regroup _ _ (regroup_lt v w f k) fun i hi => ?_
  rw [testBit_regroup _ _ hi]
  refine bitAt_congr hv h ?_
  rw [Nat.succ_mul] at hk
  omega

/-! ## A window that slides over the string -/

/-- The low bits of `buffer` are the last of the first `8 * pos` bits of the bytes `f`. -/
def Window (f : ℕ → ℕ) (width pos buffer : ℕ) : Prop :=
  ∀ i < width, i < 8 * pos → buffer.testBit i = bitAt 8 f (8 * pos - 1 - i)

theorem Window.zero (f : ℕ → ℕ) (width buffer : ℕ) : Window f width 0 buffer := by
  intro i _ hi
  omega

/-- Shifting in the next byte. -/
theorem Window.push {width pos buffer : ℕ} (h : Window f width pos buffer) (hf : f pos < 2 ^ 8) :
    Window f width (pos + 1) ((buffer <<< 8 ||| f pos) % 2 ^ width) := by
  intro i hi hpos
  rw [Nat.testBit_mod_two_pow, Nat.testBit_or, Nat.testBit_shiftLeft]
  by_cases h8 : i < 8
  · have hidx : 8 * (pos + 1) - 1 - i = pos * 8 + (7 - i) := by omega
    rw [hidx, bitAt_field f (by omega), show 8 - 1 - (7 - i) = i by omega]
    simp [hi, Nat.not_le.mpr h8]
  · have hhigh : (f pos).testBit i = false :=
      Nat.testBit_lt_two_pow (hf.trans_le (Nat.pow_le_pow_right (by decide) (by omega)))
    have hold := h (i - 8) (by omega) (by omega)
    rw [show 8 * pos - 1 - (i - 8) = 8 * (pos + 1) - 1 - i by omega] at hold
    simp [hi, hhigh, hold, Nat.le_of_not_lt h8]

/-- Reading a field out of the window. -/
theorem Window.field {width pos buffer rest k : ℕ} (h : Window f width pos buffer) (hpos : 8 * pos = k * w + w + rest)
    (hfit : w + rest ≤ width) : buffer >>> rest % 2 ^ w = regroup 8 w f k := by
  refine eq_regroup f k (Nat.mod_lt _ (Nat.two_pow_pos w)) fun i hi => ?_
  have hbit := h (rest + (w - 1 - i)) (by omega) (by omega)
  rw [Nat.testBit_mod_two_pow, Nat.testBit_shiftRight, hbit,
    show 8 * pos - 1 - (rest + (w - 1 - i)) = k * w + i by omega]
  simp
  omega

end Bits

import Mathlib.Algebra.Order.Ring.Int

/-!
# Eight-bit counters

A counter in a C `char` that is incremented `n` times from zero holds `Int8.ofNat n`. It reaches a threshold
that the counter can hold exactly when the remainder of `n` by 256 lies between the threshold and 127.
-/

namespace Counter

theorem ofNat_succ (n : ℕ) : Int8.ofNat n + 1 = Int8.ofNat (n + 1) := (Int8.ofNat_add n 1).symm

theorem toInt_ofNat (n : ℕ) :
    (Int8.ofNat n).toInt = if n % 256 < 128 then ((n % 256 : ℕ) : ℤ) else ((n % 256 : ℕ) : ℤ) - 256 := by
  rw [Int8.toInt_ofNat', Int.bmod_def, Int8.size]
  split <;> split <;> omega

/-- The counter shows at least `k`. -/
def Shows (k n : ℕ) : Prop := k ≤ n % 256 ∧ n % 256 < 128

instance (k n : ℕ) : Decidable (Shows k n) := inferInstanceAs (Decidable (_ ∧ _))

theorem ofNat_le_ofNat_iff {k n : ℕ} (h0 : 0 < k) (hk : k < 128) : Int8.ofNat k ≤ Int8.ofNat n ↔ Shows k n := by
  rw [Int8.le_iff_toInt_le, toInt_ofNat, toInt_ofNat, Shows, Nat.mod_eq_of_lt (by omega : k < 256)]
  split <;> split <;> omega

theorem Shows.le {k n : ℕ} (h : Shows k n) : k ≤ n := h.1.trans (Nat.mod_le n 256)

theorem shows_iff_of_lt {k n : ℕ} (hn : n < 128) : Shows k n ↔ k ≤ n := by
  rw [Shows, Nat.mod_eq_of_lt (by omega)]; omega

end Counter

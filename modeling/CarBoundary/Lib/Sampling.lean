import Mathlib.Algebra.Order.Ring.Int
import Mathlib.Tactic.Linarith

/-!
# Sampling a row of cells

`n` samples are spread over a row of `m` cells: sample `s` falls into the cell `s * m / n`. A cell is hit exactly
if some multiple of `m` lies in its `n` units, so that all cells are hit exactly if there are as many samples as
cells; otherwise the last cell is missed.
-/

namespace Sampling

variable {n m : ℕ} {x : ℤ}

/-- Some multiple of `m` lies in the `n` units of the cell. -/
def Sampled (n m : ℕ) (x : ℤ) : Prop := ∃ s : ℕ, x * n ≤ s * m ∧ s * m < (x + 1) * n

theorem sampled_iff (hn : 0 < n) (hx : x < m) : Sampled n m x ↔ ∃ s < n, ((s * m / n : ℕ) : ℤ) = x := by
  have hpos : (0 : ℤ) < n := by exact_mod_cast hn
  have hcell (s : ℕ) : ((s * m / n : ℕ) : ℤ) = x ↔ x * n ≤ s * m ∧ s * m < (x + 1) * n := by
    push_cast
    rw [Int.ediv_eq_iff_of_pos hpos]
    constructor
    · rintro ⟨h1, h2⟩
      exact ⟨by linarith, by linarith⟩
    · rintro ⟨h1, h2⟩
      exact ⟨by linarith, by linarith⟩
  constructor
  · rintro ⟨s, h1, h2⟩
    refine ⟨s, ?_, (hcell s).mpr ⟨h1, h2⟩⟩
    have h3 : (x + 1) * n ≤ m * n := mul_le_mul_of_nonneg_right (by omega) hpos.le
    have h4 : (s : ℤ) * m < n * m := by linarith
    exact_mod_cast lt_of_mul_lt_mul_right h4 (Int.natCast_nonneg m)
  · rintro ⟨s, _, hs⟩
    exact ⟨s, (hcell s).mp hs⟩

theorem sampled_of_le (h : m ≤ n) (hm : 0 < m) (hx : 0 ≤ x) : Sampled n m x := by
  have hpos : (0 : ℤ) < m := by exact_mod_cast hm
  have hmn : (m : ℤ) ≤ n := by exact_mod_cast h
  have hxn : 0 ≤ x * n := mul_nonneg hx (Int.natCast_nonneg n)
  -- the first multiple of `m` that is not below the cell
  obtain ⟨s, hs⟩ : ∃ s : ℕ, (s : ℤ) = (x * n + m - 1) / m := ⟨((x * n + m - 1) / m).toNat, by
    rw [Int.toNat_of_nonneg]
    exact Int.ediv_nonneg (by linarith) hpos.le⟩
  have h1 := Int.mul_ediv_add_emod (x * n + m - 1) m
  have h2 := Int.emod_nonneg (x * n + m - 1) hpos.ne'
  have h3 := Int.emod_lt_of_pos (x * n + m - 1) hpos
  rw [← hs] at h1
  exact ⟨s, by linarith, by linarith⟩

theorem not_sampled_last (h : n < m) : ¬ Sampled n m (m - 1) := by
  rintro ⟨s, h1, h2⟩
  have hs : (s : ℤ) < n := by
    by_contra hle
    have := mul_le_mul_of_nonneg_right (not_lt.mp hle) (Int.natCast_nonneg m)
    linarith
  have hmul : ((s : ℤ) + 1) * m ≤ n * m := mul_le_mul_of_nonneg_right hs (Int.natCast_nonneg m)
  have hnm : (n : ℤ) < m := by exact_mod_cast h
  linarith

end Sampling

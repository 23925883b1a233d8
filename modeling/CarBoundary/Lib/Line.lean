import Mathlib.Algebra.Order.Field.Basic
import Mathlib.Algebra.Order.Floor.Semiring
import Mathlib.Algebra.Order.Floor.Ring
import Mathlib.Order.Interval.Set.Basic
import Mathlib.Tactic.Linarith
import Mathlib.Tactic.Positivity
import Mathlib.Tactic.Ring

/-!
# Points on a line

One coordinate of a point that moves on a straight line is `c + s * v`. This file relates it to half-open
intervals, to the cells of the integer grid, and to the comparison with a target `c + t * v`.
-/

namespace Line

variable {K : Type*} [Field K] [LinearOrder K] [IsStrictOrderedRing K]

/-! ## Half-open intervals -/

theorem mem_Ico_between {a b c v s n : K} (h0 : c ∈ Set.Ico a b) (hn : c + n * v ∈ Set.Ico a b)
    (hs0 : 0 ≤ s) (hsn : s ≤ n) : c + s * v ∈ Set.Ico a b := by
  rcases le_total 0 v with hv | hv
  · have h1 : 0 ≤ s * v := mul_nonneg hs0 hv
    have h2 : s * v ≤ n * v := mul_le_mul_of_nonneg_right hsn hv
    exact ⟨by linarith [h0.1], by linarith [hn.2]⟩
  · have h1 : s * v ≤ 0 := mul_nonpos_of_nonneg_of_nonpos hs0 hv
    have h2 : n * v ≤ s * v := mul_le_mul_of_nonpos_right hsn hv
    exact ⟨by linarith [hn.1], by linarith [h0.2]⟩

theorem mul_lt_of_mem_Ico {c v n w : K} (h0 : c ∈ Set.Ico 0 w) (hn : c + n * v ∈ Set.Ico 0 w) :
    |n * v| < w := by
  rw [abs_lt]
  exact ⟨by linarith [h0.2, hn.1], by linarith [h0.1, hn.2]⟩

theorem abs_le_one_of_sq_add {a b : K} (h : a ^ 2 + b ^ 2 = 1) : |a| ≤ 1 ∧ |b| ≤ 1 :=
  ⟨abs_le_one_iff_mul_self_le_one.mpr (by nlinarith [sq_nonneg b]),
    abs_le_one_iff_mul_self_le_one.mpr (by nlinarith [sq_nonneg a])⟩

/-- A walk in unit steps inside a `w` by `l` rectangle stays within its diagonal. -/
theorem sq_lt_of_mem_Ico {x y vx vy n w l : K} (hv : vx ^ 2 + vy ^ 2 = 1)
    (hx0 : x ∈ Set.Ico 0 w) (hxn : x + n * vx ∈ Set.Ico 0 w) (hy0 : y ∈ Set.Ico 0 l)
    (hyn : y + n * vy ∈ Set.Ico 0 l) : n ^ 2 < w ^ 2 + l ^ 2 := by
  obtain ⟨hx, hx'⟩ := abs_lt.mp (mul_lt_of_mem_Ico hx0 hxn)
  obtain ⟨hy, hy'⟩ := abs_lt.mp (mul_lt_of_mem_Ico hy0 hyn)
  calc n ^ 2 = n ^ 2 * (vx ^ 2 + vy ^ 2) := by rw [hv, mul_one]
    _ = (n * vx) ^ 2 + (n * vy) ^ 2 := by ring
    _ < w ^ 2 + l ^ 2 := add_lt_add (sq_lt_sq' hx hx') (sq_lt_sq' hy hy')

theorem lt_of_mem_Ico {x y vx vy n w l : K} (hv : vx ^ 2 + vy ^ 2 = 1)
    (hx0 : x ∈ Set.Ico 0 w) (hxn : x + n * vx ∈ Set.Ico 0 w) (hy0 : y ∈ Set.Ico 0 l)
    (hyn : y + n * vy ∈ Set.Ico 0 l) : n < w + l := by
  have hw : 0 ≤ w := hx0.1.trans hx0.2.le
  have hl : 0 ≤ l := hy0.1.trans hy0.2.le
  refine lt_of_pow_lt_pow_left₀ 2 (add_nonneg hw hl) ?_
  calc n ^ 2 < w ^ 2 + l ^ 2 := sq_lt_of_mem_Ico hv hx0 hxn hy0 hyn
    _ ≤ w ^ 2 + l ^ 2 + 2 * (w * l) := le_add_of_nonneg_right (by positivity)
    _ = (w + l) ^ 2 := by ring

/-! ## Cells -/

theorem lt_add_of_floor_eq [FloorRing K] {x y vx vy s u : K} (hv : vx ^ 2 + vy ^ 2 = 1)
    (hx : ⌊x + s * vx⌋ = ⌊x + u * vx⌋) (hy : ⌊y + s * vy⌋ = ⌊y + u * vy⌋) : u < s + 3 / 2 := by
  have h1 := Int.abs_sub_lt_one_of_floor_eq_floor hx
  have h2 := Int.abs_sub_lt_one_of_floor_eq_floor hy
  rw [abs_lt] at h1 h2
  have h3 : ((s - u) * vx) ^ 2 < 1 := by nlinarith
  have h4 : ((s - u) * vy) ^ 2 < 1 := by nlinarith
  have h5 : (s - u) ^ 2 < 2 := by
    calc (s - u) ^ 2 = (s - u) ^ 2 * (vx ^ 2 + vy ^ 2) := by rw [hv, mul_one]
      _ = ((s - u) * vx) ^ 2 + ((s - u) * vy) ^ 2 := by ring
      _ < 2 := by linarith
  nlinarith

/-- A cell can be left at once, in either direction, from some place in it. -/
theorem exists_floor_ne [FloorRing K] (c : ℤ) {e : K} (he : e ≠ 0) :
    ∃ p ∈ Set.Icc (c - 1 : K) c, ∀ q, 1 ≤ q → ⌊p + q * e⌋ ≠ ⌊p⌋ := by
  rcases lt_or_gt_of_ne he with hneg | hpos
  · -- the lower end of the cell
    refine ⟨c, ⟨by linarith, le_rfl⟩, fun q hq hsame => ?_⟩
    rw [Int.floor_intCast, Int.floor_eq_iff] at hsame
    have : q * e < 0 := mul_neg_of_pos_of_neg (by linarith) hneg
    linarith [hsame.1]
  · -- a place below the upper end that one step passes
    have hδ0 : 0 < min 1 e := lt_min one_pos hpos
    have hδ1 : min 1 e ≤ 1 := min_le_left 1 e
    have hδe : min 1 e ≤ e := min_le_right 1 e
    refine ⟨c - min 1 e, ⟨by linarith, by linarith⟩, fun q hq hsame => ?_⟩
    have hcell : ⌊c - min 1 e⌋ = c - 1 := by
      rw [Int.floor_eq_iff]
      push_cast
      exact ⟨by linarith, by linarith⟩
    rw [hcell, Int.floor_eq_iff] at hsame
    push_cast at hsame
    have : e ≤ q * e := le_mul_of_one_le_left hpos.le hq
    linarith [hsame.2]

/-- A walk can be placed so that it is in another cell than after `m` steps at all times on the other side of `r`. -/
theorem exists_floor_ne_of_le [FloorRing K] (c : ℤ) {v m r : K} (hv : v ≠ 0) (hr : r ≠ m) :
    ∃ l, l + m * v ∈ Set.Icc (c - 1 : K) c ∧
      ∀ s, (s ≤ r ∧ r < m) ∨ (m < r ∧ r ≤ s) → ⌊l + s * v⌋ ≠ ⌊l + m * v⌋ := by
  obtain ⟨p, hp, hne⟩ := exists_floor_ne c (mul_ne_zero (sub_ne_zero.mpr hr) hv)
  refine ⟨p - m * v, by rwa [sub_add_cancel], fun s hs => ?_⟩
  have hq : 1 ≤ (s - m) / (r - m) := by
    rcases hs with ⟨hsr, hrm⟩ | ⟨hmr, hrs⟩
    · rw [one_le_div_of_neg (by linarith)]
      linarith
    · rw [one_le_div (by linarith)]
      linarith
  have hs' : p - m * v + s * v = p + (s - m) / (r - m) * ((r - m) * v) := by
    rw [← mul_assoc, div_mul_cancel₀ _ (sub_ne_zero.mpr hr)]
    ring
  rw [hs', sub_add_cancel]
  exact hne _ hq

/-! ## Comparison with a target -/

/-- The comparison with the target `c + t * v` comes out differently at `n` than at the start. -/
def Passes (v t n : K) : Prop := (0 < v ∧ 0 ≤ t ∧ t < n) ∨ (v < 0 ∧ 0 < t ∧ t ≤ n)

theorem decide_ne_iff_passes {c v t n : K} (hn : 0 ≤ n) :
    decide (c + n * v ≤ c + t * v) ≠ decide (c ≤ c + t * v) ↔ Passes v t n := by
  have hstart : c ≤ c + t * v ↔ 0 ≤ t * v := by constructor <;> intro h <;> linarith
  have hat : c + n * v ≤ c + t * v ↔ n * v ≤ t * v := by constructor <;> intro h <;> linarith
  rw [ne_eq, decide_eq_decide, hstart, hat, Passes]
  rcases lt_trichotomy v 0 with hv | rfl | hv
  · have h1 : 0 ≤ t * v ↔ t ≤ 0 := by
      constructor
      · intro h; by_contra ht; exact absurd (mul_neg_of_pos_of_neg (not_le.mp ht) hv) (not_lt.mpr h)
      · intro h; exact mul_nonneg_of_nonpos_of_nonpos h hv.le
    have h2 : n * v ≤ t * v ↔ t ≤ n := mul_le_mul_right_of_neg hv
    rw [h1, h2]
    constructor
    · intro h
      rcases le_or_gt t 0 with ht | ht
      · exact absurd (iff_of_true (ht.trans hn) ht) h
      · refine Or.inr ⟨hv, ht, ?_⟩
        by_contra hnt
        exact h (iff_of_false hnt (not_le.mpr ht))
    · rintro (⟨h, _⟩ | ⟨_, ht, hle⟩) hiff
      · exact absurd hv (not_lt.mpr h.le)
      · exact absurd (hiff.mp hle) (not_le.mpr ht)
  · simp
  · have h1 : 0 ≤ t * v ↔ 0 ≤ t := mul_nonneg_iff_of_pos_right hv
    have h2 : n * v ≤ t * v ↔ n ≤ t := mul_le_mul_iff_left₀ hv
    rw [h1, h2]
    constructor
    · intro h
      rcases lt_or_ge t 0 with ht | ht
      · exact absurd (iff_of_false (by linarith) (not_le.mpr ht)) h
      · refine Or.inl ⟨hv, ht, ?_⟩
        by_contra hnt
        exact h (iff_of_true (not_lt.mp hnt) ht)
    · rintro (⟨_, ht, hlt⟩ | ⟨h, _⟩) hiff
      · exact absurd (hiff.mpr ht) (not_le.mpr hlt)
      · exact absurd hv (not_lt.mpr h.le)

/-- The number of unit steps after which a walk in a direction with the given signs is found to have passed a
target at distance `t`. -/
def passSteps [FloorSemiring K] (vx vy t : K) : ℕ := if 0 ≤ vx ∧ 0 ≤ vy then ⌊t⌋₊ + 1 else ⌈t⌉₊

variable [FloorSemiring K] {vx vy t : K}

omit [IsStrictOrderedRing K] in
theorem passSteps_le_iff (ht : 0 < t) (hv : vx ^ 2 + vy ^ 2 = 1) (n : ℕ) :
    passSteps vx vy t ≤ n ↔ Passes vx t n ∨ Passes vy t n := by
  unfold passSteps Passes
  split
  · rename_i h
    rw [Nat.succ_le_iff, Nat.floor_lt ht.le]
    constructor
    · intro hlt
      -- a unit direction has a component that is not zero
      rcases h.1.lt_or_eq with hx | hx
      · exact Or.inl (Or.inl ⟨hx, ht.le, hlt⟩)
      · rcases h.2.lt_or_eq with hy | hy
        · exact Or.inr (Or.inl ⟨hy, ht.le, hlt⟩)
        · rw [← hx, ← hy] at hv; norm_num at hv
    · rintro ((⟨_, _, hlt⟩ | ⟨hneg, _⟩) | (⟨_, _, hlt⟩ | ⟨hneg, _⟩))
      · exact hlt
      · exact absurd h.1 (not_le.mpr hneg)
      · exact hlt
      · exact absurd h.2 (not_le.mpr hneg)
  · rename_i h
    rw [Nat.ceil_le]
    constructor
    · intro hle
      rw [not_and_or, not_le, not_le] at h
      rcases h with hx | hy
      · exact Or.inl (Or.inr ⟨hx, ht, hle⟩)
      · exact Or.inr (Or.inr ⟨hy, ht, hle⟩)
    · rintro ((⟨_, _, hlt⟩ | ⟨_, _, hle⟩) | (⟨_, _, hlt⟩ | ⟨_, _, hle⟩))
      · exact hlt.le
      · exact hle
      · exact hlt.le
      · exact hle

omit [IsStrictOrderedRing K] in
theorem passSteps_pos (ht : 0 < t) : 0 < passSteps vx vy t := by
  unfold passSteps
  split
  · exact Nat.succ_pos _
  · exact Nat.ceil_pos.mpr ht

omit [IsStrictOrderedRing K] in
theorem le_passSteps (vx vy t : K) : t ≤ passSteps vx vy t := by
  unfold passSteps
  split
  · exact_mod_cast (Nat.lt_floor_add_one t).le
  · exact Nat.le_ceil t

theorem pred_passSteps_le (vx vy : K) (ht : 0 < t) : (passSteps vx vy t : K) - 1 ≤ t := by
  unfold passSteps
  split
  · simpa using Nat.floor_le ht.le
  · linarith [Nat.ceil_lt_add_one ht.le]

theorem le_of_lt_passSteps (ht : 0 < t) {n : ℕ} (h : n < passSteps vx vy t) : (n : K) ≤ t := by
  have h1 : (n : K) + 1 ≤ passSteps vx vy t := by exact_mod_cast h
  linarith [pred_passSteps_le vx vy ht]

end Line

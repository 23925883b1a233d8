import CarBoundary.Lib.Line
import Mathlib.Data.List.Range

/-!
# Paths

A path is a list of places, and a coordinate is an integer that each place has. A walk in a straight line with
steps of at most one visits cells whose coordinates neither jump nor turn back, so that the path never returns
to a cell that it has left.
-/

namespace Path

variable {α : Type*} {coord : α → ℤ} {l : List α} {a b : α}

/-- Between consecutive places the coordinate changes by at most one. -/
def GapFree (coord : α → ℤ) (l : List α) : Prop := l.IsChain fun a b => |coord b - coord a| ≤ 1

/-- The coordinate never decreases along the path, or never increases. -/
def OneWay (coord : α → ℤ) (l : List α) : Prop :=
  (l.Pairwise fun a b => coord a ≤ coord b) ∨ l.Pairwise fun a b => coord b ≤ coord a

/-- The path never comes back to a place after it has been at another. -/
def NeverReturns (l : List α) : Prop := ∀ a b, [a, b, a].Sublist l → b = a

theorem OneWay.eq_of_sublist (h : OneWay coord l) (hs : [a, b, a].Sublist l) : coord b = coord a := by
  rcases h with h | h
  · have hpair := h.sublist hs
    simp only [List.pairwise_cons, List.mem_cons, forall_eq_or_imp] at hpair
    exact le_antisymm hpair.2.1.1 hpair.1.1
  · have hpair := h.sublist hs
    simp only [List.pairwise_cons, List.mem_cons, forall_eq_or_imp] at hpair
    exact le_antisymm hpair.1.1 hpair.2.1.1

/-! ## The places of numbered rounds -/

variable {f : ℕ → α} {n : ℕ}

theorem gapFree_map_range (h : ∀ k, k + 1 < n → |coord (f (k + 1)) - coord (f k)| ≤ 1) :
    GapFree coord ((List.range n).map f) := by
  rw [GapFree, List.isChain_map, List.isChain_range]
  intro k hk
  exact h k (by omega)

theorem pairwise_map_range {r : α → α → Prop} (h : ∀ k m, k < m → m < n → r (f k) (f m)) :
    ((List.range n).map f).Pairwise r := by
  rw [List.pairwise_map]
  refine List.pairwise_lt_range.imp_of_mem ?_
  intro k m _ hm hkm
  exact h k m hkm (List.mem_range.mp hm)

/-! ## Cells on a line -/

section

variable {K : Type*} [Field K] [LinearOrder K] [IsStrictOrderedRing K] [FloorRing K] {x v : K}

theorem abs_floor_add_sub_floor_le (x : K) (hv : |v| ≤ 1) : |⌊x + v⌋ - ⌊x⌋| ≤ 1 := by
  obtain ⟨hlo, hhi⟩ := abs_le.mp hv
  have h1 : ⌊x + v⌋ ≤ ⌊x⌋ + 1 := by
    calc ⌊x + v⌋ ≤ ⌊x + 1⌋ := Int.floor_mono (by linarith)
      _ = ⌊x⌋ + 1 := Int.floor_add_one x
  have h2 : ⌊x⌋ - 1 ≤ ⌊x + v⌋ := by
    calc ⌊x⌋ - 1 = ⌊x - 1⌋ := (Int.floor_sub_one x).symm
      _ ≤ ⌊x + v⌋ := Int.floor_mono (by linarith)
  rw [abs_le]
  exact ⟨by linarith, by linarith⟩

theorem gapFree_of_floor (hv : |v| ≤ 1) (h : ∀ k < n, coord (f k) = ⌊x + k * v⌋) :
    GapFree coord ((List.range n).map f) := by
  refine gapFree_map_range fun k hk => ?_
  have hnext : x + ((k + 1 : ℕ) : K) * v = x + k * v + v := by
    push_cast
    ring
  rw [h k (by omega), h (k + 1) hk, hnext]
  exact abs_floor_add_sub_floor_le _ hv

theorem oneWay_of_floor (h : ∀ k < n, coord (f k) = ⌊x + k * v⌋) : OneWay coord ((List.range n).map f) := by
  rcases le_total 0 v with hv | hv
  · refine Or.inl (pairwise_map_range fun k m hkm hm => ?_)
    have hle : (k : K) * v ≤ m * v := mul_le_mul_of_nonneg_right (Nat.cast_le.mpr hkm.le) hv
    rw [h k (hkm.trans hm), h m hm]
    exact Int.floor_mono (by linarith)
  · refine Or.inr (pairwise_map_range fun k m hkm hm => ?_)
    have hle : (m : K) * v ≤ k * v := mul_le_mul_of_nonpos_right (Nat.cast_le.mpr hkm.le) hv
    rw [h k (hkm.trans hm), h m hm]
    exact Int.floor_mono (by linarith)

end

end Path

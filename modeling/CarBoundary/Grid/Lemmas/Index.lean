import CarBoundary.Grid.Basic
import Mathlib.Tactic.Linarith
import Mathlib.Tactic.Ring

/-!
# The indices of cubes and columns

`CUBELOC` and `COLSTAT` number the cubes and columns of the grid without gaps and without collisions.
-/

namespace CarBoundary

variable {g : Grid}

theorem Grid.HasColumn.colLoc_mem {x y : ℤ} (h : g.HasColumn x y) :
    0 ≤ g.colLoc x y ∧ g.colLoc x y < g.numColumns := by
  obtain ⟨hx0, hx, hy0, hy⟩ := h
  have hW : (0 : ℤ) < g.cubeWidth := by exact_mod_cast g.cubeWidth_pos
  have h1 : 0 ≤ y * g.cubeWidth := mul_nonneg hy0 hW.le
  have h2 : (y + 1) * g.cubeWidth ≤ g.cubeLength * g.cubeWidth := mul_le_mul_of_nonneg_right (by omega) hW.le
  rw [Grid.colLoc, Grid.numColumns]
  push_cast
  exact ⟨by linarith, by linarith⟩

theorem Grid.cubeLoc_eq (g : Grid) (c : CubeCoord) :
    g.cubeLoc c = c.iz * g.numColumns + g.colLoc c.ix c.iy := by
  rw [Grid.cubeLoc, Grid.colLoc, Grid.numColumns]
  push_cast
  ring

theorem Grid.HasCube.cubeLoc_mem {c : CubeCoord} (h : g.HasCube c) :
    0 ≤ g.cubeLoc c ∧ g.cubeLoc c < g.numCubes := by
  obtain ⟨hcol, hz0, hz⟩ := h
  obtain ⟨hl0, hl⟩ := hcol.colLoc_mem
  have h1 : 0 ≤ c.iz * g.numColumns := mul_nonneg hz0 (Int.natCast_nonneg _)
  have h2 : (c.iz + 1) * g.numColumns ≤ g.cubeHeight * g.numColumns :=
    mul_le_mul_of_nonneg_right (by omega) (Int.natCast_nonneg _)
  have h3 : (g.numCubes : ℤ) = g.cubeHeight * g.numColumns := by
    rw [Grid.numCubes, Grid.numColumns]
    push_cast
    ring
  rw [Grid.cubeLoc_eq, h3]
  exact ⟨by linarith, by linarith⟩

theorem eq_of_mul_add_eq {n a b r q : ℤ} (hr : 0 ≤ r ∧ r < n) (hq : 0 ≤ q ∧ q < n) (he : a * n + r = b * n + q) :
    a = b ∧ r = q := by
  have hrq : r = q := by
    calc r = (a * n + r) % n := by rw [Int.mul_add_emod_self_right, Int.emod_eq_of_lt hr.1 hr.2]
      _ = (b * n + q) % n := by rw [he]
      _ = q := by rw [Int.mul_add_emod_self_right, Int.emod_eq_of_lt hq.1 hq.2]
  have hn : n ≠ 0 := by omega
  exact ⟨mul_right_cancel₀ hn (by linarith), hrq⟩

theorem Grid.HasColumn.colLoc_inj {x y x' y' : ℤ} (h : g.HasColumn x y) (h' : g.HasColumn x' y')
    (he : g.colLoc x y = g.colLoc x' y') : x = x' ∧ y = y' := by
  obtain ⟨hx0, hx, _, _⟩ := h
  obtain ⟨hx0', hx', _, _⟩ := h'
  obtain ⟨hy, hx⟩ := eq_of_mul_add_eq ⟨hx0, hx⟩ ⟨hx0', hx'⟩ he
  exact ⟨hx, hy⟩

theorem Grid.HasCube.cubeLoc_inj {c c' : CubeCoord} (h : g.HasCube c) (h' : g.HasCube c')
    (he : g.cubeLoc c = g.cubeLoc c') : c = c' := by
  rw [Grid.cubeLoc_eq, Grid.cubeLoc_eq] at he
  obtain ⟨hz, hcol⟩ := eq_of_mul_add_eq h.1.colLoc_mem h'.1.colLoc_mem he
  obtain ⟨hx, hy⟩ := h.1.colLoc_inj h'.1 hcol
  cases c
  cases c'
  simp_all

end CarBoundary

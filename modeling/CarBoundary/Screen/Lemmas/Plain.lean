import CarBoundary.Grid.Lemmas.Reachable
import CarBoundary.Screen.Lemmas.Columns
import CarBoundary.Screen.Lemmas.Pixels

/-!
# The shortcut over the column status

In a reachable state the color that `draw_depths` chooses for a column is the one that the plain renderer finds.
-/

namespace CarBoundary

variable {g : Grid} {env : Env} {x y : ℤ}

/-! ## The top layer -/

theorem find?_reverse_range_succ (p : ℕ → Bool) (n : ℕ) :
    (List.range (n + 1)).reverse.find? p = if p n then some n else (List.range n).reverse.find? p := by
  rw [List.range_succ, List.reverse_append, List.reverse_singleton, List.singleton_append, List.find?_cons]
  split
  · simp_all
  · simp_all

theorem foldl_last_match (p : ℕ → Bool) (n : ℕ) :
    (List.range n).foldl (fun zmax z => if p z then (z : ℤ) else zmax) (-1) =
      ((List.range n).reverse.find? p).elim (-1) fun z => (z : ℤ) := by
  induction n with
  | zero => rfl
  | succ n ih =>
      rw [find?_reverse_range_succ, List.range_succ, List.foldl_append, ih, List.foldl_cons, List.foldl_nil]
      by_cases h : p n = true
      · simp [h]
      · simp [h]

theorem topLayer_eq_some_iff {z : ℕ} : topLayer g env x y = some z ↔ IsTopLayer g env x y z := by
  have hfind (p : ℕ → Bool) (n : ℕ) : (List.range n).reverse.find? p = some z ↔
      z < n ∧ p z = true ∧ ∀ z', z < z' → z' < n → p z' = false := by
    induction n with
    | zero => simp
    | succ n ih =>
        rw [find?_reverse_range_succ]
        by_cases h : p n = true
        · rw [if_pos h, Option.some_inj]
          constructor
          · rintro rfl
            exact ⟨Nat.lt_succ_self n, h, fun z' h1 h2 => by omega⟩
          · rintro ⟨hz, _, hlast⟩
            by_contra hne
            exact absurd h (by simp [hlast n (by omega) (Nat.lt_succ_self n)])
        · rw [if_neg h, ih]
          constructor
          · rintro ⟨hz, hp, hlast⟩
            refine ⟨by omega, hp, fun z' h1 h2 => ?_⟩
            by_cases hz' : z' = n
            · simpa [hz'] using h
            · exact hlast z' h1 (by omega)
          · rintro ⟨hz, hp, hlast⟩
            have hzn : z ≠ n := fun he => h (he ▸ hp)
            exact ⟨by omega, hp, fun z' h1 h2 => hlast z' h1 (by omega)⟩
  rw [topLayer, hfind]
  exact ⟨fun ⟨h1, h2, h3⟩ => ⟨h1, h2, h3⟩, fun ⟨h1, h2, h3⟩ => ⟨h1, h2, h3⟩⟩

theorem topLayer_eq_none_iff : topLayer g env x y = none ↔ ∀ z < g.cubeHeight, occupiedAt g env x y z = false := by
  simp [topLayer, List.find?_eq_none]

theorem zmaxOf_eq : zmaxOf g env x y = (topLayer g env x y).elim (-1) fun z => (z : ℤ) :=
  foldl_last_match _ _

/-! ## The color of a column -/

variable {cfg : Config} {cubeColor : ℕ → BitVec 32}

theorem zmaxColor_eq : zmaxColor cubeColor g env x y = layerColor cubeColor (topLayer g env x y) := by
  rw [zmaxColor, zmaxOf_eq]
  cases htop : topLayer g env x y with
  | none => rfl
  | some z =>
      have hz : z < g.cubeHeight := (topLayer_eq_some_iff.mp htop).lt
      simp [hz, layerColor]

theorem ColumnsCover.topLayer_eq_none (h : ColumnsCover g env) (hcol : g.HasColumn x y)
    (hclear : env.columnStatus (g.colLoc x y) = .clear) : topLayer g env x y = none := by
  rw [topLayer_eq_none_iff]
  intro z hz
  have hcube : g.HasCube ⟨x, y, z⟩ := ⟨hcol, Int.natCast_nonneg z, Int.ofNat_lt.mpr hz⟩
  obtain ⟨hknown, hguess⟩ := h ⟨x, y, z⟩ hcube hclear
  have hno : ¬ Int8.ofNat minCount ≤ 0 := by decide
  simp [occupiedAt, Cube.occupied, hknown, hguess, hno]

/-- The three branches of `draw_depths` give the color of the plain renderer. -/
theorem ColumnsCover.columnColor_eq (h : ColumnsCover cfg.grid env) (hcol : cfg.grid.HasColumn x y) :
    columnColor cfg cubeColor env x y = plainColor cfg cubeColor env x y := by
  have hcar : (x < cfg.carCubeLeft ∨ x > cfg.carCubeRight ∨ y < cfg.carCubeRear ∨ y > cfg.carCubeFront) ↔
      ¬ InCar cfg x y := by
    simp only [InCar, not_and_or, not_le, gt_iff_lt]
  simp only [columnColor, plainColor, hcar, ite_not]
  by_cases hin : InCar cfg x y
  · rw [if_pos hin, if_pos hin]
  · rw [if_neg hin, if_neg hin, zmaxColor_eq]
    cases hs : env.columnStatus (cfg.grid.colLoc x y) with
    | clear => simp [h.topLayer_eq_none hcol hs, layerColor]
    | known => simp
    | guessed => simp

theorem pixelCall_color {F : Type*} [Mul F] [Div F] [NatCast F] [ToInt F] (henv : Reachable cfg.grid env)
    (hgrid : ScalesIntoGrid F cfg) (cubeColor : ℕ → BitVec 32) {p : ℕ × ℕ} (hp : p ∈ screenPositions cfg) :
    (pixelCall F cfg cubeColor env p).color = plainColor cfg cubeColor env (scaleX F cfg p.1) (scaleY F cfg p.2) := by
  obtain ⟨hx, hy⟩ := mem_screenPositions.mp hp
  exact henv.columnsCover.columnColor_eq (hgrid p.1 hx p.2 hy)

/-- In exact arithmetic the column is found by division of integers. -/
theorem pixelCall_color_exact {K : Type*} [Field K] [LinearOrder K] [IsStrictOrderedRing K] [FloorRing K]
    (henv : Reachable cfg.grid env) (cubeColor : ℕ → BitVec 32) {p : ℕ × ℕ} (hp : p ∈ screenPositions cfg) :
    (pixelCall K cfg cubeColor env p).color = plainPixel cfg cubeColor env p.1 p.2 := by
  rw [pixelCall_color henv (scalesIntoGrid_exact K cfg) cubeColor hp, scaleX_eq, scaleY_eq, plainPixel]

end CarBoundary

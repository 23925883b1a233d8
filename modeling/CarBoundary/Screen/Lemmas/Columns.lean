import CarBoundary.Grid.Lemmas.Index
import CarBoundary.Screen.Draw
import Mathlib.Algebra.Order.Floor.Semifield

/-!
# The columns that the screen shows

The scaling of a screen position is to hit a column of the grid (`ScalesIntoGrid`). In exact arithmetic it is a
division of natural numbers, and it does.
-/

namespace CarBoundary

/-! ## Scaling -/

/-- Every screen position is scaled to a column of the grid. -/
def ScalesIntoGrid (F : Type*) [Mul F] [Div F] [NatCast F] [ToInt F] (cfg : Config) : Prop :=
  ∀ sx < cfg.screenWidth, ∀ sy < cfg.screenHeight, cfg.grid.HasColumn (scaleX F cfg sx) (scaleY F cfg sy)

section

variable (K : Type*) [Field K] [LinearOrder K] [IsStrictOrderedRing K] [FloorRing K] (cfg : Config)

theorem toInt_scale (n m k : ℕ) : toInt ((n : K) / (m : K) * (k : K)) = ((n * k / m : ℕ) : ℤ) := by
  have hx : (n : K) / (m : K) * (k : K) = ((n * k : ℕ) : K) / (m : K) := by
    push_cast
    ring
  rw [hx, ToInt.toInt_of_nonneg (div_nonneg (Nat.cast_nonneg _) (Nat.cast_nonneg _)),
    ← Int.natCast_floor_eq_floor (div_nonneg (Nat.cast_nonneg _) (Nat.cast_nonneg _)), Nat.floor_div_eq_div]

theorem scaleX_eq (sx : ℕ) : scaleX K cfg sx = ((sx * cfg.grid.cubeWidth / cfg.screenWidth : ℕ) : ℤ) :=
  toInt_scale K _ _ _

theorem scaleY_eq (sy : ℕ) : scaleY K cfg sy = ((sy * cfg.grid.cubeLength / cfg.screenHeight : ℕ) : ℤ) :=
  toInt_scale K _ _ _

theorem scale_lt {n m k : ℕ} (hn : n < m) (hk : 0 < k) : n * k / m < k := by
  rw [Nat.div_lt_iff_lt_mul (by omega), Nat.mul_comm k m]
  exact Nat.mul_lt_mul_of_pos_right hn hk

theorem scalesIntoGrid_exact : ScalesIntoGrid K cfg := by
  intro sx hx sy hy
  rw [scaleX_eq, scaleY_eq]
  refine ⟨Int.natCast_nonneg _, ?_, Int.natCast_nonneg _, ?_⟩
  · exact_mod_cast scale_lt hx cfg.grid.cubeWidth_pos
  · exact_mod_cast scale_lt hy cfg.grid.cubeLength_pos

end

/-! ## What the color of a column depends on -/

variable {cfg : Config} {cubeColor : ℕ → BitVec 32}

theorem zmaxOf_congr {g : Grid} {env env' : Env} {x y : ℤ}
    (h : ∀ z < g.cubeHeight, occupiedAt g env x y z = occupiedAt g env' x y z) :
    zmaxOf g env x y = zmaxOf g env' x y := by
  refine List.foldl_ext _ _ _ fun zmax z hz => ?_
  rw [h z (List.mem_range.mp hz)]

theorem columnColor_congr {env env' : Env} {x y : ℤ}
    (hocc : ∀ z < cfg.grid.cubeHeight, occupiedAt cfg.grid env x y z = occupiedAt cfg.grid env' x y z)
    (hcol : env.columnStatus (cfg.grid.colLoc x y) = env'.columnStatus (cfg.grid.colLoc x y)) :
    columnColor cfg cubeColor env x y = columnColor cfg cubeColor env' x y := by
  simp only [columnColor, zmaxColor, hcol, zmaxOf_congr hocc]

theorem drawDepths_congr {F σ : Type*} [Mul F] [Div F] [NatCast F] [ToInt F] {put : ℕ → ℕ → BitVec 32 → σ → σ}
    {env env' : Env}
    (h : ∀ sx < cfg.screenWidth, ∀ sy < cfg.screenHeight,
      columnColor cfg cubeColor env (scaleX F cfg sx) (scaleY F cfg sy) =
        columnColor cfg cubeColor env' (scaleX F cfg sx) (scaleY F cfg sy)) (s : σ) :
    drawDepths F cfg cubeColor put env s = drawDepths F cfg cubeColor put env' s := by
  refine List.foldl_ext _ _ _ fun s sx hx => List.foldl_ext _ _ _ fun s sy hy => ?_
  rw [h sx (List.mem_range.mp hx) sy (List.mem_range.mp hy)]

end CarBoundary

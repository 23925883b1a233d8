import CarBoundary.Lib.Sampling
import CarBoundary.Screen.Lemmas.Plain
import CarBoundary.Screen.Theorems.Palette
import CarBoundary.Sensor.Lemmas.Beam
import CarBoundary.Sensor.Lemmas.Wall

/-!
# Which obstacles are visible

`draw_depths` shows one column for each screen position, the one that its own arithmetic scales the position to. An
obstacle is visible exactly if some column that is shown has the same top layer, and all obstacles are visible exactly
if every column outside the car is shown.
-/

namespace CarBoundary

open Sampling

/-! ## The palette -/

theorem paletteColor_ne (g : Grid) (z : ℕ) : paletteColor g z ≠ carColor ∧ paletteColor g z ≠ nullColor := by
  have hbit : (paletteColor g z).getLsbD 0 = true := by
    simp [paletteColor]
  constructor
  · intro he
    rw [he] at hbit
    cases hbit
  · intro he
    rw [he] at hbit
    cases hbit

theorem layer_of_plainColor {cfg : Config} {env : Env} {x y : ℤ} {z : ℕ}
    (h : plainColor cfg (paletteColor cfg.grid) env x y = paletteColor cfg.grid z) :
    ¬ InCar cfg x y ∧ ∃ z', topLayer cfg.grid env x y = some z' ∧ shade cfg.grid z' = shade cfg.grid z := by
  rw [plainColor] at h
  split at h
  · exact absurd h.symm (paletteColor_ne cfg.grid z).1
  · rename_i hout
    refine ⟨hout, ?_⟩
    cases htop : topLayer cfg.grid env x y with
    | some z' =>
        rw [htop] at h
        exact ⟨z', rfl, paletteColor_eq_iff.mp h⟩
    | none =>
        rw [htop] at h
        exact absurd h.symm (paletteColor_ne cfg.grid z).2

/-! ## Visible obstacles -/

structure Obstacle (cfg : Config) (env : Env) (x y : ℤ) (z : ℕ) : Prop where
  hasColumn : cfg.grid.HasColumn x y
  outside : ¬ InCar cfg x y
  top : IsTopLayer cfg.grid env x y z

section

variable (F : Type*) [Mul F] [Div F] [NatCast F] [ToInt F] (cfg : Config)

/-- Some screen position is scaled to the column. -/
def ColumnShown (x y : ℤ) : Prop := ∃ p ∈ screenPositions cfg, scaleX F cfg p.1 = x ∧ scaleY F cfg p.2 = y

/-- Some column that is shown has a top layer of the same shade. In a grid of up to 256 layers this is the layer
itself. -/
def LayerShown (env : Env) (z : ℕ) : Prop :=
  ∃ x y z', ColumnShown F cfg x y ∧ ¬ InCar cfg x y ∧ IsTopLayer cfg.grid env x y z' ∧
    shade cfg.grid z' = shade cfg.grid z

def LayerPainted (env : Env) (z : ℕ) : Prop :=
  ∃ call ∈ drawLog F cfg (paletteColor cfg.grid) env, call.color = paletteColor cfg.grid z

/-- After every poll, of any devices with any frames, every obstacle is visible. The devices may compute in another
arithmetic than the screen. -/
def EveryObstacleVisible (K : Type*) [Add K] [Mul K] [Div K] [NatCast K] [LT K] [LE K] [DecidableLT K] [DecidableLE K]
    [ToInt K] : Prop :=
  ∀ (t : Tables K) (devices : List (KDevice K × Option Frame)) (env : Env),
    (∀ m ∈ readingsMarks cfg.grid t (pollReadings devices), cfg.grid.HasCube m.cube) →
      ∀ x y z, Obstacle cfg (kinectPoll cfg.grid t devices env) x y z →
        LayerPainted F cfg (kinectPoll cfg.grid t devices env) z

end

section

variable {F : Type*} [Mul F] [Div F] [NatCast F] [ToInt F] {cfg : Config} {env : Env}

theorem layerPainted_iff (henv : Reachable cfg.grid env) (hgrid : ScalesIntoGrid F cfg) (z : ℕ) :
    LayerPainted F cfg env z ↔ LayerShown F cfg env z := by
  rw [LayerPainted, exists_mem_drawLog]
  constructor
  · rintro ⟨p, hp, hcolor⟩
    rw [pixelCall_color henv hgrid _ hp] at hcolor
    obtain ⟨hout, z', htop, hshade⟩ := layer_of_plainColor hcolor
    exact ⟨_, _, z', ⟨p, hp, rfl, rfl⟩, hout, topLayer_eq_some_iff.mp htop, hshade⟩
  · rintro ⟨x, y, z', ⟨p, hp, rfl, rfl⟩, hout, htop, hshade⟩
    refine ⟨p, hp, ?_⟩
    rw [pixelCall_color henv hgrid _ hp, plainColor, if_neg hout, topLayer_eq_some_iff.mpr htop]
    exact paletteColor_eq_iff.mpr hshade

theorem Obstacle.layerPainted (henv : Reachable cfg.grid env) (hgrid : ScalesIntoGrid F cfg) {x y : ℤ} {z : ℕ}
    (h : Obstacle cfg env x y z) (hshown : ColumnShown F cfg x y) : LayerPainted F cfg env z :=
  (layerPainted_iff henv hgrid z).mpr ⟨x, y, z, hshown, h.outside, h.top, rfl⟩

/-- Whatever the arithmetic, a screen with fewer rows of pixels than there are rows of columns shows no column of some
row. -/
theorem exists_row_not_shown (F : Type*) [Mul F] [Div F] [NatCast F] [ToInt F]
    (h : cfg.screenHeight < cfg.grid.cubeLength) :
    ∃ y : ℤ, 0 ≤ y ∧ y < cfg.grid.cubeLength ∧ ∀ x, ¬ ColumnShown F cfg x y := by
  have hcard : ((Finset.range cfg.screenHeight).image (scaleY F cfg)).card <
      (Finset.Ico 0 (cfg.grid.cubeLength : ℤ)).card := by
    refine lt_of_le_of_lt Finset.card_image_le ?_
    rw [Finset.card_range, Int.card_Ico]
    omega
  obtain ⟨y, hy, hmissed⟩ := Finset.exists_mem_notMem_of_card_lt_card hcard
  obtain ⟨h0, hlt⟩ := Finset.mem_Ico.mp hy
  refine ⟨y, h0, hlt, fun x => ?_⟩
  rintro ⟨p, hp, _, hrow⟩
  exact hmissed (Finset.mem_image.mpr ⟨p.2, Finset.mem_range.mpr (mem_screenPositions.mp hp).2, hrow⟩)

end

section

variable {K : Type*} [Field K] [LinearOrder K] [IsStrictOrderedRing K] [FloorRing K] {cfg : Config}

omit [IsStrictOrderedRing K] in
theorem kinectPoll_topPatch {g : Grid} {t : Tables K} {dev : KDevice K} {x y : ℤ} (hcol : g.HasColumn x y)
    (hid : dev.id ≠ 0) (hpatch : PatchIn g t dev 1 ⟨x, y, g.cubeHeight - 1⟩) (env : Env) :
    IsTopLayer g (kinectPoll g t [(dev, some (patchFrame 1))] env) x y (g.cubeHeight - 1) := by
  have hH := g.cubeHeight_pos
  have hz : ((g.cubeHeight - 1 : ℕ) : ℤ) = g.cubeHeight - 1 := Nat.cast_pred hH
  have hcube : g.HasCube ⟨x, y, g.cubeHeight - 1⟩ := ⟨hcol, by dsimp only; omega, by dsimp only; omega⟩
  refine ⟨by omega, ?_, fun z' h1 h2 => by omega⟩
  rw [occupiedAt, hz]
  exact hpatch.occupied hcube hid (by decide) env

/-- For every column outside the car there is a poll after which it holds the only obstacle. -/
theorem EveryObstacleVisible.columnShown {F : Type*} [Mul F] [Div F] [NatCast F] [ToInt F]
    (hgrid : ScalesIntoGrid F cfg) (hall : EveryObstacleVisible F cfg K) {x y : ℤ} (hcol : cfg.grid.HasColumn x y)
    (hout : ¬ InCar cfg x y) :
    ColumnShown F cfg x y := by
  have hL : 2 ≤ cfg.grid.cubeLength := by
    have := cfg.envLength_pos
    simp only [Config.grid, cubeYScale]
    omega
  have hH : 2 ≤ cfg.grid.cubeHeight := by
    have := cfg.envHeight_pos
    simp only [Config.grid, cubeZScale]
    omega
  obtain ⟨t, dev, hid, hpatch, hno⟩ := exists_topPatch K ⟨hL, hH⟩ hcol
  have hin : ∀ m ∈ readingsMarks cfg.grid t (pollReadings [(dev, some (patchFrame 1))]), cfg.grid.HasCube m.cube := by
    rw [pollReadings_singleton]
    exact fun m hm => hpatch.hasCube_of_mem hm
  have hobstacle : Obstacle cfg (kinectPoll cfg.grid t [(dev, some (patchFrame 1))] Env.initial) x y
      (cfg.grid.cubeHeight - 1) := ⟨hcol, hout, kinectPoll_topPatch hcol hid hpatch Env.initial⟩
  have hpainted := hall t _ Env.initial hin x y _ hobstacle
  obtain ⟨x', y', z', hshown, _, htop, _⟩ :=
    (layerPainted_iff (kinectPoll_reachable Env.initial hin) hgrid _).mp hpainted
  -- the only occupied cube of this poll is in the column
  obtain ⟨p, hp, hx, hy⟩ := hshown
  have hcol' : cfg.grid.HasColumn x' y' := by
    rw [← hx, ← hy]
    exact hgrid p.1 (mem_screenPositions.mp hp).1 p.2 (mem_screenPositions.mp hp).2
  have hcube' : cfg.grid.HasCube ⟨x', y', z'⟩ := ⟨hcol', Int.natCast_nonneg _, Int.ofNat_lt.mpr htop.lt⟩
  have hsame := hpatch.eq_of_occupied hid hcube' hno htop.occupied
  rw [CubeCoord.mk.injEq] at hsame
  exact ⟨p, hp, hx.trans hsame.1, hy.trans hsame.2.1⟩

end

/-- An obstacle of a reachable state is visible exactly if some column that is shown has the same top layer. All
obstacles of all reachable states are visible exactly if every column outside the car is shown, and the same holds of
the states that polls in exact arithmetic lead to. -/
theorem everyObstacleVisible_iff (K : Type*) [Field K] [LinearOrder K] [IsStrictOrderedRing K] [FloorRing K]
    {F : Type*} [Mul F] [Div F] [NatCast F] [ToInt F] (cfg : Config) (hgrid : ScalesIntoGrid F cfg) :
    (∀ env, Reachable cfg.grid env → ∀ x y z, Obstacle cfg env x y z →
      (LayerPainted F cfg env z ↔ LayerShown F cfg env z)) ∧
    ((∀ env, Reachable cfg.grid env → ∀ x y z, Obstacle cfg env x y z → LayerPainted F cfg env z) ↔
      ∀ x y, cfg.grid.HasColumn x y → ¬ InCar cfg x y → ColumnShown F cfg x y) ∧
    (EveryObstacleVisible F cfg K ↔
      ∀ x y, cfg.grid.HasColumn x y → ¬ InCar cfg x y → ColumnShown F cfg x y) := by
  have hvisible : (∀ env, Reachable cfg.grid env → ∀ x y z, Obstacle cfg env x y z → LayerPainted F cfg env z) →
      EveryObstacleVisible F cfg K :=
    fun hall t devices env hmarks => hall _ (kinectPoll_reachable env hmarks)
  have henough : (∀ x y, cfg.grid.HasColumn x y → ¬ InCar cfg x y → ColumnShown F cfg x y) →
      ∀ env, Reachable cfg.grid env → ∀ x y z, Obstacle cfg env x y z → LayerPainted F cfg env z :=
    fun hall env henv x y z h => h.layerPainted henv hgrid (hall x y h.hasColumn h.outside)
  refine ⟨fun env henv x y z _ => layerPainted_iff henv hgrid z, ⟨fun hall x y hcol hout => ?_, henough⟩,
    fun hall x y hcol hout => hall.columnShown hgrid hcol hout, fun hall => hvisible (henough hall)⟩
  exact (hvisible hall).columnShown hgrid hcol hout

/-! ## Exact arithmetic -/

/-- Some multiple of the width of the grid lies in the column, and of its length in the row. -/
def ColumnSampled (cfg : Config) (x y : ℤ) : Prop :=
  Sampled cfg.screenWidth cfg.grid.cubeWidth x ∧ Sampled cfg.screenHeight cfg.grid.cubeLength y

theorem columnShown_iff_sampled (K : Type*) [Field K] [LinearOrder K] [IsStrictOrderedRing K] [FloorRing K]
    {cfg : Config} {x y : ℤ} (hcol : cfg.grid.HasColumn x y) : ColumnShown K cfg x y ↔ ColumnSampled cfg x y := by
  rw [ColumnSampled, sampled_iff cfg.screenWidth_pos hcol.2.1, sampled_iff cfg.screenHeight_pos hcol.2.2.2]
  constructor
  · rintro ⟨p, hp, hx, hy⟩
    obtain ⟨hx', hy'⟩ := mem_screenPositions.mp hp
    rw [scaleX_eq] at hx
    rw [scaleY_eq] at hy
    exact ⟨⟨p.1, hx', hx⟩, p.2, hy', hy⟩
  · rintro ⟨⟨sx, hx, rfl⟩, ⟨sy, hy, rfl⟩⟩
    exact ⟨(sx, sy), mem_screenPositions.mpr ⟨hx, hy⟩, scaleX_eq K cfg sx, scaleY_eq K cfg sy⟩

def tallScreen : Config := { Config.shipped with screenHeight := 450, screenHeight_pos := by decide }

/-- In exact arithmetic a screen with a row of pixels for every row of columns shows all obstacles. -/
theorem tallScreen_visible : EveryObstacleVisible ℚ tallScreen ℚ :=
  (everyObstacleVisible_iff ℚ tallScreen (scalesIntoGrid_exact ℚ tallScreen)).2.2.mpr fun _ _ hcol _ =>
    (columnShown_iff_sampled ℚ hcol).mpr
      ⟨sampled_of_le (by decide) (by decide) hcol.1, sampled_of_le (by decide) (by decide) hcol.2.2.1⟩

noncomputable section

/-- The cubes after one poll of the device in front of the wall. -/
def frontEnv : Env :=
  kinectPoll Config.shipped.grid (kinectTables realLibm) [(frontDevice, some (patchFrame 1))] Env.initial

theorem frontEnv_reachable : Reachable Config.shipped.grid frontEnv := by
  refine kinectPoll_reachable Env.initial fun m hm => ?_
  rw [pollReadings_singleton] at hm
  exact frontDevice_patchIn.hasCube_of_mem hm

theorem frontEnv_occupied : occupiedAt Config.shipped.grid frontEnv 180 449 14 = true := by
  have hcube : (⟨180, 449, (14 : ℕ)⟩ : CubeCoord) = frontCube := rfl
  rw [occupiedAt, frontEnv, hcube]
  exact frontDevice_patchIn.occupied wallIn_frontCube.hasCube frontDevice_id (by decide) Env.initial

theorem frontEnv_only {x y : ℤ} {z : ℕ} (hcube : Config.shipped.grid.HasCube ⟨x, y, z⟩)
    (ho : occupiedAt Config.shipped.grid frontEnv x y z = true) : y = 449 ∧ z = 14 := by
  have hno : ∀ m ∈ readingsMarks Config.shipped.grid (kinectTables realLibm)
      (deviceReadings frontDevice (some (patchFrame 1))), m.isGuess = false := by
    intro m hm
    by_contra hg
    have hbehind := frontDevice_patchIn.behind_of_guess hm (Bool.eq_true_of_not_eq_false hg)
    have hin := (frontDevice_patchIn.hasCube_of_mem hm).1.2.2.2
    simp only [frontCube, Config.grid, Config.shipped, cubeYScale] at hbehind hin
    omega
  rw [occupiedAt, frontEnv] at ho
  have hsame := frontDevice_patchIn.eq_of_occupied frontDevice_id hcube hno ho
  rw [frontCube, CubeCoord.mk.injEq] at hsame
  exact ⟨hsame.2.1, by omega⟩

/-- On the shipped screen the wall is not painted, since the screen shows no column of the last row. -/
theorem frontWall_invisible :
    Reachable Config.shipped.grid frontEnv ∧ Obstacle Config.shipped frontEnv 180 449 14 ∧
      ¬ LayerPainted ℝ Config.shipped frontEnv 14 := by
  have hcol : Config.shipped.grid.HasColumn 180 449 := by decide
  refine ⟨frontEnv_reachable, ⟨hcol, by decide +kernel, by decide, frontEnv_occupied, ?_⟩, ?_⟩
  · intro z' h1 h2
    by_contra ho
    have hz := (frontEnv_only ⟨hcol, Int.natCast_nonneg z', Int.ofNat_lt.mpr h2⟩ (Bool.eq_true_of_not_eq_false ho)).2
    omega
  · intro hpainted
    obtain ⟨x, y, z, hshown, _, htop, _⟩ :=
      (layerPainted_iff frontEnv_reachable (scalesIntoGrid_exact ℝ Config.shipped) 14).mp hpainted
    obtain ⟨p, hp, hx, hy⟩ := hshown
    obtain ⟨hp1, hp2⟩ := mem_screenPositions.mp hp
    have hxy : Config.shipped.grid.HasColumn x y := hx ▸ hy ▸ scalesIntoGrid_exact ℝ Config.shipped p.1 hp1 p.2 hp2
    have hrow := (frontEnv_only ⟨hxy, Int.natCast_nonneg z, Int.ofNat_lt.mpr htop.lt⟩ htop.occupied).1
    have hsampled := ((columnShown_iff_sampled ℝ hxy).mp ⟨p, hp, hx, hy⟩).2
    rw [hrow] at hsampled
    exact not_sampled_last (by decide : 400 < 450) hsampled

end

end CarBoundary

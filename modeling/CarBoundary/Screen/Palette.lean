import CarBoundary.Lib.Loop
import CarBoundary.Sensor.Device
import CarBoundary.Screen.Draw

/-!
# The palette of heights

The array `cubeColor`, the loop of `kinect_init` that fills it, the index at which `draw_depths` reads it, and
the components that `setPixel` takes out of a color.
-/

namespace CarBoundary

/-- The length of the array: `int cubeColor[20]`. -/
def cubeColorLength : ℕ := 20

/-- The loop of `kinect_init` over the layers. The argument `put` stands for `cubeColor[i] = color`. -/
def fillPalette {σ : Type*} (g : Grid) (put : ℕ → BitVec 32 → σ → σ) (s : σ) : σ :=
  (List.range g.cubeHeight).foldl (fun s i => put i (paletteColor g i) s) s

/-- What the loop leaves in the array, and in the places beyond its end that it writes. -/
def initPalette (g : Grid) : ℕ → BitVec 32 :=
  fillPalette g (fun i color colors => Function.update colors i color) fun _ => 0

def paletteWrites (g : Grid) : List ℕ := fillPalette g (fun i _ log => log ++ [i]) []

/-- The index at which `draw_depths` reads the array for a column, if it does. -/
def paletteRead (cfg : Config) (env : Env) (x y : ℤ) : Option ℕ :=
  if x < cfg.carCubeLeft ∨ x > cfg.carCubeRight ∨ y < cfg.carCubeRear ∨ y > cfg.carCubeFront then
    if env.columnStatus (cfg.grid.colLoc x y) = .known ∨ env.columnStatus (cfg.grid.colLoc x y) = .guessed then
      if zmaxOf cfg.grid env x y ≥ 0 ∧ zmaxOf cfg.grid env x y < cfg.grid.cubeHeight then
        some (zmaxOf cfg.grid env x y).toNat
      else none
    else none
  else none

/-! ## The components of a color -/

def redOf (color : BitVec 32) : BitVec 8 := ((color &&& 0xFF0000) >>> 16).setWidth 8

def greenOf (color : BitVec 32) : BitVec 8 := ((color &&& 0xFF00) >>> 8).setWidth 8

def blueOf (color : BitVec 32) : BitVec 8 := (color &&& 0xFF).setWidth 8

theorem mapColor_eq (mapRGB : MapRGB) (color : BitVec 32) :
    mapColor mapRGB color = mapRGB (redOf color) (greenOf color) (blueOf color) := rfl

/-! ## Writes and reads -/

theorem foldl_update_range {α : Type*} (f : ℕ → α) (c : ℕ → α) (n i : ℕ) :
    ((List.range n).foldl (fun c i => Function.update c i (f i)) c) i = if i < n then f i else c i := by
  induction n with
  | zero => simp
  | succ n ih =>
      rw [List.range_succ, List.foldl_append, List.foldl_cons, List.foldl_nil]
      by_cases h : i = n
      · subst h
        simp
      · rw [Function.update_of_ne h, ih]
        have hlt : i < n + 1 ↔ i < n := by omega
        simp only [hlt]

theorem initPalette_eq {g : Grid} {i : ℕ} (h : i < g.cubeHeight) : initPalette g i = paletteColor g i := by
  rw [initPalette, fillPalette, foldl_update_range, if_pos h]

theorem paletteWrites_eq (g : Grid) : paletteWrites g = List.range g.cubeHeight := by
  rw [paletteWrites, fillPalette, Loop.foldl_snoc (fun i => i), List.nil_append, List.map_id']

theorem lt_cubeHeight_of_paletteRead {cfg : Config} {env : Env} {x y : ℤ} {i : ℕ}
    (h : i ∈ paletteRead cfg env x y) : i < cfg.grid.cubeHeight := by
  unfold paletteRead at h
  split at h
  · split at h
    · split at h
      · rename_i hz
        obtain rfl := Option.mem_some_iff.mp h
        omega
      · cases h
    · cases h
  · cases h

/-- The color of a column depends on the array at this index only. -/
theorem columnColor_eq_of_paletteRead (cfg : Config) (colors : ℕ → BitVec 32) (env : Env) (x y : ℤ) :
    columnColor cfg colors env x y = match paletteRead cfg env x y with
      | some i => colors i
      | none => columnColor cfg (fun _ => nullColor) env x y := by
  unfold paletteRead columnColor zmaxColor
  by_cases hcar : x < cfg.carCubeLeft ∨ x > cfg.carCubeRight ∨ y < cfg.carCubeRear ∨ y > cfg.carCubeFront
  · simp only [hcar, if_true]
    by_cases hz : zmaxOf cfg.grid env x y ≥ 0 ∧ zmaxOf cfg.grid env x y < cfg.grid.cubeHeight
    · simp only [hz]
      cases env.columnStatus (cfg.grid.colLoc x y) <;> simp
    · simp only [hz]
      cases env.columnStatus (cfg.grid.colLoc x y) <;> simp
  · simp only [hcar, if_false]

end CarBoundary

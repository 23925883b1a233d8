import CarBoundary.Grid.Basic

/-!
# Drawing the grid

`draw_depths` and `setPixel`. `draw_depths` takes what `setPixel` does as an argument, so that the same code
also gives the list of its calls (`drawLog`). `SDL_MapRGB` is a parameter.
-/

namespace CarBoundary

def nullColor : BitVec 32 := 0xFFFFCC

def carColor : BitVec 32 := 0x006600

/-! ## The surface -/

/-- What `setPixel` uses of the surface `render`. The bytes are addressed from `render->pixels` on. -/
structure Surface where
  width : ℕ
  height : ℕ
  pitch : ℕ
  bytesPerPixel : ℕ
  pixels : ℤ → BitVec 8
  bytesPerPixel_le : bytesPerPixel ≤ 4
  row_le_pitch : bytesPerPixel * width ≤ pitch

/-- `SDL_MapRGB` for the format of the surface. -/
abbrev MapRGB := BitVec 8 → BitVec 8 → BitVec 8 → BitVec 32

/-- The integer that `setPixel` stores for a color. -/
def mapColor (mapRGB : MapRGB) (color : BitVec 32) : BitVec 32 :=
  mapRGB (((color &&& 0xFF0000) >>> 16).setWidth 8) (((color &&& 0xFF00) >>> 8).setWidth 8)
    ((color &&& 0xFF).setWidth 8)

def byteAt (col : BitVec 32) (k : ℕ) : BitVec 8 := (col >>> (8 * k)).setWidth 8

/-- `pPosition` for column `x` and row `y` of the surface, counted from the top. -/
def Surface.position (s : Surface) (x y : ℤ) : ℤ := s.pitch * y + s.bytesPerPixel * x

def setPixel (mapRGB : MapRGB) (x y : ℤ) (color : BitVec 32) (s : Surface) : Surface :=
  let col := mapColor mapRGB color
  let pPosition := s.position x (s.height - y - 1)
  { s with pixels := fun a =>
      if pPosition ≤ a ∧ a < pPosition + s.bytesPerPixel then byteAt col (a - pPosition).toNat else s.pixels a }

/-! ## The picture -/

section

variable (F : Type*) [Mul F] [Div F] [NatCast F] [ToInt F] (cfg : Config)

/-- The column `x` of a screen column: `(int) (((FP_TYPE) sx / (FP_TYPE) SCREEN_WIDTH) * (FP_TYPE) CUBE_WIDTH)`. -/
def scaleX (sx : ℕ) : ℤ := toInt ((sx : F) / (cfg.screenWidth : F) * (cfg.grid.cubeWidth : F))

def scaleY (sy : ℕ) : ℤ := toInt ((sy : F) / (cfg.screenHeight : F) * (cfg.grid.cubeLength : F))

end

section

variable (cfg : Config) (cubeColor : ℕ → BitVec 32) (env : Env)

def occupiedAt (g : Grid) (env : Env) (x y : ℤ) (z : ℕ) : Bool := (env.environmentCubes (g.cubeLoc ⟨x, y, z⟩)).occupied

/-- The loop over `z`: `zmax` is the last layer that passes the test. -/
def zmaxOf (g : Grid) (env : Env) (x y : ℤ) : ℤ :=
  (List.range g.cubeHeight).foldl (fun zmax z => if occupiedAt g env x y z then (z : ℤ) else zmax) (-1)

def zmaxColor (g : Grid) (env : Env) (x y : ℤ) : BitVec 32 :=
  let zmax := zmaxOf g env x y
  if zmax ≥ 0 ∧ zmax < g.cubeHeight then cubeColor zmax.toNat else nullColor

/-- The color that `draw_depths` passes to `setPixel` where the screen position shows column `x`, `y`. -/
def columnColor (x y : ℤ) : BitVec 32 :=
  if x < cfg.carCubeLeft ∨ x > cfg.carCubeRight ∨ y < cfg.carCubeRear ∨ y > cfg.carCubeFront then
    if env.columnStatus (cfg.grid.colLoc x y) = .known then zmaxColor cubeColor cfg.grid env x y
    else if env.columnStatus (cfg.grid.colLoc x y) = .guessed then zmaxColor cubeColor cfg.grid env x y
    else nullColor
  else carColor

end

/-- `draw_depths`. The argument `put` stands for `setPixel(sx, sy, color)`. -/
def drawDepths (F : Type*) [Mul F] [Div F] [NatCast F] [ToInt F] {σ : Type*} (cfg : Config)
    (cubeColor : ℕ → BitVec 32) (put : ℕ → ℕ → BitVec 32 → σ → σ) (env : Env) (s : σ) : σ :=
  (List.range cfg.screenWidth).foldl (fun s sx =>
    (List.range cfg.screenHeight).foldl (fun s sy =>
      put sx sy (columnColor cfg cubeColor env (scaleX F cfg sx) (scaleY F cfg sy)) s) s) s

def paint (F : Type*) [Mul F] [Div F] [NatCast F] [ToInt F] (cfg : Config) (cubeColor : ℕ → BitVec 32)
    (mapRGB : MapRGB) (env : Env) (s : Surface) : Surface :=
  drawDepths F cfg cubeColor (fun sx sy color s => setPixel mapRGB sx sy color s) env s

structure PixelCall where
  sx : ℕ
  sy : ℕ
  color : BitVec 32

/-- The calls of `setPixel` in the order in which `draw_depths` makes them. -/
def drawLog (F : Type*) [Mul F] [Div F] [NatCast F] [ToInt F] (cfg : Config) (cubeColor : ℕ → BitVec 32)
    (env : Env) : List PixelCall :=
  drawDepths F cfg cubeColor (fun sx sy color log => log ++ [⟨sx, sy, color⟩]) env []

end CarBoundary

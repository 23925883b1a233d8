import CarBoundary.Lib.ToInt
import Mathlib.Data.Rat.Floor

/-!
# The grid of cubes and what is stored in it

`device_definitions.h` and the first lines of `boundary_main.c`. The two arrays are functions of the index
the macros `CUBELOC` and `COLSTAT` compute; an index outside the array is a place of its own, which no
element of the array shares.
-/

namespace CarBoundary

/-! ## Sizes -/

/-- `CUBE_XSCALE`: cubes per meter from left to right. -/
def cubeXScale : ℕ := 30

/-- `CUBE_YSCALE`: cubes per meter from front to back. -/
def cubeYScale : ℕ := 30

/-- `CUBE_ZSCALE`: cubes per meter of height. -/
def cubeZScale : ℕ := 10

/-- `MIN_COUNT`: how many pixels should recognize a cube before it's recognized. -/
def minCount : ℕ := 5

/-- `CUBE_WIDTH`, `CUBE_LENGTH` and `CUBE_HEIGHT`. -/
structure Grid where
  cubeWidth : ℕ
  cubeLength : ℕ
  cubeHeight : ℕ
  cubeWidth_pos : 0 < cubeWidth
  cubeLength_pos : 0 < cubeLength
  cubeHeight_pos : 0 < cubeHeight

/-- The numbers of `device_definitions.h` that the user changes. The `ENV_*` and `CAR_*` are in meters. -/
structure Config where
  screenWidth : ℕ
  screenHeight : ℕ
  envWidth : ℕ
  envLength : ℕ
  envHeight : ℕ
  carLeft : ℚ
  carRight : ℚ
  carFront : ℚ
  carRear : ℚ
  screenWidth_pos : 0 < screenWidth
  screenHeight_pos : 0 < screenHeight
  envWidth_pos : 0 < envWidth
  envLength_pos : 0 < envLength
  envHeight_pos : 0 < envHeight

namespace Config

def shipped : Config where
  screenWidth := 400
  screenHeight := 400
  envWidth := 12
  envLength := 15
  envHeight := 2
  carLeft := 6 - 8128 / 10000
  carRight := 6 + 8128 / 10000
  carFront := 75 / 10 + 22225 / 10000
  carRear := 75 / 10 - 22225 / 10000
  screenWidth_pos := by decide
  screenHeight_pos := by decide
  envWidth_pos := by decide
  envLength_pos := by decide
  envHeight_pos := by decide

def grid (cfg : Config) : Grid where
  cubeWidth := cfg.envWidth * cubeXScale
  cubeLength := cfg.envLength * cubeYScale
  cubeHeight := cfg.envHeight * cubeZScale
  cubeWidth_pos := Nat.mul_pos cfg.envWidth_pos (by decide)
  cubeLength_pos := Nat.mul_pos cfg.envLength_pos (by decide)
  cubeHeight_pos := Nat.mul_pos cfg.envHeight_pos (by decide)

def carCubeLeft (cfg : Config) : ℤ := toInt (cfg.carLeft * cubeXScale)

def carCubeRight (cfg : Config) : ℤ := toInt (cfg.carRight * cubeXScale)

def carCubeFront (cfg : Config) : ℤ := toInt (cfg.carFront * cubeYScale)

def carCubeRear (cfg : Config) : ℤ := toInt (cfg.carRear * cubeYScale)

end Config

/-! ## Places -/

/-- The integers `ix`, `iy` and `iz` that name a cube. -/
structure CubeCoord where
  ix : ℤ
  iy : ℤ
  iz : ℤ
deriving DecidableEq

namespace Grid

variable (g : Grid)

def cubeLoc (c : CubeCoord) : ℤ := c.iz * g.cubeWidth * g.cubeLength + c.iy * g.cubeWidth + c.ix

def colLoc (x y : ℤ) : ℤ := y * g.cubeWidth + x

def numCubes : ℕ := g.cubeHeight * g.cubeLength * g.cubeWidth

def numColumns : ℕ := g.cubeLength * g.cubeWidth

def HasColumn (x y : ℤ) : Prop := 0 ≤ x ∧ x < g.cubeWidth ∧ 0 ≤ y ∧ y < g.cubeLength

def HasCube (c : CubeCoord) : Prop := g.HasColumn c.ix c.iy ∧ 0 ≤ c.iz ∧ c.iz < g.cubeHeight

instance (x y : ℤ) : Decidable (g.HasColumn x y) := inferInstanceAs (Decidable (_ ∧ _))

instance (c : CubeCoord) : Decidable (g.HasCube c) := inferInstanceAs (Decidable (_ ∧ _))

end Grid

/-! ## Contents -/

/-- `struct _cube_`. The members are C's plain `char`, eight bits wide and signed. -/
structure Cube where
  knownBy : Int8
  clearedBy : Int8
  guessCount : Int8
  knownCount : Int8
deriving DecidableEq

/-- The test of `draw_depths`: is this cube taken to be occupied? -/
def Cube.occupied (c : Cube) : Bool :=
  decide (Int8.ofNat minCount ≤ c.knownCount) ||
    (decide (Int8.ofNat minCount ≤ c.guessCount) && decide (c.clearedBy = 0))

/-- The values of `columnStatus`: `COL_CLEAR`, `COL_KNOWN` and `COL_GUESSED`. -/
inductive ColStatus where
  | clear
  | known
  | guessed
deriving DecidableEq

/-- `environmentCubes` and `columnStatus`. -/
structure Env where
  environmentCubes : ℤ → Cube
  columnStatus : ℤ → ColStatus

def Env.initial : Env where
  environmentCubes _ := ⟨0, 0, 0, 0⟩
  columnStatus _ := .clear

/-- `memset(.., 0, sizeof(..))` of both arrays. What lies beyond an array keeps its contents. -/
def Env.memset (g : Grid) (env : Env) : Env where
  environmentCubes loc :=
    if 0 ≤ loc ∧ loc < g.numCubes then ⟨0, 0, 0, 0⟩ else env.environmentCubes loc
  columnStatus loc := if 0 ≤ loc ∧ loc < g.numColumns then .clear else env.columnStatus loc

/-! ## Marks -/

/-- What the loop bodies of `poll_one_device` do to the arrays: Step 1 clears, Step 2 records, Step 3 guesses. -/
inductive Mark where
  | clear (c : CubeCoord) (id : Int8)
  | known (c : CubeCoord) (id : Int8)
  | guess (c : CubeCoord)
deriving DecidableEq

def Mark.cube : Mark → CubeCoord
  | .clear c _ => c
  | .known c _ => c
  | .guess c => c

def Mark.column (g : Grid) (m : Mark) : ℤ := g.colLoc m.cube.ix m.cube.iy

def Env.setCube (env : Env) (loc : ℤ) (f : Cube → Cube) : Env :=
  { env with environmentCubes := Function.update env.environmentCubes loc (f (env.environmentCubes loc)) }

def Env.setColumn (env : Env) (loc : ℤ) (status : ColStatus) : Env :=
  { env with columnStatus := Function.update env.columnStatus loc status }

/-- The assignments of one loop body, in the order of the source. -/
def Env.write (g : Grid) (env : Env) : Mark → Env
  | .clear c id => env.setCube (g.cubeLoc c) fun cube => { cube with clearedBy := id }
  | .known c id =>
      let env := env.setCube (g.cubeLoc c) fun cube => { cube with knownBy := id }
      let env := env.setColumn (g.colLoc c.ix c.iy) .known
      let env := env.setCube (g.cubeLoc c) fun cube => { cube with knownCount := cube.knownCount + 1 }
      env.setCube (g.cubeLoc c) fun cube => { cube with knownBy := id }
  | .guess c =>
      let env := env.setCube (g.cubeLoc c) fun cube => { cube with guessCount := cube.guessCount + 1 }
      if env.columnStatus (g.colLoc c.ix c.iy) = .clear then env.setColumn (g.colLoc c.ix c.iy) .guessed else env

def Env.writeAll (g : Grid) (env : Env) (ms : List Mark) : Env := ms.foldl (Env.write g) env

end CarBoundary

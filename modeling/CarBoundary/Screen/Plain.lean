import CarBoundary.Screen.Draw

/-!
# The plain renderer

What the picture is meant to show: for every screen position the color of its column, which the renderer finds
by looking at the cubes of the column alone, whatever the status of the column.
-/

namespace CarBoundary

/-- The greatest layer of a column that passes the test. -/
def topLayer (g : Grid) (env : Env) (x y : ℤ) : Option ℕ :=
  (List.range g.cubeHeight).reverse.find? fun z => occupiedAt g env x y z

structure IsTopLayer (g : Grid) (env : Env) (x y : ℤ) (z : ℕ) : Prop where
  lt : z < g.cubeHeight
  occupied : occupiedAt g env x y z = true
  last : ∀ z', z < z' → z' < g.cubeHeight → occupiedAt g env x y z' = false

def InCar (cfg : Config) (x y : ℤ) : Prop :=
  cfg.carCubeLeft ≤ x ∧ x ≤ cfg.carCubeRight ∧ cfg.carCubeRear ≤ y ∧ y ≤ cfg.carCubeFront

instance (cfg : Config) (x y : ℤ) : Decidable (InCar cfg x y) := inferInstanceAs (Decidable (_ ∧ _))

def layerColor (cubeColor : ℕ → BitVec 32) : Option ℕ → BitVec 32
  | some z => cubeColor z
  | none => nullColor

def plainColor (cfg : Config) (cubeColor : ℕ → BitVec 32) (env : Env) (x y : ℤ) : BitVec 32 :=
  if InCar cfg x y then carColor else layerColor cubeColor (topLayer cfg.grid env x y)

/-- The color of a screen position, whose column is found by division of integers. -/
def plainPixel (cfg : Config) (cubeColor : ℕ → BitVec 32) (env : Env) (sx sy : ℕ) : BitVec 32 :=
  plainColor cfg cubeColor env (sx * cfg.grid.cubeWidth / cfg.screenWidth : ℕ)
    (sy * cfg.grid.cubeLength / cfg.screenHeight : ℕ)

def Surface.Holds (s : Surface) (col row : ℤ) (value : BitVec 32) : Prop :=
  ∀ k < s.bytesPerPixel, s.pixels (s.position col row + k) = byteAt value k

end CarBoundary

import CarBoundary.Grid.Basic

/-!
# The devices and the tables of the sensor

`KDevice`, `init_one_device` and `kinect_init`. `FP_TYPE` is the type variable `F`, and the functions that
`FP_SIN`, `FP_COS` and `FP_TAN` stand for are the members of `Libm F`.
-/

namespace CarBoundary

def sensorWidth : ℕ := 640

def sensorHeight : ℕ := 480

structure Libm (F : Type*) where
  sin : F → F
  cos : F → F
  tan : F → F

/-- `dev->id = '0' + device`, a quick and dirty id for `known_by`. -/
def deviceId (device : ℤ) : Int8 := Int8.ofInt (48 + device)

/-- `struct _kdevice_`. The id is always the one that `init_one_device` derives from the device number. -/
structure KDevice (F : Type*) where
  device : ℤ
  id : Int8
  vangle : ℕ → F
  hangle : ℕ → F
  dvv : ℕ → F
  dvh : ℕ → F
  dx : ℕ → F
  dy : ℕ → F
  baseX : F
  baseY : F
  baseZ : F
  id_eq : id = deviceId device

structure KDeviceDefinition (F : Type*) where
  device : ℤ
  baseX : F
  baseY : F
  baseZ : F
  hangle : F
  vangle : F

/-- The tables that `kinect_init` fills in for `poll_one_device`. -/
structure Tables (F : Type*) where
  depthDistance : ℕ → F
  horizDepthMultiplier : ℕ → F
  vertDepthMultiplier : ℕ → F

section

variable {F : Type*} [Add F] [Sub F] [Mul F] [Div F] [NatCast F]

/-- A decimal literal: `n` over `10 ^ k`. -/
def lit (n : ℕ) (k : ℕ) : F := (n : F) / ((10 ^ k : ℕ) : F)

/-- `HANGLE`, the horizontal field of view in degrees. -/
def fovH : F := lit 57 0

/-- `VANGLE`, the vertical field of view in degrees. -/
def fovV : F := lit 43 0

def deg2rad (x : F) : F := x * (lit 3141592654 9 / lit 180 0)

def initOneDevice (libm : Libm F) (device : ℤ) (baseX baseY baseZ hangle vangle : F) : KDevice F :=
  let hangle (i : ℕ) := hangle + (fovH * ((i : F) / (sensorWidth : F))) - (fovH / ((2 : ℕ) : F))
  let vangle (i : ℕ) := vangle - (fovV * ((i : F) / (sensorHeight : F))) + (fovV / ((2 : ℕ) : F))
  { device, id := deviceId device, vangle, hangle
    dvv i := libm.sin (deg2rad (vangle i))
    dvh i := libm.cos (deg2rad (vangle i))
    dx i := libm.sin (deg2rad (hangle i))
    dy i := libm.cos (deg2rad (hangle i))
    baseX, baseY, baseZ, id_eq := rfl }

/-- The entry of `depthDistance` that `kinect_init` leaves for a raw depth: the loop runs over `1 .. 2046`, the
last entry is set to zero, and the first keeps the zero of a global. -/
def rawDistance (libm : Libm F) (raw : ℕ) : F :=
  if 1 ≤ raw ∧ raw < 2047 then
    lit 1236 4 * libm.tan ((raw : F) / lit 28425 1 + lit 11863 4) - lit 370 4
  else ((0 : ℕ) : F)

def kinectTables (libm : Libm F) : Tables F where
  depthDistance := rawDistance libm
  horizDepthMultiplier i :=
    ((1 : ℕ) : F) / libm.cos (deg2rad ((fovH * ((i : F) / (sensorWidth : F))) - (fovH / ((2 : ℕ) : F))))
  vertDepthMultiplier i :=
    ((1 : ℕ) : F) / libm.cos (deg2rad ((fovV * ((i : F) / (sensorHeight : F))) - (fovV / ((2 : ℕ) : F))))

/-- The devices after `kinect_init`: the definitions up to the first with a negative device number. -/
def kinectDevices (libm : Libm F) (deviceDefinitions : List (KDeviceDefinition F)) : List (KDevice F) :=
  (deviceDefinitions.takeWhile fun d => decide (0 ≤ d.device)).map fun d =>
    initOneDevice libm d.device d.baseX d.baseY d.baseZ d.hangle d.vangle

def deviceDefinitions : List (KDeviceDefinition F) :=
  let carFront := lit 75 1 + lit 22225 4
  let carTop := lit 14986 4
  [⟨1, lit 60 1 - lit 508 3, carFront - lit 205 2, carTop, lit 0 1, lit 0 1⟩,
    ⟨0, lit 60 1 + lit 508 3, carFront - lit 205 2, carTop, lit 0 1, lit 0 1⟩,
    ⟨-1, lit 0 1, lit 0 1, lit 0 1, lit 0 1, lit 0 1⟩]

end

/-- The color that `kinect_init` puts into `cubeColor[i]`: `0xFF | ((0x0101 * ((256 * (H - i)) / H)) << 8)`. -/
def paletteColor (g : Grid) (i : ℕ) : BitVec 32 :=
  BitVec.ofNat 32 (0xFF ||| ((0x0101 * ((256 * (g.cubeHeight - i)) / g.cubeHeight)) <<< 8))

end CarBoundary

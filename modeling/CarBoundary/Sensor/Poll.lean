import CarBoundary.Lib.Loop
import CarBoundary.Sensor.Device

/-!
# Polling the devices

`poll_one_device` and `kinect_poll`. The functions take the memory and the way a mark is written to it as
arguments: with `Env.write` they are the program, and with a list that collects the marks they are the
log of the same code (`Reading.marks`). The loops are cut off after `Grid.maxRounds` rounds.
-/

namespace CarBoundary

/-- The variables `cx`, `cy` and `cz`, or `landX`, `landY` and `landZ`, or the step `dx`, `dy` and `dz`. -/
structure Point (F : Type*) where
  x : F
  y : F
  z : F

def advance {F : Type*} [Add F] (dir c : Point F) : Point F := ⟨c.x + dir.x, c.y + dir.y, c.z + dir.z⟩

/-- The number of rounds after which the model cuts a marching loop off. -/
def Grid.maxRounds (g : Grid) : ℕ := g.cubeWidth + g.cubeLength

section

variable {F : Type*} [NatCast F] [LT F] [LE F] [DecidableLT F] [DecidableLE F] [ToInt F]

def inbounds (g : Grid) (c : Point F) : Bool :=
  decide (c.x < (g.cubeWidth : F)) && decide (((0 : ℕ) : F) ≤ c.x) &&
  decide (c.y < (g.cubeLength : F)) && decide (((0 : ℕ) : F) ≤ c.y) &&
  decide (c.z < (g.cubeHeight : F)) && decide (((0 : ℕ) : F) ≤ c.z)

/-- The macros `ix`, `iy` and `iz`. -/
def cubeOf (g : Grid) (c : Point F) : CubeCoord where
  ix := toInt c.x
  iy := toInt c.y
  iz := if c.z < ((0 : ℕ) : F) then 0 else if (g.cubeHeight : F) < c.z then g.cubeHeight - 1 else toInt c.z

end

variable {F : Type*} [Add F] [Mul F] [Div F] [NatCast F]

/-- `cx`, `cy` and `cz` before Step 1: the base on the cube scale. -/
def basePoint (dev : KDevice F) : Point F :=
  ⟨dev.baseX * (cubeXScale : F), dev.baseY * (cubeYScale : F), dev.baseZ * (cubeZScale : F)⟩

def direction (dev : KDevice F) (i j : ℕ) : Point F := ⟨dev.dx i, dev.dy i, dev.dvv j⟩

def landMeters (dev : KDevice F) (i j : ℕ) (d : F) : Point F :=
  let dh := d * dev.dvh j
  ⟨dh * dev.dx i + dev.baseX, dh * dev.dy i + dev.baseY, d * dev.dvv j + dev.baseZ⟩

def landPoint (dev : KDevice F) (i j : ℕ) (d : F) : Point F :=
  let land := landMeters dev i j d
  ⟨land.x * (cubeXScale : F), land.y * (cubeYScale : F), land.z * (cubeZScale : F)⟩

variable [LT F] [LE F] [DecidableLT F] [DecidableLE F] [ToInt F] {σ : Type*}

/-- The guard of the loop of Step 1. The flags `xt` and `yt` remember the comparisons at the base. -/
def clearing (g : Grid) (land : Point F) (xt yt : Bool) (c : Point F) : Bool :=
  (decide (c.x ≤ land.x) == xt && decide (c.y ≤ land.y) == yt) && inbounds g c

def step1 (g : Grid) (write : Mark → σ → σ) (id : Int8) (land dir : Point F) (xt yt : Bool)
    (cs : Point F × σ) : Point F × σ :=
  Loop.march (clearing g land xt yt) (advance dir) (fun c => write (.clear (cubeOf g c) id)) g.maxRounds cs

/-- Step 2: mark the cube this lands in as known, as well as its column status. -/
def step2 (g : Grid) (write : Mark → σ → σ) (id : Int8) (land : Point F) (cs : Point F × σ) : Point F × σ :=
  if inbounds g cs.1 then (land, write (.known (cubeOf g land) id) cs.2) else cs

/-- Step 3: mark every cube in a line after the known cube as guessed. -/
def step3 (g : Grid) (write : Mark → σ → σ) (dir : Point F) (cs : Point F × σ) : Point F × σ :=
  Loop.march (inbounds g) (advance dir) (fun c => write (.guess (cubeOf g c))) g.maxRounds cs

/-- The loop body of `poll_one_device` for a distance `d` that is worth plotting. -/
def plotDistance (g : Grid) (write : Mark → σ → σ) (dev : KDevice F) (i j : ℕ) (d : F) (s : σ) : σ :=
  let land := landPoint dev i j d
  let c := basePoint dev
  let dir := direction dev i j
  let xt := decide (c.x ≤ land.x)
  let yt := decide (c.y ≤ land.y)
  let cs := step1 g write dev.id land dir xt yt (c, s)
  let cs := step2 g write dev.id land cs
  let cs := step3 g write dir (advance dir cs.1, cs.2)
  cs.2

/-- The depths that `freenect_sync_get_depth` hands out, at the index `j * SENSOR_WIDTH + i`. -/
abbrev Frame := ℕ → UInt16

structure Reading (F : Type*) where
  dev : KDevice F
  i : ℕ
  j : ℕ
  raw : UInt16

def Reading.distance (t : Tables F) (r : Reading F) : F :=
  t.depthDistance (r.raw &&& 0x7FF).toNat * t.horizDepthMultiplier r.i * t.vertDepthMultiplier r.j

/-- It's not worth plotting if it's too far away or too close. -/
def worthPlotting (d : F) : Bool := decide (lit 1 1 < d) && decide (d < lit 300 1)

def plotReading (g : Grid) (t : Tables F) (write : Mark → σ → σ) (r : Reading F) (s : σ) : σ :=
  if worthPlotting (r.distance t) then plotDistance g write r.dev r.i r.j (r.distance t) s else s

def pollOneDevice (g : Grid) (t : Tables F) (write : Mark → σ → σ) (dev : KDevice F) (frame : Option Frame)
    (s : σ) : σ :=
  match frame with
  | none => s
  | some fdepths =>
      (List.range sensorHeight).reverse.foldl (fun s j =>
        (List.range sensorWidth).foldl (fun s i =>
          plotReading g t write ⟨dev, i, j, fdepths (j * sensorWidth + i)⟩ s) s) s

def pollDevices (g : Grid) (t : Tables F) (write : Mark → σ → σ) (devices : List (KDevice F × Option Frame))
    (s : σ) : σ :=
  devices.foldl (fun s d => pollOneDevice g t write d.1 d.2 s) s

/-- `kinect_poll`. Each device is listed with the frame that is fetched for it. -/
def kinectPoll (g : Grid) (t : Tables F) (devices : List (KDevice F × Option Frame)) (env : Env) : Env :=
  pollDevices g t (fun m env => env.write g m) devices (env.memset g)

/-! ## The log of the writes -/

def logMark (m : Mark) (log : List Mark) : List Mark := log ++ [m]

def distanceMarks (g : Grid) (dev : KDevice F) (i j : ℕ) (d : F) : List Mark :=
  plotDistance g logMark dev i j d []

def Reading.marks (g : Grid) (t : Tables F) (r : Reading F) : List Mark := plotReading g t logMark r []

def deviceReadings (dev : KDevice F) (frame : Option Frame) : List (Reading F) :=
  match frame with
  | none => []
  | some fdepths =>
      (List.range sensorHeight).reverse.flatMap fun j =>
        (List.range sensorWidth).map fun i => ⟨dev, i, j, fdepths (j * sensorWidth + i)⟩

/-- The readings of one `kinect_poll`, in scan order. -/
def pollReadings (devices : List (KDevice F × Option Frame)) : List (Reading F) :=
  devices.flatMap fun d => deviceReadings d.1 d.2

end CarBoundary

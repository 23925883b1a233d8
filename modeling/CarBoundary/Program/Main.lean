import CarBoundary.Screen.Palette
import CarBoundary.Sensor.Poll

/-!
# The program

`main`, `sdl_pollevent` and the end of `draw_depths`. The window system and the cameras are seen through what comes
from them in each round of the loop: the events in the queue, and for each device the frame that
`freenect_sync_get_depth` fetches. What `SDL_BlitSurface(render,0,screen,0)` and `SDL_Flip(screen)` do to the screen is
an argument.
-/

namespace CarBoundary

inductive SdlEvent where
  | keyDown
  | quit
  | videoExpose
  | other
deriving DecidableEq

/-- What comes from outside in a round of the loop of `main`. The frames are numbered as the devices are. -/
structure Round where
  events : List SdlEvent
  fetched : ℕ → Option Frame

/-- What `sdl_init` and `kinect_init` leave for the loop, apart from the surface. -/
structure Globals (F : Type*) where
  cfg : Config
  tables : Tables F
  devices : List (KDevice F)
  cubeColor : ℕ → BitVec 32
  mapRGB : MapRGB

structure Program (σ : Type*) where
  env : Env
  render : Surface
  screen : σ

def kinectInit {F : Type*} [Add F] [Sub F] [Mul F] [Div F] [NatCast F] (libm : Libm F) (cfg : Config)
    (deviceDefinitions : List (KDeviceDefinition F)) (mapRGB : MapRGB) : Globals F :=
  ⟨cfg, kinectTables libm, kinectDevices libm deviceDefinitions, initPalette cfg.grid, mapRGB⟩

section

variable {σ : Type*} (present : Surface → σ → σ)

/-- `sdl_pollevent`, for the events that it finds in the queue. -/
def sdlPollevent (render : Surface) : List SdlEvent → σ → Bool × σ
  | [], screen => (false, screen)
  | .keyDown :: _, screen => (true, screen)
  | .quit :: _, screen => (true, screen)
  | .videoExpose :: events, screen => sdlPollevent render events (present render screen)
  | .other :: events, screen => sdlPollevent render events screen

end

/-- `MAX_KINECTS` of `libfreenect_sync.c`. -/
def maxKinects : ℕ := 64

/-- What `freenect_sync_get_depth` hands out if the frame is the next one of its device. -/
def syncGetDepth (index : ℤ) (frame : Option Frame) : Option Frame :=
  if index < 0 ∨ index ≥ maxKinects then none else frame

namespace Globals

variable {F : Type*} (G : Globals F)

/-- The devices with the frames that `poll_one_device` fetches for them. -/
def fetches (fetched : ℕ → Option Frame) : List (KDevice F × Option Frame) :=
  G.devices.mapIdx fun k dev => (dev, syncGetDepth dev.device (fetched k))

variable [Add F] [Mul F] [Div F] [NatCast F] [LT F] [LE F] [DecidableLT F] [DecidableLE F] [ToInt F]
variable {σ : Type*} (present : Surface → σ → σ)

/-- No cube that `poll_one_device` writes lies outside `environmentCubes`. -/
def InRange (fetched : ℕ → Option Frame) : Prop :=
  ∀ r ∈ pollReadings (G.fetches fetched), ∀ m ∈ r.marks G.cfg.grid G.tables, G.cfg.grid.HasCube m.cube

instance (fetched : ℕ → Option Frame) : Decidable (G.InRange fetched) :=
  inferInstanceAs (Decidable (∀ r ∈ pollReadings (G.fetches fetched), ∀ m ∈ r.marks G.cfg.grid G.tables, _))

/-- `kinect_poll(); draw_depths();`. There is no result if `kinect_poll` writes outside the array, which C does not
define. -/
def round (r : Round) (p : Program σ) : Option (Program σ) :=
  if G.InRange r.fetched then
    let env := kinectPoll G.cfg.grid G.tables (G.fetches r.fetched) p.env
    let render := paint F G.cfg G.cubeColor G.mapRGB env p.render
    some ⟨env, render, present render p.screen⟩
  else none

/-- The loop of `main`, for as many rounds as are given, and whether it has ended by then. -/
def loop : List Round → Program σ → Option (Bool × Program σ)
  | [], p => some (false, p)
  | r :: rs, p =>
      match sdlPollevent present p.render r.events p.screen with
      | (true, screen) => some (true, { p with screen })
      | (false, screen) => (G.round present r { p with screen }).bind fun p => loop rs p

/-- `main`, with the surface that `sdl_init` creates if it can, and the exit status once there is one. -/
def main (render : Option Surface) (rounds : List Round) (screen : σ) : Option (Option ℕ × σ) :=
  match render with
  | none => some (some 1, screen)
  | some render =>
      (G.loop present rounds ⟨Env.initial, render, screen⟩).map fun out =>
        (if out.1 then some 0 else none, out.2.screen)

end Globals

end CarBoundary

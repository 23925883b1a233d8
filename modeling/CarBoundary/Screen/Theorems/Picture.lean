import CarBoundary.Screen.Lemmas.Plain
import CarBoundary.Sensor.Device

/-!
# The picture

In every state that a poll reaches, `draw_depths` paints what the plain renderer shows, and it writes every pixel
of the surface once.
-/

namespace CarBoundary

variable {K : Type*} [Field K] [LinearOrder K] [IsStrictOrderedRing K] [FloorRing K]
variable {cfg : Config} {env : Env}

def timesWritten (calls : List PixelCall) (s : Surface) (col row : ℕ) : ℕ :=
  calls.countP fun call => decide ((call.sx : ℤ) = col ∧ (s.height : ℤ) - call.sy - 1 = row)

theorem timesWritten_drawLog {F : Type*} [Mul F] [Div F] [NatCast F] [ToInt F] (cubeColor : ℕ → BitVec 32)
    {s : Surface} (hheight : s.height = cfg.screenHeight) {col row : ℕ} (hcol : col < cfg.screenWidth)
    (hrow : row < cfg.screenHeight) :
    timesWritten (drawLog F cfg cubeColor env) s col row = 1 := by
  have hcount : (screenPositions cfg).count (col, cfg.screenHeight - 1 - row) = 1 :=
    List.count_eq_one_of_mem (screenPositions_nodup cfg) (mem_screenPositions.mpr ⟨hcol, by dsimp only; omega⟩)
  rw [timesWritten, drawLog_eq, List.countP_map, ← hcount, List.count]
  refine List.countP_congr fun p hp => ?_
  obtain ⟨hx, hy⟩ := mem_screenPositions.mp hp
  rw [Function.comp_apply, decide_eq_true_iff, beq_iff_eq, Prod.ext_iff]
  simp only [pixelCall]
  omega

/-- After `draw_depths` each pixel shows the color of the plain renderer for its screen position, every pixel has
been written once, by a call of `setPixel`, and no two pixels share a byte. -/
theorem paint_eq_plain (henv : Reachable cfg.grid env) (cubeColor : ℕ → BitVec 32) (mapRGB : MapRGB) (s : Surface)
    (hwidth : s.width = cfg.screenWidth) (hheight : s.height = cfg.screenHeight) :
    (∀ sx < cfg.screenWidth, ∀ sy < cfg.screenHeight,
      (paint K cfg cubeColor mapRGB env s).Holds sx (cfg.screenHeight - 1 - sy)
        (mapColor mapRGB (plainPixel cfg cubeColor env sx sy))) ∧
    paint K cfg cubeColor mapRGB env s =
      (drawLog K cfg cubeColor env).foldl (fun s call => setPixel mapRGB call.sx call.sy call.color s) s ∧
    (∀ col < s.width, ∀ row < s.height, timesWritten (drawLog K cfg cubeColor env) s col row = 1) ∧
    (∀ col < s.width, ∀ row < s.height, ∀ col' < s.width, ∀ row' < s.height, (col, row) ≠ (col', row') →
      ∀ k < s.bytesPerPixel, ∀ k' < s.bytesPerPixel, s.position col row + k ≠ s.position col' row' + k') := by
  refine ⟨fun sx hx sy hy => ?_, paint_eq_foldl_drawLog mapRGB s, fun col hcol row hrow => ?_, ?_⟩
  · have hp : (sx, sy) ∈ screenPositions cfg := mem_screenPositions.mpr ⟨hx, hy⟩
    have hwide : ∀ q ∈ screenPositions cfg, q.1 < s.width := fun q hq => hwidth ▸ (mem_screenPositions.mp hq).1
    have hrow : (cfg.screenHeight : ℤ) - 1 - sy = s.height - sy - 1 := by rw [hheight]; ring
    have hholds := foldl_setPixel_holds mapRGB (fun p => (pixelCall K cfg cubeColor env p).color) s hwide hp
    rw [paint, drawDepths_eq, hrow, ← pixelCall_color_exact (K := K) henv cubeColor hp]
    exact hholds
  · exact timesWritten_drawLog cubeColor hheight (hwidth ▸ hcol) (hheight ▸ hrow)
  · intro col hcol row _ col' hcol' row' _ hne k hk k' hk'
    refine (s.position_apart ⟨Int.natCast_nonneg col, Int.ofNat_lt.mpr hcol⟩
      ⟨Int.natCast_nonneg col', Int.ofNat_lt.mpr hcol'⟩ fun hsame => hne ?_).ne hk hk'
    exact Prod.ext (Int.ofNat_inj.mp hsame.1) (Int.ofNat_inj.mp hsame.2)

/-- `SDL_MapRGB` for the masks with which `sdl_init` creates the surface. -/
def mapARGB : MapRGB := fun r g b => 0xFF#8 ++ r ++ g ++ b

/-- A surface as `sdl_init` creates it for the shipped screen, with rows that are not padded. -/
def shippedSurface : Surface where
  width := 400
  height := 400
  pitch := 1600
  bytesPerPixel := 4
  pixels _ := 0
  bytesPerPixel_le := by decide
  row_le_pitch := by decide

def markedEnv : Env :=
  (Env.initial.memset Config.shipped.grid).writeAll Config.shipped.grid (List.replicate 5 (.known ⟨10, 20, 3⟩ 49))

theorem markedEnv_reachable : Reachable Config.shipped.grid markedEnv := by
  have hmarks : ∀ m ∈ List.replicate 5 (Mark.known ⟨10, 20, 3⟩ 49), Config.shipped.grid.HasCube m.cube := by decide
  exact (Reachable.memset Env.initial).writeAll hmarks

theorem markedEnv_painted :
    (paint ℚ Config.shipped (paletteColor Config.shipped.grid) mapARGB markedEnv shippedSurface).Holds (12 : ℕ)
      (Config.shipped.screenHeight - 1 - (18 : ℕ))
      (mapColor mapARGB (plainPixel Config.shipped (paletteColor Config.shipped.grid) markedEnv 12 18)) :=
  (paint_eq_plain markedEnv_reachable (paletteColor Config.shipped.grid) mapARGB shippedSurface rfl rfl).1 12
    (by decide) 18 (by decide)

end CarBoundary

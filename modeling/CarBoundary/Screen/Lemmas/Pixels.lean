import CarBoundary.Lib.Loop
import CarBoundary.Lib.Blocks
import CarBoundary.Screen.Plain
import Mathlib.Data.List.Nodup
import Mathlib.Data.List.ProdSigma

/-!
# The pixels that a drawing writes

`draw_depths` calls `setPixel` once for every screen position, and no two pixels of the surface share a byte.
-/

namespace CarBoundary

section

variable {F : Type*} [Mul F] [Div F] [NatCast F] [ToInt F] {cfg : Config} {cubeColor : ℕ → BitVec 32} {env : Env}

def pixelCall (F : Type*) [Mul F] [Div F] [NatCast F] [ToInt F] (cfg : Config) (cubeColor : ℕ → BitVec 32) (env : Env)
    (p : ℕ × ℕ) : PixelCall :=
  ⟨p.1, p.2, columnColor cfg cubeColor env (scaleX F cfg p.1) (scaleY F cfg p.2)⟩

def screenPositions (cfg : Config) : List (ℕ × ℕ) := List.range cfg.screenWidth ×ˢ List.range cfg.screenHeight

theorem mem_screenPositions {p : ℕ × ℕ} : p ∈ screenPositions cfg ↔ p.1 < cfg.screenWidth ∧ p.2 < cfg.screenHeight := by
  rw [screenPositions, List.mem_product, List.mem_range, List.mem_range]

theorem screenPositions_nodup (cfg : Config) : (screenPositions cfg).Nodup :=
  List.Nodup.product List.nodup_range List.nodup_range

theorem drawDepths_eq {σ : Type*} (put : ℕ → ℕ → BitVec 32 → σ → σ) (s : σ) :
    drawDepths F cfg cubeColor put env s =
      (screenPositions cfg).foldl (fun s p => put p.1 p.2 (pixelCall F cfg cubeColor env p).color s) s := by
  simp only [drawDepths, screenPositions, SProd.sprod, List.product, List.foldl_flatMap, List.foldl_map, pixelCall]

theorem drawLog_eq : drawLog F cfg cubeColor env = (screenPositions cfg).map (pixelCall F cfg cubeColor env) := by
  rw [drawLog, drawDepths_eq]
  exact Loop.foldl_snoc (pixelCall F cfg cubeColor env) (screenPositions cfg) []

theorem exists_mem_drawLog {P : PixelCall → Prop} : (∃ call ∈ drawLog F cfg cubeColor env, P call) ↔
    ∃ p ∈ screenPositions cfg, P (pixelCall F cfg cubeColor env p) := by
  simp only [drawLog_eq, List.mem_map, exists_exists_and_eq_and]

theorem paint_eq_foldl_drawLog (mapRGB : MapRGB) (s : Surface) :
    paint F cfg cubeColor mapRGB env s =
      (drawLog F cfg cubeColor env).foldl (fun s call => setPixel mapRGB call.sx call.sy call.color s) s := by
  rw [paint, drawDepths_eq, drawLog_eq, List.foldl_map]
  rfl

end

/-! ## Addresses -/

theorem Surface.position_apart (s : Surface) {x y x' y' : ℤ} (hx : 0 ≤ x ∧ x < s.width) (hx' : 0 ≤ x' ∧ x' < s.width)
    (hne : ¬ (x = x' ∧ y = y')) : Block.Apart s.bytesPerPixel (s.position x y) (s.position x' y') :=
  Block.raster_apart s.row_le_pitch hx hx' hne

theorem setPixel_pixels (mapRGB : MapRGB) (x y : ℤ) (color : BitVec 32) (s : Surface) :
    (setPixel mapRGB x y color s).pixels =
      Block.write s.bytesPerPixel (s.position x (s.height - y - 1)) (byteAt (mapColor mapRGB color)) s.pixels := rfl

theorem foldl_setPixel (mapRGB : MapRGB) (color : ℕ × ℕ → BitVec 32) (l : List (ℕ × ℕ)) (s : Surface) :
    l.foldl (fun s p => setPixel mapRGB p.1 p.2 (color p) s) s =
      { s with pixels := l.foldl (fun mem p => Block.write s.bytesPerPixel (s.position p.1 (s.height - p.2 - 1))
        (byteAt (mapColor mapRGB (color p))) mem) s.pixels } := by
  induction l generalizing s with
  | nil => rfl
  | cons p l ih => rw [List.foldl_cons, List.foldl_cons, ih, setPixel_pixels]; rfl

theorem foldl_setPixel_holds (mapRGB : MapRGB) (color : ℕ × ℕ → BitVec 32) {l : List (ℕ × ℕ)} (s : Surface)
    (hl : ∀ q ∈ l, q.1 < s.width) {p : ℕ × ℕ} (hp : p ∈ l) :
    (l.foldl (fun s p => setPixel mapRGB p.1 p.2 (color p) s) s).Holds p.1 (s.height - p.2 - 1)
      (mapColor mapRGB (color p)) := by
  intro k hk
  rw [foldl_setPixel] at hk ⊢
  have hcol {q : ℕ × ℕ} (hq : q ∈ l) : (0 : ℤ) ≤ q.1 ∧ (q.1 : ℤ) < s.width :=
    ⟨Int.natCast_nonneg _, Int.ofNat_lt.mpr (hl q hq)⟩
  refine Block.foldl_write hp (fun q hq => ?_) hk s.pixels
  by_cases hqp : q = p
  · exact Or.inl hqp
  · refine Or.inr (s.position_apart (hcol hq) (hcol hp) fun hsame => hqp ?_)
    exact Prod.ext (by omega) (by omega)

end CarBoundary

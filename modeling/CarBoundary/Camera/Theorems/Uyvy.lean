import CarBoundary.Camera.Lemmas.Uyvy

/-!
# What the rounding does to colors
-/

namespace CarBoundary

/-- Each pixel gets the colors that are computed from its own brightness and the color differences of its pair, each of
them less than three from the exact value, cut off at 0 and 255. Nothing is written behind the picture, and no byte is
read behind the frame. -/
theorem uyvy_follows_the_formulas (raw proc : Bytes) {x y : ℕ} (hx : x < 640) (hy : y < 480) :
    let out := convertUyvyToRgb raw proc
    let p := 640 * y + x
    let pixel := [out (3 * p), out (3 * p + 1), out (3 * p + 2)]
    pixel = Uyvy.pixel raw p ∧
      List.Forall₂ (fun value e => |1000 * (value.toNat : ℤ) - Uyvy.clip e| < 3000) pixel
        (Uyvy.exact (raw (2 * p + 1)).toNat (raw (4 * (p / 2))).toNat (raw (4 * (p / 2) + 2)).toNat) ∧
      (∀ a ≥ 3 * (640 * 480), out a = proc a) ∧
      ∀ raw' : Bytes, (∀ a < 2 * (640 * 480), raw' a = raw a) → convertUyvyToRgb raw' proc = out := by
  intro out p pixel
  have hbyte (k : ℕ) (hk : k < 3) : out (3 * p + k) = (Uyvy.pixel raw p).getD k 0 := by
    refine (convertUyvyToRgb_apply raw proc _).trans ?_
    rw [if_pos (by omega), show (3 * p + k) / 3 = p by omega, show (3 * p + k) % 3 = k by omega]
  have hpixel : pixel = Uyvy.pixel raw p := by
    have hr := hbyte 0 (by decide)
    have hg := hbyte 1 (by decide)
    have hb := hbyte 2 (by decide)
    show [out (3 * p), out (3 * p + 1), out (3 * p + 2)] = _
    rw [show out (3 * p) = _ from hr, hg, hb]
    rfl
  refine ⟨hpixel, ?_, fun a ha => ?_, fun raw' hraw => funext fun a => ?_⟩
  · rw [hpixel]
    exact Uyvy.rgb_near _ _ _
  · exact (convertUyvyToRgb_apply raw proc a).trans (if_neg (by omega))
  · refine ((convertUyvyToRgb_apply raw' proc a).trans ?_).trans (convertUyvyToRgb_apply raw proc a).symm
    split_ifs with ha
    · rw [Uyvy.pixel, Uyvy.pixel, hraw _ (by omega), hraw _ (by omega), hraw _ (by omega)]
    · rfl

theorem uyvy_follows_the_formulas_corner :
    let raw : Bytes := fun a => UInt8.ofNat (a * 7)
    let out := convertUyvyToRgb raw fun _ => 0
    let p := 640 * 479 + 639
    List.Forall₂ (fun value e => |1000 * (value.toNat : ℤ) - Uyvy.clip e| < 3000)
      [out (3 * p), out (3 * p + 1), out (3 * p + 2)]
      (Uyvy.exact (raw (2 * p + 1)).toNat (raw (4 * (p / 2))).toNat (raw (4 * (p / 2) + 2)).toNat) :=
  (uyvy_follows_the_formulas _ _ (by decide) (by decide)).2.1

end CarBoundary

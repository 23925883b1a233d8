import CarBoundary.Camera.Lemmas.Bayer

/-!
# What the shift buffers compute
-/

namespace CarBoundary

/-- The shift buffers give each pixel the colors that it would get from its neighbours alone, with the second and the
second last line and column mirrored at the borders. These are the formulas of the comment, up to one where four pixels
are averaged, and nothing is written behind the picture. -/
theorem bayer_follows_the_formulas (raw proc : Bytes) {x y : ℕ} (hx : x < 640) (hy : y < 480) :
    let out := convertBayerToRgb raw proc
    let pixel := [out (3 * (640 * y + x)), out (3 * (640 * y + x) + 1), out (3 * (640 * y + x) + 2)]
    pixel = Bayer.rgb raw x y ∧
      List.Forall₂ (fun value n => value.toNat ≤ n ∧ n ≤ value.toNat + 1) pixel (Bayer.documented raw x y) ∧
      (x % 2 = y % 2 → pixel.map UInt8.toNat = Bayer.documented raw x y) ∧ ∀ a ≥ 3 * (640 * 480), out a = proc a := by
  intro out pixel
  have hbyte (k : ℕ) (hk : k < 3) : out (3 * (640 * y + x) + k) = (Bayer.rgb raw x y).getD k 0 := by
    rw [← Bayer.bytes_pixel hx k hk]
    refine (convertBayerToRgb_apply raw proc _).trans (if_pos ?_)
    omega
  have hpixel : pixel = Bayer.rgb raw x y := by
    obtain ⟨r, g, b, hrgb⟩ := List.length_eq_three.mp (Bayer.rgb_length raw x y)
    rw [hrgb] at hbyte ⊢
    have hr : out (3 * (640 * y + x)) = r := hbyte 0 (by decide)
    have hg : out (3 * (640 * y + x) + 1) = g := hbyte 1 (by decide)
    have hb : out (3 * (640 * y + x) + 2) = b := hbyte 2 (by decide)
    show [_, _, _] = _
    rw [hr, hg, hb]
  rw [hpixel]
  refine ⟨rfl, Bayer.rgb_near raw x y, Bayer.rgb_exact raw, fun a ha => ?_⟩
  exact (convertBayerToRgb_apply raw proc a).trans (if_neg (by omega))

theorem bayer_follows_the_formulas_corner :
    let raw : Bytes := fun a => UInt8.ofNat (a * a)
    let out := convertBayerToRgb raw fun _ => 7
    [out (3 * (640 * 479 + 639)), out (3 * (640 * 479 + 639) + 1), out (3 * (640 * 479 + 639) + 2)].map UInt8.toNat =
      Bayer.documented raw 639 479 :=
  (bayer_follows_the_formulas _ _ (by decide) (by decide)).2.2.1 rfl

end CarBoundary

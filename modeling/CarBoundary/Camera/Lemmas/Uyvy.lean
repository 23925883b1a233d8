import CarBoundary.Camera.Lemmas.Stream
import CarBoundary.Camera.Uyvy
import Mathlib.Data.List.GetD

/-!
# The two loops of the conversion, and its rounding
-/

namespace CarBoundary

/-! ## Rounding -/

theorem tdiv_near (a : ℤ) : 1000 * a.tdiv 1000 < a + 1000 ∧ a < 1000 * a.tdiv 1000 + 1000 := by
  have hsplit := Int.mul_tdiv_add_tmod a 1000
  have hupper := Int.tmod_lt_of_pos a (show (0 : ℤ) < 1000 by decide)
  have hlower := Int.lt_tmod_of_pos a (show (0 : ℤ) < 1000 by decide)
  omega

theorem clampByte_bounds (x : ℤ) : 0 ≤ clampByte x ∧ clampByte x ≤ 255 := by
  simp only [clampByte]
  split_ifs <;> omega

/-- Values that are near each other stay so when both are cut off. -/
theorem clampByte_near {x e k : ℤ} (h : |1000 * x - e| < k) : |1000 * clampByte x - Uyvy.clip e| < k := by
  rw [abs_lt] at h ⊢
  simp only [clampByte, Uyvy.clip]
  split_ifs <;> omega

namespace Uyvy

theorem red_near (y v : ℤ) : |1000 * red y v - ((y - 16) * 1164 + (v - 128) * 1596)| < 2000 := by
  have hy := tdiv_near ((y - 16) * 1164)
  have hv := tdiv_near ((v - 128) * 1596)
  rw [abs_lt, red]
  omega

theorem green_near (y u v : ℤ) :
    |1000 * green y u v - ((y - 16) * 1164 - (v - 128) * 813 - (u - 128) * 391)| < 3000 := by
  have hy := tdiv_near ((y - 16) * 1164)
  have hv := tdiv_near ((v - 128) * 813)
  have hu := tdiv_near ((u - 128) * 391)
  rw [abs_lt, green]
  omega

theorem blue_near (y u : ℤ) : |1000 * blue y u - ((y - 16) * 1164 + (u - 128) * 2018)| < 2000 := by
  have hy := tdiv_near ((y - 16) * 1164)
  have hu := tdiv_near ((u - 128) * 2018)
  rw [abs_lt, blue]
  omega

theorem toNat_byte (x : ℤ) : ((UInt8.ofNat (clampByte x).toNat).toNat : ℤ) = clampByte x := by
  obtain ⟨hlow, hhigh⟩ := clampByte_bounds x
  rw [UInt8.toNat_ofNat', Nat.mod_eq_of_lt (by omega), Int.toNat_of_nonneg hlow]

/-- Three roundings at most, each by less than one. -/
theorem rgb_near (y u v : ℤ) :
    List.Forall₂ (fun value e => |1000 * (value.toNat : ℤ) - clip e| < 3000) (rgb y u v) (exact y u v) := by
  have hred := clampByte_near (red_near y v)
  have hblue := clampByte_near (blue_near y u)
  refine .cons ?_ (.cons ?_ (.cons ?_ .nil))
  · rw [toNat_byte]
    exact hred.trans (by decide)
  · rw [toNat_byte]
    exact clampByte_near (green_near y u v)
  · rw [toNat_byte]
    exact hblue.trans (by decide)

/-! ## The loops -/

variable {raw proc : Bytes} {y x j : ℕ}

theorem pair_apply (h : 640 * y + x = 2 * j) (a : ℕ) :
    pair raw y x proc a = if 6 * j ≤ a ∧ a < 6 * j + 6 then (pixel raw (a / 3)).getD (a % 3) 0 else proc a := by
  have hbase : 3 * (2 * j) = 6 * j := by omega
  have hlen (y1 y2 u v : ℤ) : (rgb y1 u v ++ rgb y2 u v).length = 6 := rfl
  simp only [pair, h, hbase, memcpy, hlen]
  split_ifs with hin
  · obtain ⟨r, rfl⟩ : ∃ r, a = 6 * j + r := ⟨a - 6 * j, by omega⟩
    have hr : r < 6 := by omega
    rw [Nat.add_sub_cancel_left]
    -- the first three bytes are those of the first pixel
    by_cases hfirst : r < 3
    · have hp : (6 * j + r) / 3 = 2 * j := by omega
      have hc : (6 * j + r) % 3 = r := by omega
      rw [hp, hc, List.getD_append _ _ _ _ hfirst, pixel, show 4 * (2 * j / 2) = 2 * (2 * j) by omega]
    · have hp : (6 * j + r) / 3 = 2 * j + 1 := by omega
      have hc : (6 * j + r) % 3 = r - 3 := by omega
      rw [hp, hc, List.getD_append_right _ _ _ _ (not_lt.mp hfirst), pixel,
        show 4 * ((2 * j + 1) / 2) = 2 * (2 * j) by omega, show 2 * (2 * j + 1) + 1 = 2 * (2 * j) + 3 by omega]
      rfl
  · rfl

theorem row_apply (n a : ℕ) :
    (List.range n).foldl (fun proc k => pair raw y (2 * k) proc) proc a =
      if 1920 * y ≤ a ∧ a < 1920 * y + 6 * n then (pixel raw (a / 3)).getD (a % 3) 0 else proc a := by
  induction n with
  | zero => rw [if_neg (by omega)]; rfl
  | succ n ih =>
      rw [List.range_succ, List.foldl_append, List.foldl_cons, List.foldl_nil,
        pair_apply (show 640 * y + 2 * n = 2 * (320 * y + n) by omega), ih]
      split_ifs <;> first | rfl | omega

end Uyvy

theorem convertUyvyToRgb_apply (raw proc : Bytes) (a : ℕ) :
    convertUyvyToRgb raw proc a = if a < 3 * (640 * 480) then (Uyvy.pixel raw (a / 3)).getD (a % 3) 0 else proc a := by
  have hrows (n : ℕ) : (List.range n).foldl
      (fun proc y => (List.range 320).foldl (fun proc k => Uyvy.pair raw y (2 * k) proc) proc) proc a =
        if a < 1920 * n then (Uyvy.pixel raw (a / 3)).getD (a % 3) 0 else proc a := by
    induction n with
    | zero => rfl
    | succ n ih =>
        rw [List.range_succ (n := n), List.foldl_append, List.foldl_cons, List.foldl_nil, Uyvy.row_apply, ih]
        split_ifs <;> first | rfl | omega
  exact hrows 480

end CarBoundary

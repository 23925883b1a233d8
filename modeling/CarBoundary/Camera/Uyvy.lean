import CarBoundary.Camera.Stream

/-!
# From brightness and color differences to colors

`convert_uyvy_to_rgb` of `cameras.c`. Two pixels share the color differences `u` and `v`.
-/

namespace CarBoundary

/-- `CLAMP`. -/
def clampByte (x : ℤ) : ℤ :=
  let x := if x < 0 then 0 else x
  if x > 255 then 255 else x

namespace Uyvy

variable (y u v : ℤ)

def red : ℤ := ((y - 16) * 1164).tdiv 1000 + ((v - 128) * 1596).tdiv 1000

def green : ℤ := ((y - 16) * 1164).tdiv 1000 - ((v - 128) * 813).tdiv 1000 - ((u - 128) * 391).tdiv 1000

def blue : ℤ := ((y - 16) * 1164).tdiv 1000 + ((u - 128) * 2018).tdiv 1000

/-- The three bytes of a pixel. -/
def rgb : List UInt8 := [red y v, green y u v, blue y u].map fun value => UInt8.ofNat (clampByte value).toNat

/-- The body of the loop over `x`. -/
def pair (raw : Bytes) (y x : ℕ) (proc : Bytes) : Bytes :=
  let i := 640 * y + x
  let byte (a : ℕ) : ℤ := (raw a).toNat
  let u := byte (2 * i)
  let y1 := byte (2 * i + 1)
  let v := byte (2 * i + 2)
  let y2 := byte (2 * i + 3)
  memcpy (3 * i) (rgb y1 u v ++ rgb y2 u v) proc

/-- The bytes of a pixel, computed for it alone. -/
def pixel (raw : Bytes) (p : ℕ) : List UInt8 :=
  rgb (raw (2 * p + 1)).toNat (raw (4 * (p / 2))).toNat (raw (4 * (p / 2) + 2)).toNat

/-! ## The formulas without rounding -/

/-- A value in thousandths, within those of a byte. -/
def clip (value : ℤ) : ℤ := max 0 (min value 255000)

/-- Red, green and blue in thousandths. -/
def exact : List ℤ :=
  [(y - 16) * 1164 + (v - 128) * 1596, (y - 16) * 1164 - (v - 128) * 813 - (u - 128) * 391,
    (y - 16) * 1164 + (u - 128) * 2018]

end Uyvy

def convertUyvyToRgb (raw proc : Bytes) : Bytes :=
  (List.range 480).foldl (fun proc y => (List.range 320).foldl (fun proc k => Uyvy.pair raw y (2 * k) proc) proc) proc

end CarBoundary

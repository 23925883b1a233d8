import CarBoundary.Camera.Stream
import CarBoundary.Lib.ShiftBuffer

/-!
# From the Bayer pattern to colors

`convert_bayer_to_rgb` of `cameras.c`. The pointers are offsets from `raw_buf` and `proc_buf`.
-/

namespace CarBoundary

open ShiftBuffer (half)

/-- The variables of `convert_bayer_to_rgb`. -/
structure Demosaic where
  prevLine : ℕ
  curLine : ℕ
  nextLine : ℕ
  hVals : UInt32
  vSums : UInt32
  dst : ℕ
  out : Bytes

namespace Demosaic

variable (raw : Bytes) (s : Demosaic)

/-- Three times `*(dst++) = ..`. -/
def put (r g b : UInt8) : Demosaic := { s with dst := s.dst + 3, out := memcpy s.dst [r, g, b] s.out }

/-- The four configurations. In the last column the average of the four corners is spelled `vSums`. -/
def store (yOdd : Bool) (x : ℕ) (hSum corners : UInt8) : Demosaic :=
  let current := (s.hVals >>> 8).toUInt8
  let vSum := (s.vSums >>> 8).toUInt8
  if yOdd = false then
    if x % 2 = 0 then s.put hSum current vSum else s.put current (half hSum vSum) corners
  else if x % 2 = 0 then s.put corners (half hSum vSum) current
  else s.put vSum current hSum

/-- What comes before the loop over `x`. -/
def rowStart (y : ℕ) : Demosaic :=
  let s :=
    if y > 0 ∧ y < 479 then { s with prevLine := s.curLine - 640 }
    else if y = 0 then { s with prevLine := s.nextLine }
    else { s with nextLine := s.prevLine }
  let vSum (k : ℕ) : UInt32 := (raw (s.prevLine + k)).toUInt32 + (raw (s.nextLine + k)).toUInt32
  { s with
    prevLine := s.prevLine + 1
    curLine := s.curLine + 1
    nextLine := s.nextLine + 1
    hVals := (raw s.curLine).toUInt32 <<< 8 ||| (raw (s.curLine + 1)).toUInt32 <<< 16
    vSums := (vSum 0 <<< 7 &&& (0xFF00 : UInt32)) ||| (vSum 1 <<< 15 &&& (0xFF0000 : UInt32)) }

/-- The body of the loop over `x`. -/
def column (yOdd : Bool) (x : ℕ) : Demosaic :=
  let s : Demosaic := { s with
    prevLine := s.prevLine + 1
    curLine := s.curLine + 1
    nextLine := s.nextLine + 1
    hVals := s.hVals ||| (raw s.curLine).toUInt32
    vSums := s.vSums ||| ((raw s.prevLine).toUInt32 + (raw s.nextLine).toUInt32) >>> 1 }
  let hSum := half (s.hVals >>> 16).toUInt8 s.hVals.toUInt8
  let s := s.store yOdd x hSum (half (s.vSums >>> 16).toUInt8 s.vSums.toUInt8)
  { s with hVals := s.hVals <<< 8, vSums := s.vSums <<< 8 }

/-- The right column boundary case. -/
def rowEnd (yOdd : Bool) : Demosaic :=
  let s : Demosaic := { s with
    hVals := s.hVals ||| (s.hVals >>> 16).toUInt8.toUInt32
    vSums := s.vSums ||| (s.vSums >>> 16).toUInt8.toUInt32 }
  s.store yOdd 639 s.hVals.toUInt8 s.vSums.toUInt8

def row (y : ℕ) : Demosaic :=
  let yOdd := decide (y % 2 = 1)
  ((List.range 639).foldl (fun s x => s.column raw yOdd x) (s.rowStart raw y)).rowEnd yOdd

end Demosaic

def convertBayerToRgb (raw proc : Bytes) : Bytes :=
  ((List.range 480).foldl (fun s y => s.row raw y) (⟨0, 0, 640, 0, 0, 0, proc⟩ : Demosaic)).out

/-! ## The formulas -/

/-- The line or column before, where the first one has the second one on either side. -/
def mirrorPrev (i : ℕ) : ℕ := if i = 0 then 1 else i - 1

def mirrorNext (n i : ℕ) : ℕ := if i + 1 = n then n - 2 else i + 1

namespace Bayer

variable (raw : Bytes) (x y : ℕ)

def current : UInt8 := raw (640 * y + x)

/-- The average of the pixels to the left and to the right. -/
def sides : UInt8 := half (current raw (mirrorPrev x) y) (current raw (mirrorNext 640 x) y)

def aboveBelow : UInt8 := half (current raw x (mirrorPrev y)) (current raw x (mirrorNext 480 y))

def corners : UInt8 := half (aboveBelow raw (mirrorPrev x) y) (aboveBelow raw (mirrorNext 640 x) y)

/-- Red, green and blue of a pixel, each computed from its neighbours alone. -/
def rgb : List UInt8 :=
  if y % 2 = 0 then
    if x % 2 = 0 then [sides raw x y, current raw x y, aboveBelow raw x y]
    else [current raw x y, half (sides raw x y) (aboveBelow raw x y), corners raw x y]
  else if x % 2 = 0 then [corners raw x y, half (sides raw x y) (aboveBelow raw x y), current raw x y]
  else [aboveBelow raw x y, current raw x y, sides raw x y]

/-- The formulas in the comment of `convert_bayer_to_rgb`. -/
def documented : List ℕ :=
  let here := (current raw x y).toNat
  let left := (current raw (mirrorPrev x) y).toNat
  let right := (current raw (mirrorNext 640 x) y).toNat
  let above := (current raw x (mirrorPrev y)).toNat
  let below := (current raw x (mirrorNext 480 y)).toNat
  let four := ((current raw (mirrorPrev x) (mirrorPrev y)).toNat +
    (current raw (mirrorPrev x) (mirrorNext 480 y)).toNat +
    (current raw (mirrorNext 640 x) (mirrorPrev y)).toNat +
    (current raw (mirrorNext 640 x) (mirrorNext 480 y)).toNat) / 4
  if y % 2 = 0 then
    if x % 2 = 0 then [(left + right) / 2, here, (above + below) / 2]
    else [here, (left + right + above + below) / 4, four]
  else if x % 2 = 0 then [four, (left + right + above + below) / 4, here]
  else [(above + below) / 2, here, (left + right) / 2]

end Bayer

end CarBoundary

import CarBoundary.Sensor.Lemmas.Landing
import Mathlib.Analysis.SpecialFunctions.Trigonometric.Bounds
import Mathlib.Analysis.Real.Pi.Bounds

/-!
# Level devices that look straight ahead

With the real sine, cosine and tangent, the tables of `kinect_init` and the direction entries of
`init_one_device` fit together: on a device with both angles zero, all pixels with one raw depth land at one
distance ahead of the base.
-/

namespace CarBoundary

noncomputable section

def realLibm : Libm ℝ := ⟨Real.sin, Real.cos, Real.tan⟩

def colAngle (i : ℕ) : ℝ := deg2rad (57 * (i / 640) - 57 / 2)

def rowAngle (j : ℕ) : ℝ := deg2rad (43 / 2 - 43 * (j / 480))

/-- A device as `kinect_init` sets it up from a definition with both angles zero. -/
def levelDevice (device : ℤ) (baseX baseY baseZ : ℝ) : KDevice ℝ :=
  initOneDevice realLibm device baseX baseY baseZ 0 0

theorem lit_eq (n k : ℕ) : (lit n k : ℝ) = n / 10 ^ k := by simp [lit]

theorem deg2rad_eq (x : ℝ) : deg2rad x = x * 3141592654 / 180000000000 := by
  rw [deg2rad, lit_eq, lit_eq]
  norm_num
  ring

/-! ## The tables -/

theorem initOneDevice_unitH (device : ℤ) (baseX baseY baseZ hangle vangle : ℝ) (i : ℕ) :
    (initOneDevice realLibm device baseX baseY baseZ hangle vangle).dx i ^ 2 +
      (initOneDevice realLibm device baseX baseY baseZ hangle vangle).dy i ^ 2 = 1 :=
  Real.sin_sq_add_cos_sq _

theorem initOneDevice_unitV (device : ℤ) (baseX baseY baseZ hangle vangle : ℝ) (j : ℕ) :
    (initOneDevice realLibm device baseX baseY baseZ hangle vangle).dvh j ^ 2 +
      (initOneDevice realLibm device baseX baseY baseZ hangle vangle).dvv j ^ 2 = 1 :=
  Real.cos_sq_add_sin_sq _

theorem deg2rad_zero : deg2rad (0 : ℝ) = 0 := by rw [deg2rad, zero_mul]

section

variable (device : ℤ) (baseX baseY baseZ hangle vangle : ℝ) (i j : ℕ)

theorem colAngle_add : deg2rad (hangle + (fovH * ((i : ℝ) / (sensorWidth : ℝ))) - (fovH / ((2 : ℕ) : ℝ))) =
    deg2rad hangle + colAngle i := by
  simp only [colAngle, deg2rad_eq, fovH, lit_eq, sensorWidth]
  push_cast
  ring

theorem rowAngle_add : deg2rad (vangle - (fovV * ((j : ℝ) / (sensorHeight : ℝ))) + (fovV / ((2 : ℕ) : ℝ))) =
    deg2rad vangle + rowAngle j := by
  simp only [rowAngle, deg2rad_eq, fovV, lit_eq, sensorHeight]
  push_cast
  ring

theorem initOneDevice_dx : (initOneDevice realLibm device baseX baseY baseZ hangle vangle).dx i =
    Real.sin (deg2rad hangle + colAngle i) := congrArg Real.sin (colAngle_add hangle i)

theorem initOneDevice_dy : (initOneDevice realLibm device baseX baseY baseZ hangle vangle).dy i =
    Real.cos (deg2rad hangle + colAngle i) := congrArg Real.cos (colAngle_add hangle i)

theorem initOneDevice_dvv : (initOneDevice realLibm device baseX baseY baseZ hangle vangle).dvv j =
    Real.sin (deg2rad vangle + rowAngle j) := congrArg Real.sin (rowAngle_add vangle j)

theorem initOneDevice_dvh : (initOneDevice realLibm device baseX baseY baseZ hangle vangle).dvh j =
    Real.cos (deg2rad vangle + rowAngle j) := congrArg Real.cos (rowAngle_add vangle j)

theorem levelDevice_dx : (levelDevice device baseX baseY baseZ).dx i = Real.sin (colAngle i) := by
  rw [levelDevice, initOneDevice_dx, deg2rad_zero, zero_add]

theorem levelDevice_dy : (levelDevice device baseX baseY baseZ).dy i = Real.cos (colAngle i) := by
  rw [levelDevice, initOneDevice_dy, deg2rad_zero, zero_add]

theorem levelDevice_dvv : (levelDevice device baseX baseY baseZ).dvv j = Real.sin (rowAngle j) := by
  rw [levelDevice, initOneDevice_dvv, deg2rad_zero, zero_add]

theorem levelDevice_dvh : (levelDevice device baseX baseY baseZ).dvh j = Real.cos (rowAngle j) := by
  rw [levelDevice, initOneDevice_dvh, deg2rad_zero, zero_add]

theorem horizDepthMultiplier_eq : (kinectTables realLibm).horizDepthMultiplier i = 1 / Real.cos (colAngle i) := by
  simp only [kinectTables, realLibm, colAngle, fovH, lit_eq, sensorWidth]
  norm_num

theorem vertDepthMultiplier_eq : (kinectTables realLibm).vertDepthMultiplier j = 1 / Real.cos (rowAngle j) := by
  have hneg : deg2rad ((fovV : ℝ) * ((j : ℝ) / (sensorHeight : ℝ)) - fovV / ((2 : ℕ) : ℝ)) = -rowAngle j := by
    simp only [rowAngle, deg2rad_eq, fovV, lit_eq, sensorHeight]
    push_cast
    ring
  simp only [kinectTables, realLibm, hneg, Real.cos_neg, Nat.cast_one]

theorem level_distance (dev : KDevice ℝ) (raw : UInt16) :
    Reading.distance (kinectTables realLibm) ⟨dev, i, j, raw⟩ =
      rawDistance realLibm (raw &&& 0x7FF).toNat / (Real.cos (colAngle i) * Real.cos (rowAngle j)) := by
  rw [Reading.distance, horizDepthMultiplier_eq, vertDepthMultiplier_eq, mul_one_div, mul_one_div, div_div]
  rfl

end

/-! ## A flat wall stays flat -/

section

variable {device : ℤ} {baseX baseY baseZ depth : ℝ} {i j : ℕ}

theorem level_reach (hrow : Real.cos (rowAngle j) ≠ 0) :
    reach (levelDevice device baseX baseY baseZ) j (depth / (Real.cos (colAngle i) * Real.cos (rowAngle j))) =
      30 * depth / Real.cos (colAngle i) := by
  rw [reach, levelDevice_dvh]
  field_simp

theorem level_landPoint (hcol : Real.cos (colAngle i) ≠ 0) (hrow : Real.cos (rowAngle j) ≠ 0) :
    landPoint (levelDevice device baseX baseY baseZ) i j
        (depth / (Real.cos (colAngle i) * Real.cos (rowAngle j))) =
      ⟨baseX * 30 + 30 * depth * (Real.sin (colAngle i) / Real.cos (colAngle i)), baseY * 30 + 30 * depth,
        baseZ * 10 + 10 * depth * (Real.sin (rowAngle j) / (Real.cos (colAngle i) * Real.cos (rowAngle j)))⟩ := by
  rw [landPoint_eq, level_reach hrow, levelDevice_dx, levelDevice_dy, levelDevice_dvv]
  simp only [basePoint, levelDevice, initOneDevice, cubeXScale, cubeYScale, cubeZScale, Point.mk.injEq]
  refine ⟨?_, ?_, ?_⟩
  · push_cast; ring
  · field_simp; push_cast; ring
  · push_cast; ring

end

end

end CarBoundary

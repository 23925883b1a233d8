import CarBoundary.Sensor.Lemmas.Wall

/-!
# Walls that face a tilted camera

The multipliers of `kinect_init` make a wall that faces a level camera flat, for every heading. The tilt is added
to the angle of the row instead of turning the line of sight, so that it bends the wall (`staysFlat_iff`).
-/

namespace CarBoundary

noncomputable section

/-- The direction in which the device points, as a unit vector. -/
def opticalAxis (hangle vangle : ℝ) : Point ℝ :=
  ⟨Real.cos (deg2rad vangle) * Real.sin (deg2rad hangle), Real.cos (deg2rad vangle) * Real.cos (deg2rad hangle),
    Real.sin (deg2rad vangle)⟩

/-- The way from the base to the landing in meters, before it is scaled, projected on an axis. -/
def axisDistance (axis : Point ℝ) (dev : KDevice ℝ) (i j : ℕ) (d : ℝ) : ℝ :=
  let land := landMeters dev i j d
  (land.x - dev.baseX) * axis.x + (land.y - dev.baseY) * axis.y + (land.z - dev.baseZ) * axis.z

section

variable (device : ℤ) (baseX baseY baseZ hangle vangle : ℝ) (i j : ℕ) (raw : UInt16)

/-- What the pixel makes of its depth is as far ahead of the device as the table says of the raw depth. -/
def StaysFlat : Prop :=
  let dev := initOneDevice realLibm device baseX baseY baseZ hangle vangle
  axisDistance (opticalAxis hangle vangle) dev i j (Reading.distance (kinectTables realLibm) ⟨dev, i, j, raw⟩) =
    rawDistance realLibm (raw &&& 0x7FF).toNat

theorem axisDistance_eq (d : ℝ) :
    axisDistance (opticalAxis hangle vangle) (initOneDevice realLibm device baseX baseY baseZ hangle vangle) i j d =
      d * (Real.cos (deg2rad vangle) * Real.cos (deg2rad vangle + rowAngle j) * Real.cos (colAngle i) +
        Real.sin (deg2rad vangle) * Real.sin (deg2rad vangle + rowAngle j)) := by
  have hcol : Real.cos (colAngle i) = Real.cos (deg2rad hangle + colAngle i) * Real.cos (deg2rad hangle) +
      Real.sin (deg2rad hangle + colAngle i) * Real.sin (deg2rad hangle) := by
    rw [← Real.cos_sub, add_sub_cancel_left]
  simp only [axisDistance, landMeters, opticalAxis, initOneDevice_dx, initOneDevice_dy, initOneDevice_dvv,
    initOneDevice_dvh, add_sub_cancel_right, hcol]
  ring

theorem cos_rowAngle_eq : Real.cos (rowAngle j) =
    Real.cos (deg2rad vangle + rowAngle j) * Real.cos (deg2rad vangle) +
      Real.sin (deg2rad vangle + rowAngle j) * Real.sin (deg2rad vangle) := by
  rw [← Real.cos_sub, add_sub_cancel_left]

/-- The wall bends towards the line in the middle of the picture, in proportion to the distance. -/
theorem axisDistance_sub {D : ℝ} (hcol : Real.cos (colAngle i) ≠ 0) (hrow : Real.cos (rowAngle j) ≠ 0) :
    axisDistance (opticalAxis hangle vangle) (initOneDevice realLibm device baseX baseY baseZ hangle vangle) i j
        (D / (Real.cos (colAngle i) * Real.cos (rowAngle j))) - D =
      D / (Real.cos (colAngle i) * Real.cos (rowAngle j)) *
        (Real.sin (deg2rad vangle) * Real.sin (deg2rad vangle + rowAngle j) * (1 - Real.cos (colAngle i))) := by
  have hD : D = D / (Real.cos (colAngle i) * Real.cos (rowAngle j)) *
      (Real.cos (colAngle i) * Real.cos (rowAngle j)) := by
    rw [div_mul_cancel₀ D (mul_ne_zero hcol hrow)]
  rw [axisDistance_eq]
  calc _ = D / (Real.cos (colAngle i) * Real.cos (rowAngle j)) *
        (Real.cos (deg2rad vangle) * Real.cos (deg2rad vangle + rowAngle j) * Real.cos (colAngle i) +
          Real.sin (deg2rad vangle) * Real.sin (deg2rad vangle + rowAngle j) -
          Real.cos (colAngle i) * Real.cos (rowAngle j)) := by
        rw [mul_sub, ← hD]
    _ = _ := by
        congr 1
        rw [cos_rowAngle_eq vangle j]
        ring

variable {i}

theorem colAngle_eq_zero_iff : colAngle i = 0 ↔ i = 320 := by
  rw [colAngle, deg2rad_eq]
  constructor
  · intro h
    have h320 : (i : ℝ) = 320 := by linarith
    exact_mod_cast h320
  · rintro rfl
    norm_num

theorem cos_colAngle_eq_one_iff (hi : i < sensorWidth) : Real.cos (colAngle i) = 1 ↔ i = 320 := by
  have h0 : (0 : ℝ) ≤ i := Nat.cast_nonneg i
  have h640 : (i : ℝ) < 640 := by exact_mod_cast hi
  have hpi := Real.pi_gt_three
  have hlo : -(2 * Real.pi) < colAngle i := by
    rw [colAngle, deg2rad_eq]
    linarith
  have hhi : colAngle i < 2 * Real.pi := by
    rw [colAngle, deg2rad_eq]
    linarith
  rw [Real.cos_eq_one_iff_of_lt_of_lt hlo hhi, colAngle_eq_zero_iff]

theorem staysFlat_iff_of_distance (hi : i < sensorWidth)
    (hne : Reading.distance (kinectTables realLibm)
      ⟨initOneDevice realLibm device baseX baseY baseZ hangle vangle, i, j, raw⟩ ≠ 0) :
    StaysFlat device baseX baseY baseZ hangle vangle i j raw ↔
      Real.sin (deg2rad vangle) = 0 ∨ Real.sin (deg2rad vangle + rowAngle j) = 0 ∨ i = 320 := by
  rw [level_distance] at hne
  have hcos : Real.cos (colAngle i) * Real.cos (rowAngle j) ≠ 0 := by
    intro h0
    rw [h0, div_zero] at hne
    exact hne rfl
  obtain ⟨hcol, hrow⟩ := mul_ne_zero_iff.mp hcos
  have hsub := axisDistance_sub device baseX baseY baseZ hangle vangle i j
    (D := rawDistance realLibm (raw &&& 0x7FF).toNat) hcol hrow
  simp only [StaysFlat, level_distance]
  rw [← sub_eq_zero, hsub, mul_eq_zero_iff_left hne, mul_eq_zero, mul_eq_zero, sub_eq_zero, eq_comm (a := 1),
    cos_colAngle_eq_one_iff hi, or_assoc]

/-- For every mounting, pixel and raw depth that is worth plotting, a wall that faces the camera stays flat there
exactly if the camera is level, or the row looks level, or the pixel is in the middle column. -/
theorem staysFlat_iff (hi : i < sensorWidth)
    (hworth : worthPlotting (Reading.distance (kinectTables realLibm)
      ⟨initOneDevice realLibm device baseX baseY baseZ hangle vangle, i, j, raw⟩) = true) :
    StaysFlat device baseX baseY baseZ hangle vangle i j raw ↔
      Real.sin (deg2rad vangle) = 0 ∨ Real.sin (deg2rad vangle + rowAngle j) = 0 ∨ i = 320 := by
  apply staysFlat_iff_of_distance device baseX baseY baseZ hangle vangle j raw hi
  have hpos : (0 : ℝ) < 1 / 10 := by norm_num
  exact (hpos.trans (worthPlotting_iff.mp hworth).1).ne'

end

theorem wall_worthPlotting (dev : KDevice ℝ) :
    worthPlotting (Reading.distance (kinectTables realLibm) ⟨dev, 313, 240, patchRaw⟩) = true := by
  obtain ⟨hlo, hhi⟩ := wallDistance_mem (i := 313) (j := 240) (by decide) (by decide)
  rw [wallDistance_eq, worthPlotting_iff]
  exact ⟨by linarith, by linarith⟩

/-- Level, and turned to the right. -/
theorem turned_staysFlat : StaysFlat 1 6 5 1 90 0 313 240 patchRaw := by
  refine (staysFlat_iff 1 6 5 1 90 0 240 patchRaw (by decide) (wall_worthPlotting _)).mpr (Or.inl ?_)
  rw [deg2rad_zero, Real.sin_zero]

/-- Straight ahead, and tilted up by 30 degrees. -/
theorem tilted_bends : worthPlotting (Reading.distance (kinectTables realLibm)
    ⟨initOneDevice realLibm 1 6 5 1 0 30, 313, 240, patchRaw⟩) = true ∧
      ¬ StaysFlat 1 6 5 1 0 30 313 240 patchRaw := by
  have hworth := wall_worthPlotting (initOneDevice realLibm 1 6 5 1 0 30)
  have hrow : rowAngle 240 = 0 := by
    rw [rowAngle, deg2rad_eq]
    norm_num
  have hpi := Real.pi_gt_three
  have hsin : 0 < Real.sin (deg2rad 30) := by
    apply Real.sin_pos_of_pos_of_lt_pi
    · rw [deg2rad_eq]
      norm_num
    · rw [deg2rad_eq]
      linarith
  have hne := (worthPlotting_iff.mp hworth).1
  refine ⟨hworth, fun hflat => ?_⟩
  rw [staysFlat_iff_of_distance 1 6 5 1 0 30 240 patchRaw (by decide) (by linarith), hrow, add_zero] at hflat
  simp [hsin.ne'] at hflat

end

end CarBoundary

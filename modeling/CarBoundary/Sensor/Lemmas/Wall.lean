import CarBoundary.Sensor.Lemmas.Level
import CarBoundary.Sensor.Lemmas.Patch

/-!
# A small wall in front of a level device

For a level device the lines of sight to a patch of a wall end in one cube, if the device stands well.
-/

namespace CarBoundary

noncomputable section

/-! ## The angles -/

theorem sin_mem_of_small {x : ℝ} (hx : x ∈ Set.Icc (-(24 / 1000)) 0) : Real.sin x ∈ Set.Icc x 0 := by
  have hs := Real.sin_le (neg_nonneg.mpr hx.2)
  have hp := Real.sin_nonneg_of_nonneg_of_le_pi (neg_nonneg.mpr hx.2) (by linarith [Real.pi_gt_three, hx.1])
  rw [Real.sin_neg] at hs hp
  exact ⟨by linarith, by linarith⟩

theorem cos_mem_of_small {x : ℝ} (hx : x ∈ Set.Icc (-(24 / 1000)) 0) : Real.cos x ∈ Set.Icc (9997 / 10000) 1 := by
  have hc := Real.one_sub_sq_div_two_le_cos (x := x)
  have hsq : x ^ 2 ≤ (24 / 1000) ^ 2 := sq_le_sq' hx.1 (by linarith [hx.2])
  exact ⟨by linarith, Real.cos_le_one x⟩

theorem div_mem_of_close {s c a : ℝ} (hs : s ∈ Set.Icc (-a) 0) (hc : c ∈ Set.Icc (999 / 1000) 1) :
    s / c ∈ Set.Icc (-(a * 1000 / 999)) 0 := by
  have hpos : 0 < c := by linarith [hc.1]
  have ha : 0 ≤ a := by linarith [hs.1, hs.2]
  refine ⟨?_, div_nonpos_of_nonpos_of_nonneg hs.2 hpos.le⟩
  rw [le_div_iff₀ hpos]
  have hac : a * (999 / 1000) ≤ a * c := mul_le_mul_of_nonneg_left hc.1 ha
  linarith [hs.1]

theorem colAngle_mem {i : ℕ} (h : 313 ≤ i ∧ i < 321) : colAngle i ∈ Set.Icc (-(11 / 1000)) 0 := by
  have hlo : (313 : ℝ) ≤ i := by exact_mod_cast h.1
  have hhi : (i : ℝ) ≤ 320 := by exact_mod_cast Nat.le_of_lt_succ h.2
  rw [colAngle, deg2rad_eq]
  exact ⟨by linarith, by linarith⟩

theorem rowAngle_mem {j : ℕ} (h : 240 ≤ j ∧ j < 256) : rowAngle j ∈ Set.Icc (-(24 / 1000)) 0 := by
  have hlo : (240 : ℝ) ≤ j := by exact_mod_cast h.1
  have hhi : (j : ℝ) ≤ 255 := by exact_mod_cast Nat.le_of_lt_succ h.2
  rw [rowAngle, deg2rad_eq]
  exact ⟨by linarith, by linarith⟩

theorem colAngle_sin_cos {i : ℕ} (h : 313 ≤ i ∧ i < 321) :
    Real.sin (colAngle i) ∈ Set.Icc (-(11 / 1000)) 0 ∧ Real.cos (colAngle i) ∈ Set.Icc (9997 / 10000) 1 := by
  obtain ⟨h1, h2⟩ := colAngle_mem h
  have hx : colAngle i ∈ Set.Icc (-(24 / 1000)) 0 := ⟨by linarith, h2⟩
  obtain ⟨hs1, hs2⟩ := sin_mem_of_small hx
  exact ⟨⟨h1.trans hs1, hs2⟩, cos_mem_of_small hx⟩

theorem rowAngle_sin_cos {j : ℕ} (h : 240 ≤ j ∧ j < 256) :
    Real.sin (rowAngle j) ∈ Set.Icc (-(24 / 1000)) 0 ∧ Real.cos (rowAngle j) ∈ Set.Icc (9997 / 10000) 1 := by
  have hx := rowAngle_mem h
  obtain ⟨hs1, hs2⟩ := sin_mem_of_small hx
  exact ⟨⟨hx.1.trans hs1, hs2⟩, cos_mem_of_small hx⟩

/-! ## The depth -/

theorem patchRaw_toNat : (patchRaw &&& 0x7FF).toNat = 610 := by decide

theorem farRaw_toNat : (farRaw &&& 0x7FF).toNat = 2047 := by decide

theorem rawDistance_far : rawDistance realLibm 2047 = 0 := by simp [rawDistance]

theorem tan_mem_of_rest {y : ℝ} (h0 : 0 < y) (h1 : y ≤ 1) :
    Real.tan (Real.pi / 2 - y) ∈ Set.Icc ((1 - y ^ 2 / 2) / y) (1 / y) := by
  have hpi := Real.pi_gt_three
  have hy : y < Real.pi / 2 := by linarith
  have hlt := Real.lt_tan h0 hy
  have hcos : 0 < 1 - y ^ 2 / 2 := by nlinarith
  have hle : Real.tan y ≤ y / (1 - y ^ 2 / 2) := by
    rw [Real.tan_eq_sin_div_cos]
    exact div_le_div₀ h0.le (Real.sin_le h0.le) hcos Real.one_sub_sq_div_two_le_cos
  rw [Real.tan_pi_div_two_sub, ← one_div]
  refine ⟨?_, one_div_le_one_div_of_le h0 hlt.le⟩
  rw [← one_div_div]
  exact one_div_le_one_div_of_le (h0.trans hlt) hle

theorem rawDistance_wall : rawDistance realLibm 610 ∈ Set.Icc (679 / 1000 : ℝ) (691 / 1000) := by
  set y : ℝ := Real.pi / 2 - (610 / (28425 / 10) + 11863 / 10000) with hy
  have hlo : 1698 / 10000 < y := by rw [hy]; linarith [Real.pi_gt_d6]
  have hhi : y < 1700 / 10000 := by rw [hy]; linarith [Real.pi_lt_d6]
  have h0 : 0 < y := by linarith
  obtain ⟨h1, h2⟩ := tan_mem_of_rest h0 (by linarith)
  have hsq : y ^ 2 ≤ (17 / 100) ^ 2 := pow_le_pow_left₀ h0.le (by linarith) 2
  have h3 : (1 - (17 / 100) ^ 2 / 2) / (17 / 100) ≤ (1 - y ^ 2 / 2) / y :=
    div_le_div₀ (by linarith) (by linarith) h0 (by linarith)
  have h4 : 1 / y ≤ 1 / (1698 / 10000) := one_div_le_one_div_of_le (by norm_num) hlo.le
  have htan : Real.tan (610 / (28425 / 10) + 11863 / 10000) = Real.tan (Real.pi / 2 - y) := by rw [hy]; congr 1; ring
  have hraw : rawDistance realLibm 610 =
      1236 / 10000 * Real.tan (610 / (28425 / 10) + 11863 / 10000) - 370 / 10000 := by
    simp only [rawDistance, realLibm, lit_eq]
    norm_num
  rw [hraw, htan]
  constructor
  · have := h3.trans h1
    norm_num at this
    linarith
  · have := h2.trans h4
    norm_num at this
    linarith

/-! ## The landings -/

section

variable {g : Grid} {device : ℤ} {baseX baseY baseZ : ℝ} {k : CubeCoord} {rows i j : ℕ}

/-- The lines of sight of a level device to the wall end in one cube, and the marches stay in the grid. -/
structure WallIn (g : Grid) (baseX baseY baseZ : ℝ) (k : CubeCoord) : Prop where
  hasCube : g.HasCube k
  left : (k.ix : ℝ) + 24 / 100 ≤ baseX * 30
  right : baseX * 30 < k.ix + 1
  base : 0 ≤ baseY * 30
  front : baseY * 30 + 21 < g.cubeLength
  near : (k.iy : ℝ) + 2 / 100 ≤ baseY * 30 + 2037 / 100
  far : baseY * 30 + 2073 / 100 < k.iy + 1
  below : (k.iz : ℝ) + 51 / 100 ≤ baseZ * 10
  above : baseZ * 10 < k.iz + 1

def wallDistance (i j : ℕ) : ℝ := rawDistance realLibm 610 / (Real.cos (colAngle i) * Real.cos (rowAngle j))

theorem wallDistance_eq (dev : KDevice ℝ) :
    Reading.distance (kinectTables realLibm) ⟨dev, i, j, patchRaw⟩ = wallDistance i j := by
  rw [level_distance, patchRaw_toNat, wallDistance]

variable (hi : 313 ≤ i ∧ i < 321) (hj : 240 ≤ j ∧ j < 256)
include hi hj

theorem wall_cos_mul_cos : Real.cos (colAngle i) * Real.cos (rowAngle j) ∈ Set.Icc (999 / 1000) 1 := by
  obtain ⟨hc1, hc2⟩ := (colAngle_sin_cos hi).2
  obtain ⟨hr1, hr2⟩ := (rowAngle_sin_cos hj).2
  constructor
  · nlinarith
  · exact mul_le_one₀ hc2 (by linarith) hr2

theorem wallDistance_mem : wallDistance i j ∈ Set.Icc (679 / 1000 : ℝ) 1 := by
  obtain ⟨hd1, hd2⟩ := rawDistance_wall
  obtain ⟨hc1, hc2⟩ := wall_cos_mul_cos hi hj
  have hpos : 0 < Real.cos (colAngle i) * Real.cos (rowAngle j) := by linarith
  rw [wallDistance]
  constructor
  · rw [le_div_iff₀ hpos]; linarith
  · rw [div_le_one hpos]; linarith

variable (device baseX baseY baseZ) in
theorem wall_reach :
    reach (levelDevice device baseX baseY baseZ) j (wallDistance i j) ∈ Set.Ioo (20 : ℝ) 21 := by
  obtain ⟨hd1, hd2⟩ := rawDistance_wall
  obtain ⟨hc1, hc2⟩ := (colAngle_sin_cos hi).2
  obtain ⟨hr1, hr2⟩ := (rowAngle_sin_cos hj).2
  have hpos : 0 < Real.cos (colAngle i) := by linarith
  rw [wallDistance, level_reach (by linarith : 0 < Real.cos (rowAngle j)).ne']
  constructor
  · rw [lt_div_iff₀ hpos]; linarith
  · rw [div_lt_iff₀ hpos]; linarith

theorem wall_landSteps : landSteps (levelDevice device baseX baseY baseZ) i j (wallDistance i j) = 21 := by
  obtain ⟨h1, h2⟩ := wall_reach device baseX baseY baseZ hi hj
  have hfloor : ⌊reach (levelDevice device baseX baseY baseZ) j (wallDistance i j)⌋₊ = 20 := by
    rw [Nat.floor_eq_iff (by linarith)]
    exact ⟨by exact_mod_cast h1.le, by norm_num; exact h2⟩
  have hceil : ⌈reach (levelDevice device baseX baseY baseZ) j (wallDistance i j)⌉₊ = 21 := by
    rw [Nat.ceil_eq_iff (by norm_num)]
    exact ⟨by norm_num; exact h1, by exact_mod_cast h2.le⟩
  rw [landSteps, Line.passSteps, hfloor, hceil, ite_self]

variable (device baseX baseY baseZ) in
theorem wall_landPoint : let land := landPoint (levelDevice device baseX baseY baseZ) i j (wallDistance i j)
    land.x ∈ Set.Icc (baseX * 30 - 24 / 100) (baseX * 30) ∧
      land.y ∈ Set.Icc (baseY * 30 + 2037 / 100) (baseY * 30 + 2073 / 100) ∧
      land.z ∈ Set.Icc (baseZ * 10 - 18 / 100) (baseZ * 10) := by
  obtain ⟨hd1, hd2⟩ := rawDistance_wall
  obtain ⟨hcs, hcc⟩ := colAngle_sin_cos hi
  obtain ⟨hrs, hrc⟩ := rowAngle_sin_cos hj
  obtain ⟨hx1, hx2⟩ := div_mem_of_close hcs ⟨by linarith [hcc.1], hcc.2⟩
  obtain ⟨hz1, hz2⟩ := div_mem_of_close hrs (wall_cos_mul_cos hi hj)
  have hcol : Real.cos (colAngle i) ≠ 0 := (by linarith [hcc.1] : 0 < Real.cos (colAngle i)).ne'
  have hrow : Real.cos (rowAngle j) ≠ 0 := (by linarith [hrc.1] : 0 < Real.cos (rowAngle j)).ne'
  simp only [wallDistance, level_landPoint hcol hrow]
  refine ⟨⟨?_, ?_⟩, ⟨?_, ?_⟩, ⟨?_, ?_⟩⟩ <;> nlinarith

omit hi hj in
theorem levelDevice_basePoint :
    basePoint (levelDevice device baseX baseY baseZ) = ⟨baseX * 30, baseY * 30, baseZ * 10⟩ := by
  simp [basePoint, levelDevice, initOneDevice, cubeXScale, cubeYScale, cubeZScale]

omit hi hj in
theorem WallIn.inbounds_of_mem (h : WallIn g baseX baseY baseZ k) {c : Point ℝ}
    (hx : c.x ∈ Set.Icc (baseX * 30 - 24 / 100) (baseX * 30)) (hy : c.y ∈ Set.Icc (baseY * 30) (baseY * 30 + 21))
    (hz : c.z ∈ Set.Icc (baseZ * 10 - 51 / 100) (baseZ * 10)) : inbounds g c = true := by
  obtain ⟨⟨hx0, hxw, _, _⟩, hz0, hzh⟩ := h.hasCube
  have hx0' : (0 : ℝ) ≤ k.ix := by exact_mod_cast hx0
  have hxw' : (k.ix : ℝ) + 1 ≤ g.cubeWidth := by exact_mod_cast hxw
  have hz0' : (0 : ℝ) ≤ k.iz := by exact_mod_cast hz0
  have hzh' : (k.iz : ℝ) + 1 ≤ g.cubeHeight := by exact_mod_cast hzh
  rw [inbounds_iff]
  refine ⟨⟨?_, ?_⟩, ⟨?_, ?_⟩, ⟨?_, ?_⟩⟩
  · linarith [hx.1, h.left]
  · linarith [hx.2, h.right]
  · linarith [hy.1, h.base]
  · linarith [hy.2, h.front]
  · linarith [hz.1, h.below]
  · linarith [hz.2, h.above]

variable (h : WallIn g baseX baseY baseZ k)
include h

variable (device) in
theorem wall_sighting : Sighting g (levelDevice device baseX baseY baseZ) i j (wallDistance i j) where
  base := by
    rw [levelDevice_basePoint]
    exact h.inbounds_of_mem ⟨by norm_num, le_rfl⟩ ⟨le_rfl, by norm_num⟩ ⟨by norm_num, le_rfl⟩
  unitH := initOneDevice_unitH _ _ _ _ _ _ _
  unitV := initOneDevice_unitV _ _ _ _ _ _ _
  near := by linarith [(wallDistance_mem hi hj).1]
  far := by linarith [(wallDistance_mem hi hj).2]

theorem wall_lands : Lands g (levelDevice device baseX baseY baseZ) i j (wallDistance i j) := by
  obtain ⟨⟨hc1, hc2⟩, hc3, hc4⟩ := colAngle_sin_cos hi
  obtain ⟨⟨hr1, hr2⟩, _⟩ := rowAngle_sin_cos hj
  rw [Lands, wall_landSteps hi hj, sample, levelDevice_basePoint]
  simp only [Point.along, direction, levelDevice_dx, levelDevice_dy, levelDevice_dvv]
  refine h.inbounds_of_mem ⟨?_, ?_⟩ ⟨?_, ?_⟩ ⟨?_, ?_⟩ <;> push_cast <;> linarith

theorem wall_cubeOf : cubeOf g (landPoint (levelDevice device baseX baseY baseZ) i j (wallDistance i j)) = k := by
  obtain ⟨⟨hx1, hx2⟩, ⟨hy1, hy2⟩, hz1, hz2⟩ := wall_landPoint device baseX baseY baseZ hi hj
  have hin : inbounds g (landPoint (levelDevice device baseX baseY baseZ) i j (wallDistance i j)) = true :=
    h.inbounds_of_mem ⟨hx1, hx2⟩ ⟨by linarith, by linarith⟩ ⟨by linarith, hz2⟩
  obtain ⟨hx, hy, hz⟩ := inbounds_iff.mp hin
  have hfx : ⌊(landPoint (levelDevice device baseX baseY baseZ) i j (wallDistance i j)).x⌋ = k.ix :=
    Int.floor_eq_iff.mpr ⟨by linarith [h.left], by linarith [h.right]⟩
  have hfy : ⌊(landPoint (levelDevice device baseX baseY baseZ) i j (wallDistance i j)).y⌋ = k.iy :=
    Int.floor_eq_iff.mpr ⟨by linarith [h.near], by linarith [h.far]⟩
  have hfz : ⌊(landPoint (levelDevice device baseX baseY baseZ) i j (wallDistance i j)).z⌋ = k.iz :=
    Int.floor_eq_iff.mpr ⟨by linarith [h.below], by linarith [h.above]⟩
  rw [cubeOf_of_mem hx.1 hy.1 hz, hfx, hfy, hfz]

theorem wall_guess {m : Mark} (hm : m ∈ guessMarks g (levelDevice device baseX baseY baseZ) i j (wallDistance i j)) :
    k.iy < m.cube.iy := by
  obtain ⟨p, hp, rfl⟩ := List.mem_map.mp hm
  obtain ⟨hc1, hc2⟩ := (colAngle_sin_cos hi).2
  obtain ⟨hr1, hr2⟩ := (rowAngle_sin_cos hj).2
  have hdvh : 0 < (levelDevice device baseX baseY baseZ).dvh j := by rw [levelDevice_dvh]; linarith
  obtain ⟨_, n, hn, hin, rfl⟩ := ((wall_sighting device hi hj h).mem_guessTrail_iff hdvh).mp hp
  obtain ⟨hx, hy, hz⟩ := inbounds_iff.mp hin
  obtain ⟨_, ⟨hy1, _⟩, _⟩ := wall_landPoint device baseX baseY baseZ hi hj
  have hn1 : (1 : ℝ) ≤ n := by exact_mod_cast hn
  simp only [Mark.cube, cubeOf_of_mem hx.1 hy.1 hz]
  rw [← Int.add_one_le_iff, Int.le_floor]
  simp only [Point.along, direction, levelDevice_dy]
  push_cast
  nlinarith [h.near]

end

theorem WallIn.patchIn {g : Grid} {baseX baseY baseZ : ℝ} {k : CubeCoord} (h : WallIn g baseX baseY baseZ k)
    (device : ℤ) {rows : ℕ} (hrows : rows ≤ 16) :
    PatchIn g (kinectTables realLibm) (levelDevice device baseX baseY baseZ) rows k := by
  have hrow {i j : ℕ} (hs : SeesPatch rows i j) : 240 ≤ j ∧ j < 256 := ⟨hs.2.1, by have := hs.2.2; omega⟩
  refine patchIn_of_landings (d := wallDistance) hrows h.hasCube ?_ ?_ ?_ ?_ ?_
  · intro i j _
    exact wallDistance_eq _
  · intro i j
    rw [level_distance, farRaw_toNat, rawDistance_far, zero_div, ← Bool.not_eq_true, worthPlotting_iff]
    norm_num
  · intro i j hs
    refine ⟨wall_sighting device hs.1 (hrow hs) h, ?_⟩
    rw [levelDevice_dvh]
    linarith [(rowAngle_sin_cos (hrow hs)).2.1]
  · intro i j hs
    exact ⟨wall_lands hs.1 (hrow hs) h, wall_cubeOf hs.1 (hrow hs) h⟩
  · intro i j hs m hm
    exact wall_guess hs.1 (hrow hs) h hm

/-! ## The shipped devices in front of a wall -/

theorem shippedDevices_eq : kinectDevices realLibm deviceDefinitions =
    [levelDevice 1 (5492 / 1000) (76725 / 10000) (14986 / 10000),
      levelDevice 0 (6508 / 1000) (76725 / 10000) (14986 / 10000)] := by
  simp only [kinectDevices, deviceDefinitions, lit_eq, levelDevice]
  norm_num

/-- The first shipped device sees the wall in a number of rows, and the second delivers no frame. -/
def wallDevices (rows : ℕ) : List (KDevice ℝ × Option Frame) :=
  (kinectDevices realLibm deviceDefinitions).zip [some (patchFrame rows), none]

def wallCube : CubeCoord := ⟨164, 250, 14⟩

theorem wallIn_wallCube : WallIn Config.shipped.grid (5492 / 1000) (76725 / 10000) (14986 / 10000) wallCube where
  hasCube := by decide
  left := by norm_num [wallCube]
  right := by norm_num [wallCube]
  base := by norm_num
  front := by norm_num [Config.grid, Config.shipped, cubeYScale]
  near := by norm_num [wallCube]
  far := by norm_num [wallCube]
  below := by norm_num [wallCube]
  above := by norm_num [wallCube]

theorem wallDevices_fetch (rows : ℕ) :
    ∀ d ∈ wallDevices rows, d.2.isSome → 0 ≤ d.1.device ∧ d.1.device < 64 := by
  intro d hd hs
  rw [wallDevices, shippedDevices_eq] at hd
  simp only [List.zip_cons_cons, List.zip_nil_right, List.mem_cons, List.not_mem_nil, or_false] at hd
  rcases hd with rfl | rfl
  · simp only [levelDevice, initOneDevice]; decide
  · cases hs

theorem wallDevices_id (rows : ℕ) : ∀ d ∈ wallDevices rows, d.2.isSome → d.1.id ≠ 0 := by
  intro d hd hs
  rw [d.1.id_eq]
  exact deviceId_ne_zero (wallDevices_fetch rows d hd hs).1 (wallDevices_fetch rows d hd hs).2

theorem pollReadings_wallDevices (rows : ℕ) : pollReadings (wallDevices rows) =
    deviceReadings (levelDevice 1 (5492 / 1000) (76725 / 10000) (14986 / 10000)) (some (patchFrame rows)) := by
  rw [wallDevices, shippedDevices_eq]
  simp [pollReadings, deviceReadings]

/-! ## Devices ahead of the car -/

/-- A device ahead of the car, at the height of the shipped ones. -/
def aheadDevice : KDevice ℝ := levelDevice 0 (601 / 100) 13 (14986 / 10000)

def aheadCube : CubeCoord := ⟨180, 410, 14⟩

theorem wallIn_aheadCube : WallIn Config.shipped.grid (601 / 100) 13 (14986 / 10000) aheadCube where
  hasCube := by decide
  left := by norm_num [aheadCube]
  right := by norm_num [aheadCube]
  base := by norm_num
  front := by norm_num [Config.grid, Config.shipped, cubeYScale]
  near := by norm_num [aheadCube]
  far := by norm_num [aheadCube]
  below := by norm_num [aheadCube]
  above := by norm_num [aheadCube]

theorem aheadDevice_patchIn :
    PatchIn Config.shipped.grid (kinectTables realLibm) aheadDevice 16 aheadCube :=
  wallIn_aheadCube.patchIn 0 (Nat.le_refl 16)

/-- A device at the height of the shipped ones, two thirds of a meter from the front end of the environment, that
sees a wall there. -/
def frontDevice : KDevice ℝ := levelDevice 0 (601 / 100) (1429 / 100) (14986 / 10000)

def frontCube : CubeCoord := ⟨180, 449, 14⟩

theorem wallIn_frontCube : WallIn Config.shipped.grid (601 / 100) (1429 / 100) (14986 / 10000) frontCube where
  hasCube := by decide
  left := by norm_num [frontCube]
  right := by norm_num [frontCube]
  base := by norm_num
  front := by norm_num [Config.grid, Config.shipped, cubeYScale]
  near := by norm_num [frontCube]
  far := by norm_num [frontCube]
  below := by norm_num [frontCube]
  above := by norm_num [frontCube]

theorem frontDevice_id : frontDevice.id ≠ 0 := by
  rw [frontDevice.id_eq]
  exact deviceId_ne_zero (Int.le_refl 0) (by decide : (0 : ℤ) < 64)

theorem frontDevice_patchIn : PatchIn Config.shipped.grid (kinectTables realLibm) frontDevice 1 frontCube :=
  wallIn_frontCube.patchIn 0 (by decide)

end

end CarBoundary

import CarBoundary.Sensor.Lemmas.Beam
import CarBoundary.Sensor.Lemmas.Cubes
import CarBoundary.Sensor.Theorems.Known

/-!
# Clears and guesses beside the line of sight

The march keeps to the line of sight horizontally, but its vertical step is not scaled to the height of a cube.
`onSight_iff` says for which directions the cubes that are cleared and guessed lie on the line of sight, wherever
the device is mounted and whatever the distance is.
-/

namespace CarBoundary

variable {K : Type*} [Field K] [LinearOrder K] [FloorRing K] {g : Grid} {dev : KDevice K} {i j : ℕ} {d : K}

/-! ## The line of sight -/

structure CubeCoord.Contains (c : CubeCoord) (p : Point K) : Prop where
  x : (c.ix : K) ≤ p.x ∧ p.x < c.ix + 1
  y : (c.iy : K) ≤ p.y ∧ p.y < c.iy + 1
  z : (c.iz : K) ≤ p.z ∧ p.z < c.iz + 1

/-- A point of the straight line through the base, where `u` is zero, and the landing, where `u` is one. -/
def sightPoint (dev : KDevice K) (i j : ℕ) (d u : K) : Point K :=
  let base := basePoint dev
  let land := landPoint dev i j d
  ⟨base.x + u * (land.x - base.x), base.y + u * (land.y - base.y), base.z + u * (land.z - base.z)⟩

/-- Every cube that is cleared meets the segment from the base to the landing, and every cube that is guessed meets
the line beyond the landing. -/
structure OnSight (g : Grid) (dev : KDevice K) (i j : ℕ) (d : K) : Prop where
  clear : ∀ m ∈ distanceMarks g dev i j d, m.isClear = true →
    ∃ u, 0 ≤ u ∧ u ≤ 1 ∧ m.cube.Contains (sightPoint dev i j d u)
  guess : ∀ m ∈ distanceMarks g dev i j d, m.isGuess = true →
    ∃ u, 1 < u ∧ m.cube.Contains (sightPoint dev i j d u)

def sightAt (dev : KDevice K) (i j : ℕ) (s : K) : Point K :=
  (basePoint dev).along ⟨dev.dx i, dev.dy i, dev.dvv j / (3 * dev.dvh j)⟩ s

def SameCube (p q : Point K) : Prop := ⌊p.x⌋ = ⌊q.x⌋ ∧ ⌊p.y⌋ = ⌊q.y⌋ ∧ ⌊p.z⌋ = ⌊q.z⌋

/-- In the column of each sample the line of sight has the height of the sample at some point before the landing,
for the samples that are cleared, or behind it, for those that are guessed. -/
structure HeightsAgree (g : Grid) (dev : KDevice K) (i j : ℕ) (d : K) : Prop where
  clear : ∀ n < landSteps dev i j d, inbounds g (sample dev i j n) = true →
    ∃ s, 0 ≤ s ∧ s ≤ reach dev j d ∧ SameCube (sightAt dev i j s) (sample dev i j n)
  guess : Lands g dev i j d → ∀ m : ℕ, 0 < m → inbounds g ((landPoint dev i j d).along (direction dev i j) m) = true →
    ∃ s, reach dev j d < s ∧ SameCube (sightAt dev i j s) ((landPoint dev i j d).along (direction dev i j) m)

omit [LinearOrder K] [FloorRing K] in
theorem sightPoint_eq (hdvh : dev.dvh j ≠ 0) [NeZero (3 : K)] (u : K) :
    sightPoint dev i j d u = sightAt dev i j (u * reach dev j d) := by
  simp only [sightPoint, sightAt, Point.along, landPoint_eq, reach, Point.mk.injEq]
  refine ⟨by ring, by ring, ?_⟩
  field_simp
  ring

theorem contains_cubeOf_iff {p q : Point K} (h : inbounds g p = true) :
    (cubeOf g p).Contains q ↔ SameCube q p := by
  obtain ⟨hx, hy, hz⟩ := inbounds_iff.mp h
  rw [cubeOf_of_mem hx.1 hy.1 hz, SameCube, Int.floor_eq_iff, Int.floor_eq_iff, Int.floor_eq_iff]
  exact ⟨fun hc => ⟨hc.x, hc.y, hc.z⟩, fun ⟨h1, h2, h3⟩ => ⟨h1, h2, h3⟩⟩

variable [IsStrictOrderedRing K]

theorem onSight_iff_heightsAgree (h : Sighting g dev i j d) (hdvh : 0 < dev.dvh j) :
    OnSight g dev i j d ↔ HeightsAgree g dev i j d := by
  have ht := h.reach_pos hdvh
  constructor
  · intro hs
    constructor
    · intro n hn hin
      obtain ⟨u, h0, h1, hc⟩ := hs.clear _ (h.clear_mem_distanceMarks hdvh hn hin) rfl
      rw [Mark.cube, contains_cubeOf_iff hin, sightPoint_eq hdvh.ne'] at hc
      exact ⟨u * reach dev j d, mul_nonneg h0 ht.le, mul_le_of_le_one_left ht.le h1, hc⟩
    · intro hl m hm hin
      obtain ⟨u, h1, hc⟩ := hs.guess _ (h.guess_mem_distanceMarks hdvh hl hm hin) rfl
      rw [Mark.cube, contains_cubeOf_iff hin, sightPoint_eq hdvh.ne'] at hc
      exact ⟨u * reach dev j d, lt_mul_of_one_lt_left ht h1, hc⟩
  · intro hs
    constructor
    · intro m hm hk
      obtain ⟨n, hn, hin, hcube⟩ := h.exists_sample_of_isClear hdvh hm hk
      obtain ⟨s, h0, h1, hc⟩ := hs.clear n hn hin
      refine ⟨s / reach dev j d, div_nonneg h0 ht.le, (div_le_one ht).mpr h1, ?_⟩
      rw [hcube, contains_cubeOf_iff hin, sightPoint_eq hdvh.ne', div_mul_cancel₀ s ht.ne']
      exact hc
    · intro m hm hk
      obtain ⟨hl, n, hn, hin, hcube⟩ := h.exists_along_of_isGuess hdvh hm hk
      obtain ⟨s, h1, hc⟩ := hs.guess hl n hn hin
      refine ⟨s / reach dev j d, (one_lt_div ht).mpr h1, ?_⟩
      rw [hcube, contains_cubeOf_iff hin, sightPoint_eq hdvh.ne', div_mul_cancel₀ s ht.ne']
      exact hc

/-! ## Directions in which the march keeps to the line of sight -/

/-- Where the vertical step is the slope of the line of sight on the cube scale, the march follows it. -/
theorem heightsAgree_of_slope (h : Sighting g dev i j d) (hdvh : 0 < dev.dvh j)
    (hslope : dev.dvv j / (3 * dev.dvh j) = dev.dvv j) : HeightsAgree g dev i j d := by
  have ht := h.reach_pos hdvh
  have hland : 10 * d * dev.dvv j = reach dev j d * dev.dvv j := by
    calc 10 * d * dev.dvv j = 30 * d * dev.dvh j * (dev.dvv j / (3 * dev.dvh j)) := by field_simp; ring
      _ = reach dev j d * dev.dvv j := by rw [hslope, reach]
  constructor
  · intro n hn hin
    refine ⟨n, Nat.cast_nonneg n, Line.le_of_lt_passSteps ht hn, ?_⟩
    simp only [SameCube, sightAt, sample, direction, hslope, and_self]
  · intro hl m hm hin
    refine ⟨reach dev j d + m, lt_add_of_pos_right _ (Nat.cast_pos.mpr hm), ?_⟩
    have heq : sightAt dev i j (reach dev j d + m) = (landPoint dev i j d).along (direction dev i j) m := by
      simp only [sightAt, landPoint_eq, Point.along, direction, hslope, hland, Point.mk.injEq]
      refine ⟨by ring, by ring, by ring⟩
    rw [heq]
    exact ⟨rfl, rfl, rfl⟩

/-! ## Other directions -/

variable {dx dy dvh dvv : K}

section

omit [FloorRing K] in
theorem mul_mem_of_abs_le {s v w : K} (hs : |s| ≤ w) (hv : |v| ≤ 1) : s * v ∈ Set.Icc (-w) w := by
  have h : |s * v| ≤ w := by
    calc |s * v| = |s| * |v| := abs_mul s v
      _ ≤ |s| := mul_le_of_le_one_right (abs_nonneg s) hv
      _ ≤ w := hs
  exact abs_le.mp h

omit [FloorRing K] in
theorem inbounds_of_middle (hg : 30 ≤ g.cubeWidth ∧ 30 ≤ g.cubeLength ∧ 10 ≤ g.cubeHeight) {p : Point K}
    (hx : p.x ∈ Set.Ico (0 : K) 30) (hy : p.y ∈ Set.Ico (0 : K) 30) (hz : p.z ∈ Set.Ico (0 : K) 10) :
    inbounds g p = true := by
  have hW : (30 : K) ≤ g.cubeWidth := by exact_mod_cast hg.1
  have hL : (30 : K) ≤ g.cubeLength := by exact_mod_cast hg.2.1
  have hH : (10 : K) ≤ g.cubeHeight := by exact_mod_cast hg.2.2
  rw [inbounds_iff]
  exact ⟨⟨hx.1, hx.2.trans_le hW⟩, ⟨hy.1, hy.2.trans_le hL⟩, hz.1, hz.2.trans_le hH⟩

variable (hg : 30 ≤ g.cubeWidth ∧ 30 ≤ g.cubeLength ∧ 10 ≤ g.cubeHeight)
variable (hu : dx ^ 2 + dy ^ 2 = 1) (hv : dvh ^ 2 + dvv ^ 2 = 1) (hdvh : 0 < dvh) (hdvv : dvv ≠ 0) (i j : ℕ)
include hg hu hv hdvh hdvv

/-- Where the line of sight rises more slowly than the march, some device clears above or below it. -/
theorem exists_not_heightsAgree_of_slow (hslow : 1 < 3 * dvh) : ∃ (dev : KDevice K) (d : K),
    dev.dx i = dx ∧ dev.dy i = dy ∧ dev.dvh j = dvh ∧ dev.dvv j = dvv ∧ Sighting g dev i j d ∧
      ¬ HeightsAgree g dev i j d := by
  obtain ⟨hdvh1, hdvv1⟩ := Line.abs_le_one_of_sq_add hv
  obtain ⟨hdx1, hdy1⟩ := Line.abs_le_one_of_sq_add hu
  have hvle : dvh ≤ 1 := (abs_le.mp hdvh1).2
  -- in all its length the line of sight rises less than the march in four steps
  have hr : (2 + 6 * dvh) / (3 * dvh) < 4 := by
    rw [div_lt_iff₀ (by positivity)]
    linarith
  obtain ⟨l, hl4, hbefore⟩ := Line.exists_floor_ne_of_le 5 hdvv hr.ne
  have h4 := mul_mem_of_abs_le (s := (4 : K)) (w := 4) (by rw [abs_of_pos (by norm_num)]) hdvv1
  push_cast at hl4
  set dev := beam ⟨15, 15, l⟩ dx dy dvh dvv with hdev
  have hbase : basePoint dev = ⟨15, 15, l⟩ := beam_basePoint _ _ _ _ _
  have hreach : reach dev j ((2 + 6 * dvh) / (30 * dvh)) = 2 + 6 * dvh := by
    simp only [reach, hdev, beam]
    field_simp
  have hsight : Sighting g dev i j ((2 + 6 * dvh) / (30 * dvh)) := by
    refine ⟨?_, hu, hv, ?_, ?_⟩
    · rw [hbase]
      exact inbounds_of_middle hg ⟨by norm_num, by norm_num⟩ ⟨by norm_num, by norm_num⟩
        ⟨by linarith [hl4.1, h4.2], by linarith [hl4.2, h4.1]⟩
    · rw [lt_div_iff₀ (by positivity)]
      linarith
    · rw [div_lt_iff₀ (by positivity)]
      linarith
  have hsteps : 4 < landSteps dev i j ((2 + 6 * dvh) / (30 * dvh)) := by
    have hle := Line.le_passSteps (dev.dx i) (dev.dy i) (reach dev j ((2 + 6 * dvh) / (30 * dvh)))
    rw [← landSteps, hreach] at hle
    have hlt : (4 : K) < landSteps dev i j ((2 + 6 * dvh) / (30 * dvh)) := by linarith
    exact_mod_cast hlt
  have hin : inbounds g (sample dev i j (4 : ℕ)) = true := by
    have habs : |(4 : K)| ≤ 4 := by rw [abs_of_pos (by norm_num)]
    have hx := mul_mem_of_abs_le habs hdx1
    have hy := mul_mem_of_abs_le habs hdy1
    rw [sample, hbase]
    simp only [Point.along, direction, hdev, beam]
    push_cast
    exact inbounds_of_middle hg ⟨by linarith [hx.1], by linarith [hx.2]⟩ ⟨by linarith [hy.1], by linarith [hy.2]⟩
      ⟨by linarith [hl4.1], by linarith [hl4.2]⟩
  refine ⟨dev, _, rfl, rfl, rfl, rfl, hsight, fun hagree => ?_⟩
  obtain ⟨s, hs0, hs1, _, _, hz⟩ := hagree.clear 4 hsteps hin
  rw [hreach] at hs1
  rw [sightAt, sample, hbase] at hz
  simp only [Point.along, direction, hdev, beam] at hz
  refine hbefore (s / (3 * dvh)) (Or.inl ⟨?_, hr⟩) ?_
  · exact div_le_div_of_nonneg_right hs1 (by positivity)
  · rw [div_mul_eq_mul_div, ← mul_div_assoc']
    exact_mod_cast hz

omit hg hv hdvh hdvv in
theorem exists_late_column {e : K} (he : e < 1) :
    ∃ lx ∈ Set.Icc (13 : K) 16, ∃ ly ∈ Set.Icc (13 : K) 16,
      ∀ s, ⌊lx + s * dx⌋ = ⌊lx + dx⌋ → ⌊ly + s * dy⌋ = ⌊ly + dy⌋ → e < s := by
  obtain ⟨hdx1, hdy1⟩ := Line.abs_le_one_of_sq_add hu
  have h15 : (15 : K) ∈ Set.Icc (13 : K) 16 := ⟨by norm_num, by norm_num⟩
  have hcoord {v : K} (hv : v ≠ 0) (hv1 : |v| ≤ 1) :
      ∃ l ∈ Set.Icc (13 : K) 16, ∀ s, ⌊l + s * v⌋ = ⌊l + v⌋ → e < s := by
    obtain ⟨l, hl, hne⟩ := Line.exists_floor_ne_of_le 15 hv he.ne
    rw [one_mul] at hl hne
    push_cast at hl
    rw [abs_le] at hv1
    refine ⟨l, ⟨by linarith [hl.1], by linarith [hl.2]⟩, fun s hs => ?_⟩
    by_contra hse
    exact hne s (Or.inl ⟨not_lt.mp hse, he⟩) hs
  by_cases hx : dx = 0
  · have hy : dy ≠ 0 := by
      rintro rfl
      rw [hx] at hu
      norm_num at hu
    obtain ⟨ly, hly, hlate⟩ := hcoord hy hdy1
    exact ⟨15, h15, ly, hly, fun s _ hs => hlate s hs⟩
  · obtain ⟨lx, hlx, hlate⟩ := hcoord hx hdx1
    exact ⟨lx, hlx, 15, h15, fun s hs _ => hlate s hs⟩

end

/-! ### A device with a given landing -/

/-- A device all of whose pixels look in one direction, placed so that a distance lands at a point. -/
def landBeam (land : Point K) (dx dy dvh dvv d : K) : KDevice K :=
  beam ⟨land.x - d * dvh * dx * (cubeXScale : K), land.y - d * dvh * dy * (cubeYScale : K),
    land.z - d * dvv * (cubeZScale : K)⟩ dx dy dvh dvv

section

variable {land : Point K}

omit [FloorRing K] in
theorem landBeam_landPoint : landPoint (landBeam land dx dy dvh dvv d) i j d = land := by
  rw [landPoint_eq, landBeam, beam_basePoint]
  simp only [reach, beam, cubeXScale, cubeYScale, cubeZScale]
  cases land with
  | mk x y z =>
      rw [Point.mk.injEq]
      push_cast
      exact ⟨by ring, by ring, by ring⟩

omit [FloorRing K] in
theorem landBeam_sample (n : K) : sample (landBeam land dx dy dvh dvv d) i j n =
    ⟨land.x + (n - 30 * d * dvh) * dx, land.y + (n - 30 * d * dvh) * dy, land.z + (n - 10 * d) * dvv⟩ := by
  rw [sample, landBeam, beam_basePoint]
  simp only [Point.along, direction, beam, cubeXScale, cubeYScale, cubeZScale, Point.mk.injEq]
  push_cast
  exact ⟨by ring, by ring, by ring⟩

variable (hg : 30 ≤ g.cubeWidth ∧ 30 ≤ g.cubeLength ∧ 10 ≤ g.cubeHeight)
variable (hx : land.x ∈ Set.Icc (13 : K) 16) (hy : land.y ∈ Set.Icc (13 : K) 16) (hz : land.z ∈ Set.Icc (3 : K) 6)
variable (hu : dx ^ 2 + dy ^ 2 = 1) (hv : dvh ^ 2 + dvv ^ 2 = 1)
include hg hx hy hz hu hv

omit [FloorRing K] in
theorem inbounds_near_landing {s w : K} (hs : |s| ≤ 3) (hw : |w| ≤ 3) :
    inbounds g (⟨land.x + s * dx, land.y + s * dy, land.z + w * dvv⟩ : Point K) = true := by
  obtain ⟨hdx1, hdy1⟩ := Line.abs_le_one_of_sq_add hu
  have hsx := mul_mem_of_abs_le hs hdx1
  have hsy := mul_mem_of_abs_le hs hdy1
  have hwz := mul_mem_of_abs_le hw (Line.abs_le_one_of_sq_add hv).2
  exact inbounds_of_middle hg ⟨by linarith [hx.1, hsx.1], by linarith [hx.2, hsx.2]⟩
    ⟨by linarith [hy.1, hsy.1], by linarith [hy.2, hsy.2]⟩ ⟨by linarith [hz.1, hwz.1], by linarith [hz.2, hwz.2]⟩

variable (hdvh : 0 < dvh) (hfast : 3 * dvh < 1)
include hdvh hfast

omit [FloorRing K] in
theorem landBeam_sighting : Sighting g (landBeam land dx dy dvh dvv (3 / 20)) i j (3 / 20) := by
  refine ⟨?_, hu, hv, by norm_num, by norm_num⟩
  have hbase : basePoint (landBeam land dx dy dvh dvv (3 / 20)) = sample (landBeam land dx dy dvh dvv (3 / 20)) i j 0 :=
    (Point.along_zero _ _).symm
  rw [hbase, landBeam_sample]
  exact inbounds_near_landing hg hx hy hz hu hv (abs_le.mpr ⟨by linarith, by linarith⟩)
    (abs_le.mpr ⟨by linarith, by linarith⟩)

theorem landBeam_lands : Lands g (landBeam land dx dy dvh dvv (3 / 20)) i j (3 / 20) := by
  have hsight := landBeam_sighting (i := i) (j := j) hg hx hy hz hu hv hdvh hfast
  have hreach : reach (landBeam land dx dy dvh dvv (3 / 20)) j (3 / 20) = 30 * (3 / 20) * dvh := rfl
  have hle := Line.le_passSteps ((landBeam land dx dy dvh dvv (3 / 20)).dx i)
    ((landBeam land dx dy dvh dvv (3 / 20)).dy i) (reach (landBeam land dx dy dvh dvv (3 / 20)) j (3 / 20))
  have hpred := hsight.landSteps_sub_one_le hdvh
  rw [← landSteps, hreach] at hle
  rw [hreach] at hpred
  rw [Lands, landBeam_sample]
  exact inbounds_near_landing hg hx hy hz hu hv (abs_le.mpr ⟨by linarith, by linarith⟩)
    (abs_le.mpr ⟨by linarith, by linarith⟩)

omit [FloorRing K] hdvh hfast in
theorem landBeam_behind : inbounds g ((landPoint (landBeam land dx dy dvh dvv d) i j d).along
    (direction (landBeam land dx dy dvh dvv d) i j) (1 : ℕ)) = true := by
  rw [landBeam_landPoint, Nat.cast_one]
  exact inbounds_near_landing hg hx hy hz hu hv (by norm_num) (by norm_num)

end

/-- Where the line of sight rises faster than the march, some device guesses above or below it. -/
theorem exists_not_heightsAgree_of_fast (hg : 30 ≤ g.cubeWidth ∧ 30 ≤ g.cubeLength ∧ 10 ≤ g.cubeHeight)
    (hu : dx ^ 2 + dy ^ 2 = 1) (hv : dvh ^ 2 + dvv ^ 2 = 1) (hdvh : 0 < dvh) (hdvv : dvv ≠ 0) (i j : ℕ)
    (hfast : 3 * dvh < 1) : ∃ (dev : KDevice K) (d : K), dev.dx i = dx ∧ dev.dy i = dy ∧ dev.dvh j = dvh ∧
      dev.dvv j = dvv ∧ Sighting g dev i j d ∧ ¬ HeightsAgree g dev i j d := by
  -- where the cube of the first guess is entered, the line of sight has risen more than the march in one step
  have hr : 1 < (1 + 3 * dvh) / 2 / (3 * dvh) := by
    rw [lt_div_iff₀ (by positivity)]
    linarith
  obtain ⟨lz, hlz1, hbeyond⟩ := Line.exists_floor_ne_of_le 5 hdvv hr.ne'
  obtain ⟨lx, hlx, ly, hly, hlate⟩ := exists_late_column hu (e := (1 + 3 * dvh) / 2) (by linarith)
  have hlz : lz ∈ Set.Icc (3 : K) 6 := by
    have hdvv1 := abs_le.mp (Line.abs_le_one_of_sq_add hv).2
    push_cast at hlz1
    exact ⟨by linarith [hlz1.1], by linarith [hlz1.2]⟩
  set dev := landBeam ⟨lx, ly, lz⟩ dx dy dvh dvv (3 / 20) with hdev
  have hin : inbounds g ((landPoint dev i j (3 / 20)).along (direction dev i j) (1 : ℕ)) = true :=
    landBeam_behind hg hlx hly hlz hu hv
  have hland : landPoint dev i j (3 / 20) = ⟨lx, ly, lz⟩ := landBeam_landPoint
  refine ⟨dev, 3 / 20, rfl, rfl, rfl, rfl, landBeam_sighting hg hlx hly hlz hu hv hdvh hfast, fun hagree => ?_⟩
  obtain ⟨s, hs, hx, hy, hz⟩ := hagree.guess (landBeam_lands hg hlx hly hlz hu hv hdvh hfast) 1 Nat.one_pos hin
  -- the line of sight as it is seen from the landing
  have hsight : sightAt dev i j s = ⟨lx + (s - 30 * (3 / 20) * dvh) * dx, ly + (s - 30 * (3 / 20) * dvh) * dy,
      lz + (s - 30 * (3 / 20) * dvh) / (3 * dvh) * dvv⟩ := by
    rw [sightAt, hdev, landBeam, beam_basePoint]
    simp only [Point.along, beam, cubeXScale, cubeYScale, cubeZScale, Point.mk.injEq]
    push_cast
    refine ⟨by ring, by ring, ?_⟩
    field_simp
    ring
  rw [hsight, hland] at hx hy hz
  simp only [Point.along, Nat.cast_one, one_mul] at hx hy hz hbeyond
  have hlate' := hlate _ hx hy
  exact hbeyond _ (Or.inr ⟨hr, (div_lt_div_of_pos_right hlate' (by positivity)).le⟩) hz

/-- For each reading, its cubes lie on the line of sight exactly if the heights agree. For each direction, this is so
for every mounting and every distance exactly if the direction is level or the cosine of its elevation is a third. -/
theorem onSight_iff (cfg : Config) {dx dy dvh dvv : K} (hu : dx ^ 2 + dy ^ 2 = 1) (hv : dvh ^ 2 + dvv ^ 2 = 1)
    (hdvh : 0 < dvh) (i j : ℕ) :
    (∀ (dev : KDevice K) (d : K), 0 < dev.dvh j → Sighting cfg.grid dev i j d →
      (OnSight cfg.grid dev i j d ↔ HeightsAgree cfg.grid dev i j d)) ∧
    ((∀ (dev : KDevice K) (d : K), dev.dx i = dx → dev.dy i = dy → dev.dvh j = dvh → dev.dvv j = dvv →
      Sighting cfg.grid dev i j d → OnSight cfg.grid dev i j d) ↔ dvv = 0 ∨ 3 * dvh = 1) := by
  have hg : 30 ≤ cfg.grid.cubeWidth ∧ 30 ≤ cfg.grid.cubeLength ∧ 10 ≤ cfg.grid.cubeHeight := by
    have h1 := cfg.envWidth_pos
    have h2 := cfg.envLength_pos
    have h3 := cfg.envHeight_pos
    simp only [Config.grid, cubeXScale, cubeYScale, cubeZScale]
    omega
  refine ⟨fun dev d hdvh h => onSight_iff_heightsAgree h hdvh, fun hall => ?_, ?_⟩
  · by_contra hno
    rw [not_or] at hno
    obtain ⟨dev, d, hdx, hdy, hdh, hdv, h, hnot⟩ : ∃ (dev : KDevice K) (d : K), dev.dx i = dx ∧ dev.dy i = dy ∧
        dev.dvh j = dvh ∧ dev.dvv j = dvv ∧ Sighting cfg.grid dev i j d ∧ ¬ HeightsAgree cfg.grid dev i j d := by
      rcases lt_or_gt_of_ne hno.2 with hfast | hslow
      · exact exists_not_heightsAgree_of_fast hg hu hv hdvh hno.1 i j hfast
      · exact exists_not_heightsAgree_of_slow hg hu hv hdvh hno.1 i j hslow
    exact hnot ((onSight_iff_heightsAgree h (hdh ▸ hdvh)).mp (hall dev d hdx hdy hdh hdv h))
  · rintro hslope dev d rfl rfl rfl rfl h
    refine (onSight_iff_heightsAgree h hdvh).mpr (heightsAgree_of_slope h hdvh ?_)
    rcases hslope with h0 | h1
    · rw [h0, zero_div]
    · rw [h1, div_one]

theorem level_onSight : OnSight Config.shipped.grid level 0 0 (1 / 2) :=
  (onSight_iff Config.shipped (by norm_num : (0 : ℚ) ^ 2 + 1 ^ 2 = 1) (by norm_num : (1 : ℚ) ^ 2 + 0 ^ 2 = 1)
    one_pos 0 0).2.mpr (Or.inl rfl) level (1 / 2) rfl rfl rfl rfl (level_sighting (by norm_num))

/-- Forty samples down the slope the march is seven layers below the line of sight, and three below the landing. -/
theorem downhill_far_offSight : Sighting Config.shipped.grid downhill 0 0 3 ∧ 0 < downhill.dvh 0 ∧
    ¬ OnSight Config.shipped.grid downhill 0 0 3 := by
  refine ⟨downhill_sighting (by norm_num), by decide +kernel, fun hs => ?_⟩
  have hmark : Mark.clear ⟨164, 270, 3⟩ (deviceId 1) ∈ distanceMarks Config.shipped.grid downhill 0 0 3 := by
    decide +kernel
  obtain ⟨u, h0, h1, hc⟩ := hs.clear _ hmark rfl
  have hbase : (basePoint downhill).z = 7493 / 500 := by decide +kernel
  have hland : (landPoint downhill 0 0 3).z = 3293 / 500 := by decide +kernel
  have hz := hc.z.2
  simp only [sightPoint, hbase, hland, Mark.cube] at hz
  push_cast at hz
  linarith

end CarBoundary

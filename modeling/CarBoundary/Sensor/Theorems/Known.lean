import CarBoundary.Sensor.Lemmas.Beam

/-!
# What one reading records

The landing of a reading (`recordsLanding_iff`), the indices of the writes (`marksInRange_iff`), the boundary
policy for landings below and above the grid (`boundaryPolicy_iff`) and the order of the three steps
(`evidence_all_or_nothing`), for every device, pixel and distance in exact arithmetic.
-/

namespace CarBoundary

/-- A device at the place of the first shipped one, with all pixels looking in one direction. -/
def beamDevice (dx dy dvh dvv : ℚ) : KDevice ℚ :=
  beam ⟨lit 16476 2, lit 230175 3, lit 14986 3⟩ dx dy dvh dvv

/-- Straight ahead and about 16 degrees down. -/
def downhill : KDevice ℚ := beamDevice 0 1 (24 / 25) (-7 / 25)

def level : KDevice ℚ := beamDevice 0 1 1 0

def uphill : KDevice ℚ := beamDevice 0 1 (7 / 25) (24 / 25)

theorem beamDevice_sighting {dx dy dvh dvv d : ℚ} (hu : dx ^ 2 + dy ^ 2 = 1) (hv : dvh ^ 2 + dvv ^ 2 = 1)
    (hd : 1 / 10 < d ∧ d < 30) : Sighting Config.shipped.grid (beamDevice dx dy dvh dvv) 0 0 d where
  base := by
    rw [beamDevice, beam_basePoint]
    decide +kernel
  unitH := hu
  unitV := hv
  near := hd.1
  far := hd.2

theorem downhill_sighting {d : ℚ} (hd : 1 / 10 < d ∧ d < 30) : Sighting Config.shipped.grid downhill 0 0 d :=
  beamDevice_sighting (by norm_num) (by norm_num) hd

theorem level_sighting {d : ℚ} (hd : 1 / 10 < d ∧ d < 30) : Sighting Config.shipped.grid level 0 0 d :=
  beamDevice_sighting (by norm_num) (by norm_num) hd

theorem uphill_sighting {d : ℚ} (hd : 1 / 10 < d ∧ d < 30) : Sighting Config.shipped.grid uphill 0 0 d :=
  beamDevice_sighting (by norm_num) (by norm_num) hd

variable {K : Type*} [Field K] [LinearOrder K] [FloorRing K] {g : Grid} {dev : KDevice K} {i j : ℕ} {d : K}

/-! ## The landing -/

/-- The reading records its landing: it makes exactly one known mark, on the cube that contains the landing, it
raises `known_count` of that cube by one, stores its id there, and sets the column to `COL_KNOWN`. -/
def RecordsLanding (g : Grid) (dev : KDevice K) (i j : ℕ) (d : K) : Prop :=
  let land := landPoint dev i j d
  let c : CubeCoord := ⟨⌊land.x⌋, ⌊land.y⌋, ⌊land.z⌋⟩
  knownMarksOf g dev i j d = [.known c dev.id] ∧
    ∀ env : Env, let env' := plotDistance g (fun m env => env.write g m) dev i j d env
      (env'.environmentCubes (g.cubeLoc c)).knownCount = (env.environmentCubes (g.cubeLoc c)).knownCount + 1 ∧
        (env'.environmentCubes (g.cubeLoc c)).knownBy = dev.id ∧
        env'.columnStatus (g.colLoc c.ix c.iy) = .known

theorem recordsLanding_of_knownMarks
    (h : knownMarks g dev i j d = [.known ⟨⌊(landPoint dev i j d).x⌋, ⌊(landPoint dev i j d).y⌋,
      ⌊(landPoint dev i j d).z⌋⟩ dev.id]) : RecordsLanding g dev i j d := by
  rw [← knownMarksOf_eq] at h
  exact ⟨h, plotDistance_of_known h⟩

theorem not_recordsLanding_of_knownMarks (h : knownMarks g dev i j d = []) : ¬ RecordsLanding g dev i j d := by
  rintro ⟨hk, _⟩
  rw [knownMarksOf_eq, h] at hk
  cases hk

variable [IsStrictOrderedRing K]

/-- A landing inside the grid is recorded exactly if the march is still in the grid after the number of steps
after which the sign test turns. -/
theorem recordsLanding_iff (h : Sighting g dev i j d) (hdvh : 0 < dev.dvh j)
    (hx : (landPoint dev i j d).x ∈ Set.Ico (0 : K) g.cubeWidth)
    (hy : (landPoint dev i j d).y ∈ Set.Ico (0 : K) g.cubeLength)
    (hz : (landPoint dev i j d).z ∈ Set.Ico (0 : K) g.cubeHeight) :
    RecordsLanding g dev i j d ↔ inbounds g (sample dev i j (landSteps dev i j d)) = true := by
  have hk := h.knownMarks_eq hdvh
  by_cases hl : Lands g dev i j d
  · rw [if_pos hl, cubeOf_of_mem hx.1 hy.1 hz] at hk
    exact iff_of_true (recordsLanding_of_knownMarks hk) hl
  · rw [if_neg hl] at hk
    exact iff_of_false (not_recordsLanding_of_knownMarks hk) hl

theorem downhill_near_recorded : RecordsLanding Config.shipped.grid downhill 0 0 (1 / 2) :=
  (recordsLanding_iff (downhill_sighting (by norm_num)) (by decide +kernel) (by decide +kernel)
    (by decide +kernel) (by decide +kernel)).mpr (by decide +kernel)

/-- Three meters ahead, two thirds of a meter above the ground, it is lost: the march goes down three times as
fast as the line of sight and leaves the grid through the ground. -/
theorem downhill_far_lost : Sighting Config.shipped.grid downhill 0 0 3 ∧ 0 < downhill.dvh 0 ∧
    (landPoint downhill 0 0 3).x ∈ Set.Ico (0 : ℚ) Config.shipped.grid.cubeWidth ∧
    (landPoint downhill 0 0 3).y ∈ Set.Ico (0 : ℚ) Config.shipped.grid.cubeLength ∧
    (landPoint downhill 0 0 3).z ∈ Set.Ico (0 : ℚ) Config.shipped.grid.cubeHeight ∧
    ¬ RecordsLanding Config.shipped.grid downhill 0 0 3 := by
  have hnone : knownMarks Config.shipped.grid downhill 0 0 3 = [] := by decide +kernel
  exact ⟨downhill_sighting (by norm_num), by decide +kernel, by decide +kernel, by decide +kernel, by decide +kernel,
    not_recordsLanding_of_knownMarks hnone⟩

/-! ## The boundary policy -/

/-- Anything below gets stuck to bottom, anything above gets ignored. -/
def BoundaryPolicy (g : Grid) (dev : KDevice K) (i j : ℕ) (d : K) : Prop :=
  let land := landPoint dev i j d
  (land.z < 0 → knownMarksOf g dev i j d = [.known ⟨⌊land.x⌋, ⌊land.y⌋, 0⟩ dev.id]) ∧
    ((g.cubeHeight : K) ≤ land.z → knownMarksOf g dev i j d = [])

/-- A landing below the grid sticks to the bottom exactly if the march is still in the grid when the sign test
turns, and a landing above it is ignored exactly if it is not. -/
theorem boundaryPolicy_iff (h : Sighting g dev i j d) (hdvh : 0 < dev.dvh j)
    (hx : (landPoint dev i j d).x ∈ Set.Ico (0 : K) g.cubeWidth)
    (hy : (landPoint dev i j d).y ∈ Set.Ico (0 : K) g.cubeLength) :
    BoundaryPolicy g dev i j d ↔
      ((landPoint dev i j d).z < 0 → inbounds g (sample dev i j (landSteps dev i j d)) = true) ∧
      ((g.cubeHeight : K) ≤ (landPoint dev i j d).z →
        ¬ inbounds g (sample dev i j (landSteps dev i j d)) = true) := by
  have hk := h.knownMarks_eq hdvh
  rw [BoundaryPolicy, knownMarksOf_eq, hk]
  refine and_congr (forall_congr' fun hz => ?_) (forall_congr' fun _ => ?_)
  · by_cases hl : Lands g dev i j d
    · rw [if_pos hl, cubeOf_of_neg hx.1 hy.1 hz]
      exact iff_of_true rfl hl
    · rw [if_neg hl]
      exact iff_of_false (by simp) hl
  · by_cases hl : Lands g dev i j d
    · rw [if_pos hl]
      exact iff_of_false (by simp) (not_not.mpr hl)
    · rw [if_neg hl]
      exact iff_of_true rfl hl

theorem uphill_far_ignored : BoundaryPolicy Config.shipped.grid uphill 0 0 5 :=
  (boundaryPolicy_iff (uphill_sighting (by norm_num)) (by decide +kernel) (by decide +kernel)
    (by decide +kernel)).mpr ⟨by decide +kernel, by decide +kernel⟩

/-- Six meters down the slope the landing lies below the ground and is not recorded at all. -/
theorem downhill_below_lost : Sighting Config.shipped.grid downhill 0 0 6 ∧ 0 < downhill.dvh 0 ∧
    (landPoint downhill 0 0 6).x ∈ Set.Ico (0 : ℚ) Config.shipped.grid.cubeWidth ∧
    (landPoint downhill 0 0 6).y ∈ Set.Ico (0 : ℚ) Config.shipped.grid.cubeLength ∧
    ¬ BoundaryPolicy Config.shipped.grid downhill 0 0 6 := by
  have hnone : knownMarksOf Config.shipped.grid downhill 0 0 6 = [] := by decide +kernel
  refine ⟨downhill_sighting (by norm_num), by decide +kernel, by decide +kernel, by decide +kernel, ?_⟩
  intro hpolicy
  have hmark := hpolicy.1 (by decide +kernel)
  rw [hnone] at hmark
  cases hmark

/-! ## The indices -/

/-- Every cube that the reading writes lies in the grid, and so every index lies in its array. -/
def MarksInRange (g : Grid) (dev : KDevice K) (i j : ℕ) (d : K) : Prop :=
  ∀ m ∈ distanceMarks g dev i j d, g.HasCube m.cube ∧
    (0 ≤ g.cubeLoc m.cube ∧ g.cubeLoc m.cube < g.numCubes) ∧ (0 ≤ m.column g ∧ m.column g < g.numColumns)

theorem hasCube_cubeOf {c : Point K} (hx : c.x ∈ Set.Ico (0 : K) g.cubeWidth)
    (hy : c.y ∈ Set.Ico (0 : K) g.cubeLength) : g.HasCube (cubeOf g c) ↔ c.z ≠ g.cubeHeight := by
  have hcol : g.HasColumn (cubeOf g c).ix (cubeOf g c).iy := by
    obtain ⟨hx0, hxw⟩ := ToInt.toInt_mem_Ico hx.1 hx.2
    obtain ⟨hy0, hyl⟩ := ToInt.toInt_mem_Ico hy.1 hy.2
    exact ⟨hx0, hxw, hy0, hyl⟩
  have hH := g.cubeHeight_pos
  rw [Grid.HasCube, and_iff_right hcol]
  rcases lt_or_ge c.z 0 with hz | hz
  · have hne : c.z ≠ g.cubeHeight := (hz.trans_le (Nat.cast_nonneg _)).ne
    simpa [cubeOf, hz, hne] using hH
  · rcases lt_trichotomy c.z g.cubeHeight with hlt | heq | hgt
    · refine iff_of_true ?_ hlt.ne
      simpa [cubeOf, not_lt.mpr hz, not_lt.mpr hlt.le] using ToInt.toInt_mem_Ico hz hlt
    · have hiz : (cubeOf g c).iz = g.cubeHeight := by
        have hno : ¬ c.z < 0 := not_lt.mpr hz
        simp only [cubeOf, Nat.cast_zero, hno, if_false]
        rw [heq, if_neg (lt_irrefl _), ToInt.toInt_of_nonneg (Nat.cast_nonneg _), Int.floor_natCast]
      exact iff_of_false (fun hin => absurd hin.2 (by rw [hiz]; exact lt_irrefl _)) (not_not.mpr heq)
    · refine iff_of_true ?_ hgt.ne'
      simp only [cubeOf, Nat.cast_zero, not_lt.mpr hz, if_false, hgt, if_true]
      omega

/-- The writes are in range exactly if the reading does not record a landing that lies at `CUBE_HEIGHT`. -/
theorem marksInRange_iff (h : Sighting g dev i j d) :
    MarksInRange g dev i j d ↔ ¬ ((landPoint dev i j d).z = g.cubeHeight ∧ EndsInGrid g dev i j d) := by
  have hcube : MarksInRange g dev i j d ↔ ∀ m ∈ distanceMarks g dev i j d, g.HasCube m.cube :=
    ⟨fun hm m hin => (hm m hin).1, fun hm m hin => ⟨hm m hin, (hm m hin).cubeLoc_mem, (hm m hin).1.colLoc_mem⟩⟩
  rw [hcube, distanceMarks_eq]
  constructor
  · rintro hall ⟨hz, he⟩
    obtain ⟨hx, hy⟩ := landPoint_mem_of_endsInGrid h.unitH h.base he
    have hknown := hall (.known (cubeOf g (landPoint dev i j d)) dev.id)
      (by simp [knownMarks, (clearEnd_inbounds_iff h.unitH h.base).mpr he])
    exact (hasCube_cubeOf hx hy).mp hknown hz
  · intro hno m hm
    rw [List.mem_append, List.mem_append] at hm
    rcases hm with (hm | hm) | hm
    · exact hasCube_of_mem_clearMarks hm
    · have he : EndsInGrid g dev i j d := by
        rw [← clearEnd_inbounds_iff h.unitH h.base]
        by_contra hout
        simp [knownMarks, hout] at hm
      obtain rfl := mem_knownMarks hm
      obtain ⟨hx, hy⟩ := landPoint_mem_of_endsInGrid h.unitH h.base he
      exact (hasCube_cubeOf hx hy).mpr fun hz => hno ⟨hz, he⟩
    · exact hasCube_of_mem_guessMarks hm

theorem downhill_far_inRange : MarksInRange Config.shipped.grid downhill 0 0 3 :=
  (marksInRange_iff (downhill_sighting (by norm_num))).mpr (by decide +kernel)

/-- A landing exactly at `CUBE_HEIGHT` is recorded in the layer above the last one, beyond the end of the array. -/
theorem uphill_top_outOfRange : Sighting Config.shipped.grid uphill 0 0 (2507 / 4800) ∧
    ¬ MarksInRange Config.shipped.grid uphill 0 0 (2507 / 4800) := by
  refine ⟨uphill_sighting (by norm_num), fun hall => ?_⟩
  have hmark : Mark.known ⟨164, 234, 20⟩ (deviceId 1) ∈ distanceMarks Config.shipped.grid uphill 0 0 (2507 / 4800) := by
    decide +kernel
  exact absurd (hall _ hmark).1 (by decide +kernel)

/-! ## All or nothing -/

/-- Step 1 runs at least once and ends by itself. If it ends outside the grid, the reading clears cubes and writes
nothing else; if it ends inside, exactly one known mark comes after the clear marks and before the guesses. -/
theorem evidence_all_or_nothing (h : Sighting g dev i j d) :
    clearGuard g dev i j d (clearEnd g dev i j d) = false ∧
    clearMarks g dev i j d ≠ [] ∧ (∀ m ∈ clearMarks g dev i j d, m.isClear = true) ∧
    (inbounds g (clearEnd g dev i j d) = false →
      distanceMarks g dev i j d = clearMarks g dev i j d ∧
      ∀ env : Env, let env' := plotDistance g (fun m env => env.write g m) dev i j d env
        (∀ loc, (env'.environmentCubes loc).knownBy = (env.environmentCubes loc).knownBy ∧
          (env'.environmentCubes loc).knownCount = (env.environmentCubes loc).knownCount ∧
          (env'.environmentCubes loc).guessCount = (env.environmentCubes loc).guessCount) ∧
        env'.columnStatus = env.columnStatus) ∧
    (inbounds g (clearEnd g dev i j d) = true →
      ∃ gs, distanceMarks g dev i j d =
          clearMarks g dev i j d ++ [.known (cubeOf g (landPoint dev i j d)) dev.id] ++ gs ∧
        ∀ m ∈ gs, m.isGuess = true) ∧
    ((∃ m ∈ distanceMarks g dev i j d, m.isGuess = true) → ∃ m ∈ distanceMarks g dev i j d, m.isKnown = true) := by
  obtain ⟨n, hn, hexit⟩ := exists_clearExits (g := g) (j := j) (d := d) h.unitH
  obtain ⟨n', _, hr⟩ := exists_clearRounds (g := g) (j := j) (d := d) h.unitH
  have hclear : ∀ m ∈ clearMarks g dev i j d, m.isClear = true := fun m hm => (kinds_of_mem_clearMarks hm).1
  have hguess : ∀ m ∈ guessMarks g dev i j d, m.isGuess = true := fun m hm => (kinds_of_mem_guessMarks hm).2.2
  have hout : inbounds g (clearEnd g dev i j d) = false →
      distanceMarks g dev i j d = clearMarks g dev i j d := by
    intro he
    rw [distanceMarks_eq, knownMarks, guessMarks, guessTrail_of_out h.unitH h.base he]
    simp [he]
  refine ⟨Loop.guard_run hexit hn, ?_, hclear, fun he => ⟨hout he, fun env => ?_⟩, fun he => ?_, ?_⟩
  · have hpos := hr.pos h.base
    simp [clearMarks, hr.clearTrail_eq, hpos.ne']
  · rw [plotDistance_eq, hout he]
    exact Env.writeAll_of_clear hclear env
  · refine ⟨guessMarks g dev i j d, ?_, hguess⟩
    rw [distanceMarks_eq, knownMarks, if_pos he]
  · rintro ⟨m, hm, hmg⟩
    by_cases he : inbounds g (clearEnd g dev i j d) = true
    · refine ⟨.known (cubeOf g (landPoint dev i j d)) dev.id, ?_, rfl⟩
      simp [distanceMarks_eq, knownMarks, he]
    · rw [hout (by simpa using he)] at hm
      rw [(kinds_of_mem_clearMarks hm).2.2] at hmg
      cases hmg

theorem downhill_far_no_guess : ¬ ∃ m ∈ distanceMarks Config.shipped.grid downhill 0 0 3, m.isGuess = true := by
  have hall := evidence_all_or_nothing (downhill_sighting (d := 3) (by norm_num))
  intro hguess
  obtain ⟨m, hm, hk⟩ := hall.2.2.2.2.2 hguess
  have hnone : ∀ m ∈ distanceMarks Config.shipped.grid downhill 0 0 3, m.isKnown = false := by decide +kernel
  rw [hnone m hm] at hk
  cases hk

end CarBoundary

import CarBoundary.Sensor.Lemmas.Cubes
import CarBoundary.Sensor.Theorems.Known

/-!
# When one reading classifies each cube once

The cubes that a reading clears, the cube it records and the cubes it guesses are different, and it counts for
each cube once at most, exactly if neighbouring samples around and behind the landing lie in different cubes.
-/

namespace CarBoundary

variable {K : Type*} [Field K] [LinearOrder K] [FloorRing K] {g : Grid} {dev : KDevice K} {i j : ℕ} {d : K}

/-- No cube is in two of the three sets of cubes, and no cube is counted twice. -/
structure ClassifiesOnce (g : Grid) (dev : KDevice K) (i j : ℕ) (d : K) : Prop where
  clear_known : ∀ m ∈ distanceMarks g dev i j d, ∀ m' ∈ distanceMarks g dev i j d,
    m.isClear = true → m'.isKnown = true → m.cube ≠ m'.cube
  clear_guess : ∀ m ∈ distanceMarks g dev i j d, ∀ m' ∈ distanceMarks g dev i j d,
    m.isClear = true → m'.isGuess = true → m.cube ≠ m'.cube
  known_guess : ∀ m ∈ distanceMarks g dev i j d, ∀ m' ∈ distanceMarks g dev i j d,
    m.isKnown = true → m'.isGuess = true → m.cube ≠ m'.cube
  counted_once : ∀ c, g.HasCube c →
    (Evidence.of g (g.cubeLoc c) (distanceMarks g dev i j d)).known +
      (Evidence.of g (g.cubeLoc c) (distanceMarks g dev i j d)).guesses ≤ 1

/-- Neighbouring samples around and behind the landing lie in different cubes. -/
structure NeighboursApart (g : Grid) (dev : KDevice K) (i j : ℕ) (d : K) : Prop where
  before : ∀ n < landSteps dev i j d, landSteps dev i j d ≤ n + 2 →
    cubeOf g (sample dev i j n) ≠ cubeOf g (landPoint dev i j d)
  behind : inbounds g ((landPoint dev i j d).along (direction dev i j) (1 : ℕ)) = true →
    cubeOf g (landPoint dev i j d) ≠ cubeOf g ((landPoint dev i j d).along (direction dev i j) (1 : ℕ)) ∧
      cubeOf g (sample dev i j (landSteps dev i j d - 1 : ℕ)) ≠
        cubeOf g ((landPoint dev i j d).along (direction dev i j) (1 : ℕ))
  further : ∀ m : ℕ, 0 < m → inbounds g ((landPoint dev i j d).along (direction dev i j) m) = true →
    inbounds g ((landPoint dev i j d).along (direction dev i j) (m + 1 : ℕ)) = true →
      cubeOf g ((landPoint dev i j d).along (direction dev i j) m) ≠
        cubeOf g ((landPoint dev i j d).along (direction dev i j) (m + 1 : ℕ))

/-! ## The counts -/

theorem evidence_guesses_eq_count {c : CubeCoord} (hc : g.HasCube c) :
    (Evidence.of g (g.cubeLoc c) (distanceMarks g dev i j d)).guesses =
      ((guessTrail g dev i j d).map (cubeOf g)).count c := by
  have hcount : (Evidence.of g (g.cubeLoc c) (distanceMarks g dev i j d)).guesses =
      (guessMarks g dev i j d).countP (Mark.hits g (g.cubeLoc c)) := by
    rw [← (filter_distanceMarks g dev i j d).2.2, List.countP_filter, Evidence.of]
  rw [hcount, guessMarks, List.countP_map, List.count, List.countP_map]
  refine List.countP_congr fun p hp => ?_
  have hin := hasCube_of_inbounds (Loop.trail_inside hp)
  rw [Function.comp_apply, Function.comp_apply, Mark.hits_iff, beq_iff_eq]
  exact ⟨fun he => hin.cubeLoc_inj hc he, fun he => congrArg g.cubeLoc he⟩

theorem evidence_known_le_one (g : Grid) (dev : KDevice K) (i j : ℕ) (d : K) (loc : ℤ) :
    (Evidence.of g loc (distanceMarks g dev i j d)).known ≤ 1 := by
  have hcount := countP_known_distanceMarks (g := g) dev i j d (fun m => m.hits g loc)
  have hof : (Evidence.of g loc (distanceMarks g dev i j d)).known =
      (distanceMarks g dev i j d).countP fun m => m.hits g loc && m.isKnown := rfl
  rw [hof, hcount]
  split
  · exact Nat.le_refl 1
  · exact Nat.zero_le 1

variable [IsStrictOrderedRing K]

theorem counted_once_iff (h : Sighting g dev i j d) (hdvh : 0 < dev.dvh j)
    (hne : ∀ m ∈ distanceMarks g dev i j d, ∀ m' ∈ distanceMarks g dev i j d,
      m.isKnown = true → m'.isGuess = true → m.cube ≠ m'.cube) :
    (∀ c, g.HasCube c →
      (Evidence.of g (g.cubeLoc c) (distanceMarks g dev i j d)).known +
        (Evidence.of g (g.cubeLoc c) (distanceMarks g dev i j d)).guesses ≤ 1) ↔
      ((guessTrail g dev i j d).map (cubeOf g)).Nodup := by
  rw [List.nodup_iff_count_le_one]
  constructor
  · intro hall c
    by_cases hc : c ∈ (guessTrail g dev i j d).map (cubeOf g)
    · obtain ⟨p, hp, rfl⟩ := List.mem_map.mp hc
      have hin := hasCube_of_inbounds (Loop.trail_inside hp)
      have hsum := hall _ hin
      rw [evidence_guesses_eq_count hin] at hsum
      omega
    · rw [List.count_eq_zero.mpr hc]
      exact Nat.zero_le 1
  · intro hall c hc
    have hk := evidence_known_le_one g dev i j d (g.cubeLoc c)
    have hg := hall c
    rw [evidence_guesses_eq_count hc]
    by_contra hlt
    have hk0 : 0 < (Evidence.of g (g.cubeLoc c) (distanceMarks g dev i j d)).known := by omega
    have hg0 : 0 < (Evidence.of g (g.cubeLoc c) (distanceMarks g dev i j d)).guesses := by
      rw [evidence_guesses_eq_count hc]
      omega
    obtain ⟨m, hm, hhit, hmk⟩ := Evidence.exists_known hk0
    obtain ⟨m', hm', hhit', hmg⟩ := Evidence.exists_guess hg0
    -- a reading that guesses anything has landed in the grid
    have hgrid' := hasCube_of_mem_guessMarks ((mem_distanceMarks hm').2.2 hmg)
    have hgrid : g.HasCube m.cube := by
      obtain ⟨hl, n, hn, hin, _⟩ := h.exists_along_of_isGuess hdvh hm' hmg
      rw [(h.lands_of_isKnown hdvh hm hmk).2]
      exact hasCube_of_inbounds (h.landPoint_inbounds hdvh hl (Nat.cast_pos.mpr hn) hin)
    refine hne m hm m' hm' hmk hmg ?_
    rw [hgrid.cubeLoc_inj hc hhit, hgrid'.cubeLoc_inj hc hhit']

theorem nodup_guesses_iff (h : Sighting g dev i j d) (hdvh : 0 < dev.dvh j) (hl : Lands g dev i j d) :
    ((guessTrail g dev i j d).map (cubeOf g)).Nodup ↔
      ∀ m : ℕ, 0 < m → inbounds g ((landPoint dev i j d).along (direction dev i j) m) = true →
        inbounds g ((landPoint dev i j d).along (direction dev i j) (m + 1 : ℕ)) = true →
          cubeOf g ((landPoint dev i j d).along (direction dev i j) m) ≠
            cubeOf g ((landPoint dev i j d).along (direction dev i j) (m + 1 : ℕ)) := by
  obtain ⟨n, hn, htrail⟩ := h.exists_guessTrail hdvh hl
  rw [htrail, List.map_map, List.nodup_map_iff_inj_on List.nodup_range]
  simp only [List.mem_range, hn, Function.comp_apply]
  constructor
  · intro hinj m hm hin hin' he
    obtain ⟨k, rfl⟩ : ∃ k, m = k + 1 := ⟨m - 1, by omega⟩
    have := hinj k hin (k + 1) hin' he
    omega
  · intro hnext k hk l hl' he
    by_contra hne
    -- of two guesses in one cube the later one is the next one
    rcases Nat.lt_or_gt_of_ne hne with hlt | hlt
    · have hle := h.le_of_guess_eq_guess hk hl' he
      obtain rfl : l = k + 1 := by omega
      exact hnext (k + 1) (Nat.succ_pos k) hk hl' he
    · have hle := h.le_of_guess_eq_guess hl' hk he.symm
      obtain rfl : k = l + 1 := by omega
      exact hnext (l + 1) (Nat.succ_pos l) hl' hk he.symm

/-! ## The theorem -/

/-- A reading classifies each cube once exactly if it records no landing or neighbouring samples around and behind
the landing lie in different cubes. -/
theorem classifiesOnce_iff (h : Sighting g dev i j d) (hdvh : 0 < dev.dvh j) :
    ClassifiesOnce g dev i j d ↔ (Lands g dev i j d → NeighboursApart g dev i j d) := by
  constructor
  · intro hc hl
    have hknown := h.known_mem_distanceMarks hdvh hl
    refine ⟨fun n hn _ => ?_, fun hin => ⟨?_, ?_⟩, ?_⟩
    · exact hc.clear_known _ (h.clear_mem_distanceMarks hdvh hn (h.sample_inbounds hl hn)) _ hknown rfl rfl
    · exact hc.known_guess _ hknown _ (h.guess_mem_distanceMarks hdvh hl Nat.one_pos hin) rfl rfl
    · have hpos : 0 < landSteps dev i j d := Line.passSteps_pos (h.reach_pos hdvh)
      have hlast := Nat.sub_lt hpos Nat.one_pos
      exact hc.clear_guess _ (h.clear_mem_distanceMarks hdvh hlast (h.sample_inbounds hl hlast)) _
        (h.guess_mem_distanceMarks hdvh hl Nat.one_pos hin) rfl rfl
    · exact (nodup_guesses_iff h hdvh hl).mp ((counted_once_iff h hdvh hc.known_guess).mp hc.counted_once)
  · intro hall
    have hknown_guess : ∀ m ∈ distanceMarks g dev i j d, ∀ m' ∈ distanceMarks g dev i j d,
        m.isKnown = true → m'.isGuess = true → m.cube ≠ m'.cube := by
      intro m hm m' hm' hk hg he
      obtain ⟨hl, hcube⟩ := h.lands_of_isKnown hdvh hm hk
      obtain ⟨_, n, hn, hin, hcube'⟩ := h.exists_along_of_isGuess hdvh hm' hg
      rw [hcube, hcube'] at he
      obtain rfl := h.eq_one_of_known_eq_guess hdvh hl hn hin he
      exact ((hall hl).behind hin).1 he
    refine ⟨?_, ?_, hknown_guess, (counted_once_iff h hdvh hknown_guess).mpr ?_⟩
    · intro m hm m' hm' hc hk he
      obtain ⟨n, hn, hin, hcube⟩ := h.exists_sample_of_isClear hdvh hm hc
      obtain ⟨hl, hcube'⟩ := h.lands_of_isKnown hdvh hm' hk
      rw [hcube, hcube'] at he
      exact (hall hl).before n hn (h.landSteps_le_of_clear_eq hdvh hl hin he) he
    · intro m hm m' hm' hc hg he
      obtain ⟨n, hn, hin, hcube⟩ := h.exists_sample_of_isClear hdvh hm hc
      obtain ⟨hl, m₁, hm₁, hin', hcube'⟩ := h.exists_along_of_isGuess hdvh hm' hg
      rw [hcube, hcube'] at he
      obtain ⟨rfl, rfl⟩ := h.eq_of_clear_eq_guess hdvh hn hin hm₁ hin' he
      exact ((hall hl).behind hin').2 he
    · by_cases hl : Lands g dev i j d
      · exact (nodup_guesses_iff h hdvh hl).mpr (hall hl).further
      · rw [h.guessTrail_of_not_lands hdvh hl]
        exact List.nodup_nil

/-- Half a meter down the slope the march has dropped below the landing, and each cube is classified once. -/
theorem downhill_near_once : ClassifiesOnce Config.shipped.grid downhill 0 0 (1 / 2) := by
  refine (classifiesOnce_iff (downhill_sighting (by norm_num)) (by decide +kernel)).mpr fun _ => ⟨?_, ?_, ?_⟩
  · decide +kernel
  · decide +kernel
  · intro m _ hin hin' he
    have hy := (inbounds_iff.mp hin).2.1.1
    have hy' := (inbounds_iff.mp hin').2.1.1
    have hiy := congrArg CubeCoord.iy he
    rw [cubeOf_iy hy, cubeOf_iy hy'] at hiy
    have hstep : ((landPoint downhill 0 0 (1 / 2)).along (direction downhill 0 0) ((m + 1 : ℕ) : ℚ)).y =
        ((landPoint downhill 0 0 (1 / 2)).along (direction downhill 0 0) m).y + 1 := by
      simp only [Point.along, direction, downhill, beamDevice, beam]
      push_cast
      ring
    rw [hstep, Int.floor_add_one] at hiy
    omega

/-- Half a meter and a centimeter straight ahead, the last sample that Step 1 clears is in the cube of the landing,
which Step 2 records. -/
theorem level_near_twice : Sighting Config.shipped.grid level 0 0 (51 / 100) ∧ 0 < level.dvh 0 ∧
    ¬ ClassifiesOnce Config.shipped.grid level 0 0 (51 / 100) := by
  refine ⟨level_sighting (by norm_num), by decide +kernel, fun hc => ?_⟩
  have hclear : Mark.clear ⟨164, 245, 14⟩ (deviceId 1) ∈ distanceMarks Config.shipped.grid level 0 0 (51 / 100) := by
    decide +kernel
  have hknown : Mark.known ⟨164, 245, 14⟩ (deviceId 1) ∈ distanceMarks Config.shipped.grid level 0 0 (51 / 100) := by
    decide +kernel
  exact hc.clear_known _ hclear _ hknown rfl rfl rfl

end CarBoundary

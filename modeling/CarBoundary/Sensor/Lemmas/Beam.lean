import CarBoundary.Sensor.Lemmas.Patch

/-!
# Devices whose pixels all look in one direction

Such a device can be placed so that the patch it sees is recorded in the top layer of any column of the grid, with
no guesses.
-/

namespace CarBoundary

variable {K : Type*} [Field K]

/-- A device at a base, given on the cube scale, all of whose pixels look in one direction. -/
def beam (base : Point K) (dx dy dvh dvv : K) : KDevice K where
  device := 1
  id := deviceId 1
  vangle _ := 0
  hangle _ := 0
  dvv _ := dvv
  dvh _ := dvh
  dx _ := dx
  dy _ := dy
  baseX := base.x / (cubeXScale : K)
  baseY := base.y / (cubeYScale : K)
  baseZ := base.z / (cubeZScale : K)
  id_eq := rfl

def beamTables (d : K) : Tables K where
  depthDistance raw := if raw = 610 then d else 0
  horizDepthMultiplier _ := 1
  vertDepthMultiplier _ := 1

theorem beam_basePoint [CharZero K] (base : Point K) (dx dy dvh dvv : K) :
    basePoint (beam base dx dy dvh dvv) = base := by
  simp [basePoint, beam, cubeXScale, cubeYScale, cubeZScale]

theorem beamTables_patch (d : K) (dev : KDevice K) (i j : ℕ) :
    Reading.distance (beamTables d) ⟨dev, i, j, patchRaw⟩ = d := by
  have hraw : (patchRaw &&& 0x7FF).toNat = 610 := by decide
  simp [Reading.distance, beamTables, hraw]

theorem beamTables_far (d : K) (dev : KDevice K) (i j : ℕ) :
    Reading.distance (beamTables d) ⟨dev, i, j, farRaw⟩ = 0 := by
  have hraw : (farRaw &&& 0x7FF).toNat = 2047 := by decide
  simp [Reading.distance, beamTables, hraw]

variable [LinearOrder K] [IsStrictOrderedRing K] [FloorRing K] {g : Grid} {x y : ℤ} {σ : K}

/-! ## The top layer of a column -/

/-- A device that looks steeply up from behind or from before a column, depending on the sign. -/
def topBeam (K : Type*) [Field K] (g : Grid) (x y : ℤ) (σ : K) : KDevice K :=
  beam ⟨x + lit 5 1, y + lit 5 1 - σ * lit 924 3, g.cubeHeight - lit 1256 3⟩ 0 σ (lit 28 2) (lit 96 2)

omit [LinearOrder K] [IsStrictOrderedRing K] [FloorRing K] in
theorem topBeam_eq [CharZero K] : topBeam K g x y σ =
    beam ⟨(x : K) + 1 / 2, y + 1 / 2 - σ * (231 / 250), g.cubeHeight - 157 / 125⟩ 0 σ (7 / 25) (24 / 25) := by
  norm_num [topBeam, lit]

def TopSign (y : ℤ) (σ : K) : Prop := (σ = 1 ∧ 1 ≤ y) ∨ (σ = -1 ∧ y = 0)

omit [LinearOrder K] [IsStrictOrderedRing K] [FloorRing K] in
theorem exists_topSign (hy : 0 ≤ y) : ∃ σ : K, TopSign y σ := by
  by_cases h : y = 0
  · exact ⟨-1, Or.inr ⟨rfl, h⟩⟩
  · exact ⟨1, Or.inl ⟨rfl, by omega⟩⟩

section

variable (hg : 2 ≤ g.cubeLength ∧ 2 ≤ g.cubeHeight) (hcol : g.HasColumn x y) (hσ : TopSign y σ) (i j : ℕ)
include hg hcol hσ

theorem topBeam_sighting : Sighting g (topBeam K g x y σ) i j (11 / 100) := by
  obtain ⟨hx0, hx, hy0, hy⟩ := hcol
  have hx0' : (0 : K) ≤ x := by exact_mod_cast hx0
  have hx' : (x : K) + 1 ≤ g.cubeWidth := by exact_mod_cast hx
  have hy' : (y : K) + 1 ≤ g.cubeLength := by exact_mod_cast hy
  have hL : (2 : K) ≤ g.cubeLength := by exact_mod_cast hg.1
  have hH : (2 : K) ≤ g.cubeHeight := by exact_mod_cast hg.2
  refine ⟨?_, ?_, ?_, ?_, ?_⟩
  · rw [topBeam_eq, beam_basePoint, inbounds_iff]
    refine ⟨⟨by dsimp only; linarith, by dsimp only; linarith⟩, ?_, ⟨by dsimp only; linarith, by dsimp only; linarith⟩⟩
    rcases hσ with ⟨rfl, hy1⟩ | ⟨rfl, rfl⟩
    · have hy1' : (1 : K) ≤ y := by exact_mod_cast hy1
      exact ⟨by dsimp only; linarith, by dsimp only; linarith⟩
    · exact ⟨by norm_num, by norm_num; linarith⟩
  · rcases hσ with ⟨rfl, _⟩ | ⟨rfl, _⟩
    · norm_num [topBeam_eq, beam]
    · norm_num [topBeam_eq, beam]
  · norm_num [topBeam_eq, beam]
  · norm_num
  · norm_num

omit [LinearOrder K] [IsStrictOrderedRing K] [FloorRing K] hg hcol hσ in
theorem topBeam_reach [CharZero K] : reach (topBeam K g x y σ) j (11 / 100) = 231 / 250 := by
  norm_num [reach, topBeam_eq, beam]

omit hg hcol hσ in
theorem topBeam_landSteps : landSteps (topBeam K g x y σ) i j (11 / 100) = 1 := by
  have hfloor : ⌊(231 / 250 : K)⌋₊ = 0 := by rw [Nat.floor_eq_zero]; norm_num
  have hceil : ⌈(231 / 250 : K)⌉₊ = 1 := by rw [Nat.ceil_eq_iff (by norm_num)]; norm_num
  rw [landSteps, topBeam_reach, Line.passSteps, hfloor, hceil, ite_self]

theorem topBeam_lands : Lands g (topBeam K g x y σ) i j (11 / 100) := by
  obtain ⟨hx0, hx, hy0, hy⟩ := hcol
  have hx0' : (0 : K) ≤ x := by exact_mod_cast hx0
  have hx' : (x : K) + 1 ≤ g.cubeWidth := by exact_mod_cast hx
  have hy0' : (0 : K) ≤ y := by exact_mod_cast hy0
  have hy' : (y : K) + 1 ≤ g.cubeLength := by exact_mod_cast hy
  have hH : (2 : K) ≤ g.cubeHeight := by exact_mod_cast hg.2
  rw [Lands, topBeam_landSteps, sample, topBeam_eq, beam_basePoint, inbounds_iff]
  simp only [Point.along, direction, beam, Set.mem_Ico, Nat.cast_one]
  refine ⟨⟨by linarith, by linarith⟩, ?_, ⟨by linarith, by linarith⟩⟩
  rcases hσ with ⟨rfl, _⟩ | ⟨rfl, _⟩
  · exact ⟨by linarith, by linarith⟩
  · exact ⟨by linarith, by linarith⟩

omit [LinearOrder K] [IsStrictOrderedRing K] [FloorRing K] hg hcol hσ in
theorem topBeam_landPoint [CharZero K] :
    landPoint (topBeam K g x y σ) i j (11 / 100) = ⟨x + 1 / 2, y + 1 / 2, g.cubeHeight - 1 / 5⟩ := by
  rw [landPoint_eq, topBeam_reach, topBeam_eq, beam_basePoint]
  simp only [beam, Point.mk.injEq]
  refine ⟨by ring, by ring, by ring⟩

omit hσ in
theorem topBeam_cubeOf : cubeOf g (landPoint (topBeam K g x y σ) i j (11 / 100)) = ⟨x, y, g.cubeHeight - 1⟩ := by
  obtain ⟨hx0, hx, hy0, hy⟩ := hcol
  have hx0' : (0 : K) ≤ x := by exact_mod_cast hx0
  have hy0' : (0 : K) ≤ y := by exact_mod_cast hy0
  have hH : (2 : K) ≤ g.cubeHeight := by exact_mod_cast hg.2
  have hfloor (n : ℤ) {e : K} (h0 : 0 ≤ e) (h1 : e < 1) : ⌊(n : K) + e⌋ = n :=
    Int.floor_eq_iff.mpr ⟨by linarith, by linarith⟩
  have htop : (g.cubeHeight : K) - 1 / 5 = ((g.cubeHeight - 1 : ℤ) : K) + 4 / 5 := by push_cast; ring
  rw [topBeam_landPoint, cubeOf_of_mem (by dsimp only; linarith) (by dsimp only; linarith)
    ⟨by dsimp only; linarith, by dsimp only; linarith⟩]
  rw [htop, hfloor x (by norm_num) (by norm_num), hfloor y (by norm_num) (by norm_num),
    hfloor (g.cubeHeight - 1) (by norm_num) (by norm_num)]

theorem topBeam_guessMarks : guessMarks g (topBeam K g x y σ) i j (11 / 100) = [] := by
  have hsight := topBeam_sighting hg hcol hσ i j
  have hdvh : 0 < (topBeam K g x y σ).dvh j := by norm_num [topBeam_eq, beam]
  rw [guessMarks, List.map_eq_nil_iff, List.eq_nil_iff_forall_not_mem]
  intro p hp
  obtain ⟨_, m, hm, hin, rfl⟩ := (hsight.mem_guessTrail_iff hdvh).mp hp
  have hm1 : (1 : K) ≤ m := by exact_mod_cast hm
  have hz := (inbounds_iff.mp hin).2.2.2
  rw [topBeam_landPoint] at hz
  simp only [Point.along, direction, topBeam_eq, beam] at hz
  linarith

end

/-- Every column of the grid can be the only one in which a poll takes a cube to be occupied. -/
theorem exists_topPatch (K : Type*) [Field K] [LinearOrder K] [IsStrictOrderedRing K] [FloorRing K]
    (hg : 2 ≤ g.cubeLength ∧ 2 ≤ g.cubeHeight) (hcol : g.HasColumn x y) :
    ∃ (t : Tables K) (dev : KDevice K), dev.id ≠ 0 ∧ PatchIn g t dev 1 ⟨x, y, g.cubeHeight - 1⟩ ∧
      ∀ m ∈ readingsMarks g t (deviceReadings dev (some (patchFrame 1))), m.isGuess = false := by
  obtain ⟨σ, hσ⟩ := exists_topSign (K := K) hcol.2.2.1
  have hcube : g.HasCube ⟨x, y, g.cubeHeight - 1⟩ := ⟨hcol, by dsimp only; omega, by dsimp only; omega⟩
  have hpatch : PatchIn g (beamTables (11 / 100)) (topBeam K g x y σ) 1 ⟨x, y, g.cubeHeight - 1⟩ := by
    refine patchIn_of_landings (d := fun _ _ => 11 / 100) (by decide) hcube ?_ ?_ ?_ ?_ ?_
    · intro i j _
      exact beamTables_patch _ _ i j
    · intro i j
      rw [beamTables_far, ← Bool.not_eq_true, worthPlotting_iff]
      norm_num
    · intro i j _
      exact ⟨topBeam_sighting hg hcol hσ i j, by norm_num [topBeam_eq, beam]⟩
    · intro i j _
      exact ⟨topBeam_lands hg hcol hσ i j, topBeam_cubeOf hg hcol i j⟩
    · intro i j _ m hm
      rw [topBeam_guessMarks hg hcol hσ i j] at hm
      cases hm
  refine ⟨beamTables (11 / 100), topBeam K g x y σ, ?_, hpatch, ?_⟩
  · simp only [topBeam_eq, beam]
    decide
  · intro m hm
    obtain ⟨i, j, _, hm⟩ := hpatch.mem_marks hm
    rw [(topBeam_sighting hg hcol hσ i j).reading_marks (beamTables_patch _ _ i j), distanceMarks_eq,
      topBeam_guessMarks hg hcol hσ i j, List.append_nil, List.mem_append] at hm
    rcases hm with hm | hm
    · exact (kinds_of_mem_clearMarks hm).2.2
    · exact (kinds_of_mem_knownMarks hm).2.2

end CarBoundary

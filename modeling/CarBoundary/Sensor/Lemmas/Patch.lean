import CarBoundary.Grid.Lemmas.Index
import CarBoundary.Sensor.Lemmas.Landing

/-!
# Frames that show a small patch

The frames `patchFrame` show something at one raw depth on eight columns of pixels near the axis of the device, and
nothing elsewhere. If the readings of the patch all record one cube, the evidence for that cube is their number.
-/

namespace CarBoundary

def patchRaw : UInt16 := 610

def farRaw : UInt16 := 2047

def SeesPatch (rows i j : ℕ) : Prop := (313 ≤ i ∧ i < 321) ∧ 240 ≤ j ∧ j < 240 + rows

instance (rows i j : ℕ) : Decidable (SeesPatch rows i j) := inferInstanceAs (Decidable (_ ∧ _))

/-- A patch that fills eight pixels in each of a number of rows. -/
def patchFrame (rows : ℕ) : Frame := fun n =>
  if SeesPatch rows (n % sensorWidth) (n / sensorWidth) then patchRaw else farRaw

theorem patchFrame_apply {rows i : ℕ} (hi : i < sensorWidth) (j : ℕ) :
    patchFrame rows (j * sensorWidth + i) = if SeesPatch rows i j then patchRaw else farRaw := by
  have hpos : 0 < sensorWidth := by decide
  rw [patchFrame, Nat.mul_add_mod_of_lt hi, Nat.mul_comm, Nat.mul_add_div hpos, Nat.div_eq_of_lt hi, Nat.add_zero]

/-! ## Counting the pixels of the patch -/

theorem countP_range_Ico (a b n : ℕ) :
    (List.range n).countP (fun x => decide (a ≤ x ∧ x < b)) = min b n - a := by
  induction n with
  | zero => simp
  | succ n ih =>
      rw [List.range_succ, List.countP_append, ih, List.countP_singleton]
      by_cases h : a ≤ n ∧ n < b
      · rw [if_pos (decide_eq_true h)]; omega
      · rw [if_neg (by simpa using h)]; omega

theorem sum_map_ite (l : List ℕ) (p : ℕ → Bool) (c : ℕ) :
    (l.map fun x => if p x then c else 0).sum = l.countP p * c := by
  induction l with
  | nil => simp
  | cons x l ih =>
      rw [List.map_cons, List.sum_cons, ih, List.countP_cons]
      split
      · rw [Nat.add_one_mul, Nat.add_comm]
      · rw [Nat.zero_add, Nat.add_zero]

theorem pollReadings_singleton {F : Type*} (dev : KDevice F) (frame : Option Frame) :
    pollReadings [(dev, frame)] = deviceReadings dev frame := by
  simp [pollReadings]

theorem countP_row (rows j : ℕ) : (List.range sensorWidth).countP (fun i => decide (SeesPatch rows i j)) =
    if decide (240 ≤ j ∧ j < 240 + rows) then 8 else 0 := by
  by_cases h : 240 ≤ j ∧ j < 240 + rows
  · simp only [SeesPatch, h, and_true, decide_true, if_true]
    exact countP_range_Ico 313 321 sensorWidth
  · simp [SeesPatch, h]

section

variable {F : Type*} {dev : KDevice F} {rows : ℕ}

theorem mem_patchReadings {r : Reading F} (h : r ∈ deviceReadings dev (some (patchFrame rows))) :
    ∃ i j, r = ⟨dev, i, j, if SeesPatch rows i j then patchRaw else farRaw⟩ := by
  simp only [deviceReadings, List.mem_flatMap, List.mem_map, List.mem_range] at h
  obtain ⟨j, _, i, hi, rfl⟩ := h
  exact ⟨i, j, by rw [patchFrame_apply hi]⟩

theorem countP_patchReadings (hrows : rows ≤ 16) {p : Reading F → Bool}
    (h : ∀ i j, p ⟨dev, i, j, if SeesPatch rows i j then patchRaw else farRaw⟩ = decide (SeesPatch rows i j)) :
    (deviceReadings dev (some (patchFrame rows))).countP p = rows * 8 := by
  have hrow : ∀ j, (List.range sensorWidth).countP (p ∘ fun i => ⟨dev, i, j, patchFrame rows (j * sensorWidth + i)⟩) =
      if decide (240 ≤ j ∧ j < 240 + rows) then 8 else 0 := by
    intro j
    rw [← countP_row]
    refine List.countP_congr fun i hi => ?_
    rw [Function.comp_apply, patchFrame_apply (List.mem_range.mp hi), h]
  simp only [deviceReadings, List.countP_flatMap, Function.comp_def, List.countP_map]
  simp only [Function.comp_def] at hrow
  have hrows' : min (240 + rows) sensorHeight - 240 = rows := by rw [sensorHeight]; omega
  simp only [hrow, sum_map_ite, List.countP_reverse, countP_range_Ico, hrows']

end

/-! ## The marks of a patch -/

variable {F : Type*} [Add F] [Mul F] [Div F] [NatCast F] [LT F] [LE F] [DecidableLT F] [DecidableLE F] [ToInt F]
variable {g : Grid} {t : Tables F} {dev : KDevice F} {rows : ℕ} {k : CubeCoord}

/-- The readings of the patch record one cube, they guess behind it, and the other readings record nothing. -/
structure PatchIn (g : Grid) (t : Tables F) (dev : KDevice F) (rows : ℕ) (k : CubeCoord) : Prop where
  rows_le : rows ≤ 16
  hasCube : ∀ i j, SeesPatch rows i j → ∀ m ∈ Reading.marks g t ⟨dev, i, j, patchRaw⟩, g.HasCube m.cube
  known : ∀ i j, SeesPatch rows i j → (Reading.marks g t ⟨dev, i, j, patchRaw⟩).filter Mark.isKnown = [.known k dev.id]
  guess : ∀ i j, SeesPatch rows i j →
    ∀ m ∈ Reading.marks g t ⟨dev, i, j, patchRaw⟩, m.isGuess = true → k.iy < m.cube.iy
  far : ∀ i j, Reading.marks g t ⟨dev, i, j, farRaw⟩ = []

namespace PatchIn

variable (h : PatchIn g t dev rows k)
include h

theorem mem_marks {m : Mark} (hm : m ∈ readingsMarks g t (deviceReadings dev (some (patchFrame rows)))) :
    ∃ i j, SeesPatch rows i j ∧ m ∈ Reading.marks g t ⟨dev, i, j, patchRaw⟩ := by
  obtain ⟨r, hr, hm⟩ := List.mem_flatMap.mp hm
  obtain ⟨i, j, rfl⟩ := mem_patchReadings hr
  by_cases hs : SeesPatch rows i j
  · rw [if_pos hs] at hm
    exact ⟨i, j, hs, hm⟩
  · rw [if_neg hs, h.far] at hm
    cases hm

theorem hasCube_of_mem {m : Mark} (hm : m ∈ readingsMarks g t (deviceReadings dev (some (patchFrame rows)))) :
    g.HasCube m.cube := by
  obtain ⟨i, j, hs, hm⟩ := h.mem_marks hm
  exact h.hasCube i j hs m hm

theorem cube_of_known {m : Mark} (hm : m ∈ readingsMarks g t (deviceReadings dev (some (patchFrame rows))))
    (hk : m.isKnown = true) : m.cube = k := by
  obtain ⟨i, j, hs, hm⟩ := h.mem_marks hm
  have hmem : m ∈ (Reading.marks g t ⟨dev, i, j, patchRaw⟩).filter Mark.isKnown := List.mem_filter.mpr ⟨hm, hk⟩
  rw [h.known i j hs, List.mem_singleton] at hmem
  rw [hmem]
  rfl

theorem behind_of_guess {m : Mark} (hm : m ∈ readingsMarks g t (deviceReadings dev (some (patchFrame rows))))
    (hg : m.isGuess = true) : k.iy < m.cube.iy := by
  obtain ⟨i, j, hs, hm⟩ := h.mem_marks hm
  exact h.guess i j hs m hm hg

theorem recordsKnown_eq (i j : ℕ) :
    Reading.recordsKnown g t (g.cubeLoc k) ⟨dev, i, j, if SeesPatch rows i j then patchRaw else farRaw⟩ =
      decide (SeesPatch rows i j) := by
  rw [Reading.recordsKnown]
  by_cases hs : SeesPatch rows i j
  · have hmem : Mark.known k dev.id ∈ (Reading.marks g t ⟨dev, i, j, patchRaw⟩).filter Mark.isKnown := by
      rw [h.known i j hs]
      exact List.mem_singleton_self _
    rw [if_pos hs, decide_eq_true hs, List.any_eq_true]
    exact ⟨_, (List.mem_filter.mp hmem).1, by simp [Mark.hits, Mark.cube, Mark.isKnown]⟩
  · rw [if_neg hs, h.far, decide_eq_false hs, List.any_nil]

theorem evidence_known :
    (pollEvidence g t (deviceReadings dev (some (patchFrame rows))) (g.cubeLoc k)).known = rows * 8 := by
  rw [pollEvidence_known]
  exact countP_patchReadings h.rows_le h.recordsKnown_eq

theorem evidence_guesses (hk : g.HasCube k) :
    (pollEvidence g t (deviceReadings dev (some (patchFrame rows))) (g.cubeLoc k)).guesses = 0 := by
  rw [pollEvidence, List.countP_eq_zero]
  intro m hm hhit
  rw [Bool.and_eq_true, Mark.hits_iff] at hhit
  have hcube := (h.hasCube_of_mem hm).cubeLoc_inj hk hhit.1
  have hbehind := h.behind_of_guess hm hhit.2
  rw [hcube] at hbehind
  exact lt_irrefl _ hbehind

theorem occupied (hk : g.HasCube k) (hid : dev.id ≠ 0) (hrows : 0 < rows ∧ rows < 16) (env : Env) :
    ((kinectPoll g t [(dev, some (patchFrame rows))] env).environmentCubes (g.cubeLoc k)).occupied = true := by
  have hids : ∀ d ∈ [(dev, some (patchFrame rows))], d.2.isSome → d.1.id ≠ 0 := by simpa using hid
  rw [(kinectPoll_records hids hk.cubeLoc_mem.1 hk.cubeLoc_mem.2).occupied_iff, pollReadings_singleton]
  refine Or.inl ?_
  rw [h.evidence_known, Counter.shows_iff_of_lt (by omega), minCount]
  omega

theorem eq_of_occupied (hid : dev.id ≠ 0) {env : Env} {c : CubeCoord} (hc : g.HasCube c)
    (hno : ∀ m ∈ readingsMarks g t (deviceReadings dev (some (patchFrame rows))), m.isGuess = false)
    (ho : ((kinectPoll g t [(dev, some (patchFrame rows))] env).environmentCubes (g.cubeLoc c)).occupied = true) :
    c = k := by
  have hids : ∀ d ∈ [(dev, some (patchFrame rows))], d.2.isSome → d.1.id ≠ 0 := by simpa using hid
  have hmin : 0 < minCount := by decide
  rw [(kinectPoll_records hids hc.cubeLoc_mem.1 hc.cubeLoc_mem.2).occupied_iff, pollReadings_singleton,
    pollEvidence_eq] at ho
  rcases ho with hshow | ⟨hshow, _⟩
  · obtain ⟨m, hm, hhit, hk⟩ := Evidence.exists_known (hmin.trans_le hshow.le)
    rw [← (h.hasCube_of_mem hm).cubeLoc_inj hc hhit, h.cube_of_known hm hk]
  · obtain ⟨m, hm, _, hg⟩ := Evidence.exists_guess (hmin.trans_le hshow.le)
    rw [hno m hm] at hg
    cases hg

end PatchIn

/-! ## A patch in exact arithmetic -/

variable {K : Type*} [Field K] [LinearOrder K] [IsStrictOrderedRing K] [FloorRing K]

/-- What the lines of sight of a device to a patch have to do so that they all record one cube. -/
theorem patchIn_of_landings {g : Grid} {t : Tables K} {dev : KDevice K} {rows : ℕ} {k : CubeCoord} {d : ℕ → ℕ → K}
    (hrows : rows ≤ 16) (hk : g.HasCube k)
    (hseen : ∀ i j, SeesPatch rows i j → Reading.distance t ⟨dev, i, j, patchRaw⟩ = d i j)
    (hfar : ∀ i j, worthPlotting (Reading.distance t ⟨dev, i, j, farRaw⟩) = false)
    (hsight : ∀ i j, SeesPatch rows i j → Sighting g dev i j (d i j) ∧ 0 < dev.dvh j)
    (hland : ∀ i j, SeesPatch rows i j → Lands g dev i j (d i j) ∧ cubeOf g (landPoint dev i j (d i j)) = k)
    (hguess : ∀ i j, SeesPatch rows i j → ∀ m ∈ guessMarks g dev i j (d i j), k.iy < m.cube.iy) :
    PatchIn g t dev rows k := by
  have hknown : ∀ i j, SeesPatch rows i j → knownMarks g dev i j (d i j) = [.known k dev.id] := by
    intro i j hs
    obtain ⟨h, hdvh⟩ := hsight i j hs
    obtain ⟨hl, hcube⟩ := hland i j hs
    rw [h.knownMarks_eq hdvh, if_pos hl, hcube]
  have hmarks : ∀ i j, SeesPatch rows i j →
      Reading.marks g t ⟨dev, i, j, patchRaw⟩ = distanceMarks g dev i j (d i j) :=
    fun i j hs => (hsight i j hs).1.reading_marks (hseen i j hs)
  refine ⟨hrows, ?_, ?_, ?_, ?_⟩
  · intro i j hs m hm
    rw [hmarks i j hs, distanceMarks_eq, hknown i j hs, List.mem_append, List.mem_append, List.mem_singleton] at hm
    rcases hm with (hm | rfl) | hm
    · exact hasCube_of_mem_clearMarks hm
    · exact hk
    · exact hasCube_of_mem_guessMarks hm
  · intro i j hs
    rw [hmarks i j hs, ← hknown i j hs]
    exact knownMarksOf_eq _ _ _ _ _
  · intro i j hs m hm hg
    rw [hmarks i j hs] at hm
    exact hguess i j hs m ((mem_distanceMarks hm).2.2 hg)
  · intro i j
    rw [Reading.marks_eq, hfar i j]
    rfl

end CarBoundary

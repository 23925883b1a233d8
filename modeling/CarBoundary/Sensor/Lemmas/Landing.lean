import CarBoundary.Sensor.Lemmas.Count
import CarBoundary.Sensor.Lemmas.March

/-!
# Where a reading lands

For a pixel that looks forward (`dvh > 0`) the sign test turns after `landSteps` steps, so that a reading
records its landing exactly if that sample lies in the grid (`Lands`).
-/

namespace CarBoundary

variable {K : Type*} [Field K] [LinearOrder K] [IsStrictOrderedRing K]
variable {g : Grid} {dev : KDevice K} {i j : ℕ} {d : K}

/-! ## Any elevation -/

theorem not_turned_zero (dev : KDevice K) (i j : ℕ) (d : K) : ¬ Turned dev i j d 0 := by
  rintro ((⟨_, h1, h2⟩ | ⟨_, h1, h2⟩) | (⟨_, h1, h2⟩ | ⟨_, h1, h2⟩)) <;> linarith

theorem ClearRounds.pos {n : ℕ} (h : ClearRounds g dev i j d n) (hbase : inbounds g (basePoint dev) = true) :
    0 < n := by
  rcases Nat.eq_zero_or_pos n with rfl | hn
  · rcases h.stop with ht | hout
    · rw [Nat.cast_zero] at ht
      exact absurd ht (not_turned_zero dev i j d)
    · rw [Nat.cast_zero, sample, Point.along_zero, hbase] at hout
      cases hout
  · exact hn

theorem ClearRounds.out_later {n : ℕ} (h : ClearRounds g dev i j d n)
    (hbase : inbounds g (basePoint dev) = true) (hout : inbounds g (clearEnd g dev i j d) = false) (k : ℕ) :
    inbounds g ((clearEnd g dev i j d).along (direction dev i j) k) = false := by
  rw [h.clearEnd_eq] at hout ⊢
  by_contra hin
  rw [Bool.not_eq_false, sample, Point.along_along] at hin
  have hn := inbounds_between hbase hin (Nat.cast_nonneg n) (le_add_of_nonneg_right (Nat.cast_nonneg k))
  rw [← sample, hout] at hn
  cases hn

theorem guessTrail_of_out (hu : dev.dx i ^ 2 + dev.dy i ^ 2 = 1) (hbase : inbounds g (basePoint dev) = true)
    (hout : inbounds g (clearEnd g dev i j d) = false) : guessTrail g dev i j d = [] := by
  obtain ⟨n, _, hr⟩ := exists_clearRounds (g := g) (j := j) (d := d) hu
  obtain ⟨m, _, hin, _, htrail⟩ := exists_guessRounds (g := g) (j := j) (d := d) hu
  cases m with
  | zero => simpa using htrail
  | succ m =>
      have hfirst := hin 0 (Nat.succ_pos m)
      have hlater := hr.out_later hbase hout 1
      rw [guessBase, hout, Nat.cast_zero, zero_add] at hfirst
      rw [Nat.cast_one] at hlater
      simp [hlater] at hfirst

theorem landPoint_mem_of_turned {n : K} (hbase : inbounds g (basePoint dev) = true) (ht : Turned dev i j d n)
    (hin : inbounds g (sample dev i j n) = true) :
    (landPoint dev i j d).x ∈ Set.Ico (0 : K) g.cubeWidth ∧ (landPoint dev i j d).y ∈ Set.Ico (0 : K) g.cubeLength := by
  obtain ⟨h0, hn⟩ := reach_le_of_turned ht
  rw [inbounds_iff] at hbase hin
  rw [landPoint_eq]
  exact ⟨Line.mem_Ico_between hbase.1 hin.1 h0 hn, Line.mem_Ico_between hbase.2.1 hin.2.1 h0 hn⟩

variable [FloorRing K]

/-- The number of steps after which the sign test turns, for a pixel that looks in any direction. -/
def turnSteps (dev : KDevice K) (i j : ℕ) (d : K) : Option ℕ :=
  if 0 < reach dev j d then some (Line.passSteps (dev.dx i) (dev.dy i) (reach dev j d))
  else if reach dev j d = 0 ∧ (0 < dev.dx i ∨ 0 < dev.dy i) then some 1
  else none

def EndsInGrid (g : Grid) (dev : KDevice K) (i j : ℕ) (d : K) : Prop :=
  ∃ n ∈ turnSteps dev i j d, inbounds g (sample dev i j n) = true

instance : Decidable (EndsInGrid g dev i j d) := by
  unfold EndsInGrid
  infer_instance

theorem mem_turnSteps_iff (hu : dev.dx i ^ 2 + dev.dy i ^ 2 = 1) (n : ℕ) :
    n ∈ turnSteps dev i j d ↔ Turned dev i j d n ∧ ∀ k < n, ¬ Turned dev i j d k := by
  unfold turnSteps
  split
  · rename_i ht
    have hturn (k : ℕ) : Turned dev i j d k ↔ Line.passSteps (dev.dx i) (dev.dy i) (reach dev j d) ≤ k :=
      (Line.passSteps_le_iff ht hu k).symm
    simp only [Option.mem_some_iff, hturn, not_le]
    constructor
    · rintro rfl; exact ⟨le_rfl, fun k hk => hk⟩
    · rintro ⟨hle, hlt⟩
      by_contra hne
      exact lt_irrefl _ (hlt _ (lt_of_le_of_ne hle hne))
  · rename_i ht
    split
    · rename_i h0
      have hturn (k : ℕ) : Turned dev i j d k ↔ 0 < k := by
        simp only [Turned, Line.Passes, h0.1, lt_irrefl, le_refl, false_and, and_false, or_false, true_and,
          Nat.cast_pos]
        rw [← or_and_right]
        exact and_iff_right h0.2
      simp only [Option.mem_some_iff, hturn, not_lt, Nat.le_zero]
      constructor
      · rintro rfl; exact ⟨Nat.one_pos, fun k hk => by omega⟩
      · rintro ⟨hpos, hall⟩
        by_contra hne
        exact absurd (hall 1 (by omega)) (by omega)
    · rename_i h0
      constructor
      · intro hn; cases hn
      · rintro ⟨hturn, _⟩
        -- a turn needs a reach that is not negative, and a positive component where it is zero
        have hzero : reach dev j d = 0 := le_antisymm (not_lt.mp ht) (reach_le_of_turned hturn).1
        refine absurd ⟨hzero, ?_⟩ h0
        rcases hturn with (⟨hx, _⟩ | ⟨_, hpos, _⟩) | (⟨hy, _⟩ | ⟨_, hpos, _⟩)
        · exact Or.inl hx
        · exact absurd hpos ht
        · exact Or.inr hy
        · exact absurd hpos ht

theorem clearEnd_inbounds_iff (hu : dev.dx i ^ 2 + dev.dy i ^ 2 = 1) (hbase : inbounds g (basePoint dev) = true) :
    inbounds g (clearEnd g dev i j d) = true ↔ EndsInGrid g dev i j d := by
  obtain ⟨n, _, hr⟩ := exists_clearRounds (g := g) (j := j) (d := d) hu
  rw [hr.clearEnd_eq, EndsInGrid]
  constructor
  · intro hin
    have hturn : Turned dev i j d n := hr.stop.resolve_right (by simp [hin])
    exact ⟨n, (mem_turnSteps_iff hu n).mpr ⟨hturn, fun k hk => (hr.inside k hk).1⟩, hin⟩
  · rintro ⟨m, hm, hin⟩
    have hturn := ((mem_turnSteps_iff hu m).mp hm).1
    have hnm : n ≤ m := by
      by_contra hlt
      exact (hr.inside m (not_le.mp hlt)).1 hturn
    exact inbounds_between hbase hin (Nat.cast_nonneg n) (Nat.cast_le.mpr hnm)

theorem landPoint_mem_of_endsInGrid (hu : dev.dx i ^ 2 + dev.dy i ^ 2 = 1)
    (hbase : inbounds g (basePoint dev) = true) (he : EndsInGrid g dev i j d) :
    (landPoint dev i j d).x ∈ Set.Ico (0 : K) g.cubeWidth ∧ (landPoint dev i j d).y ∈ Set.Ico (0 : K) g.cubeLength := by
  obtain ⟨n, hn, hin⟩ := he
  exact landPoint_mem_of_turned hbase ((mem_turnSteps_iff hu n).mp hn).1 hin

/-! ## Looking forward -/

/-- The number of steps after which the sign test turns. -/
def landSteps (dev : KDevice K) (i j : ℕ) (d : K) : ℕ :=
  Line.passSteps (dev.dx i) (dev.dy i) (reach dev j d)

def Lands (g : Grid) (dev : KDevice K) (i j : ℕ) (d : K) : Prop :=
  inbounds g (sample dev i j (landSteps dev i j d)) = true

instance : Decidable (Lands g dev i j d) := inferInstanceAs (Decidable (_ = true))

namespace Sighting

variable (h : Sighting g dev i j d) (hdvh : 0 < dev.dvh j)
include h hdvh

theorem turned_iff (n : ℕ) : Turned dev i j d n ↔ landSteps dev i j d ≤ n :=
  (Line.passSteps_le_iff (h.reach_pos hdvh) h.unitH n).symm

theorem mem_clearTrail_iff {p : Point K} : p ∈ clearTrail g dev i j d ↔
    ∃ n < landSteps dev i j d, inbounds g (sample dev i j n) = true ∧ p = sample dev i j n := by
  obtain ⟨n, _, hr⟩ := exists_clearRounds (g := g) (j := j) (d := d) h.unitH
  simp only [hr.clearTrail_eq, List.mem_map, List.mem_range]
  constructor
  · rintro ⟨k, hk, rfl⟩
    obtain ⟨hturn, hin⟩ := hr.inside k hk
    rw [h.turned_iff hdvh, not_le] at hturn
    exact ⟨k, hturn, hin, rfl⟩
  · rintro ⟨k, hk, hin, rfl⟩
    refine ⟨k, ?_, rfl⟩
    by_contra hnk
    rw [not_lt] at hnk
    rcases hr.stop with hturn | hout
    · exact absurd ((h.turned_iff hdvh n).mp hturn) (by omega)
    · have := inbounds_between h.base hin (Nat.cast_nonneg n) (Nat.cast_le.mpr hnk)
      rw [← sample, hout] at this
      cases this

theorem endsInGrid_iff : EndsInGrid g dev i j d ↔ Lands g dev i j d := by
  simp [EndsInGrid, turnSteps, h.reach_pos hdvh, Lands, landSteps]

theorem clearEnd_inbounds_iff : inbounds g (clearEnd g dev i j d) = true ↔ Lands g dev i j d :=
  (CarBoundary.clearEnd_inbounds_iff h.unitH h.base).trans (h.endsInGrid_iff hdvh)

theorem knownMarks_eq : knownMarks g dev i j d =
    if Lands g dev i j d then [.known (cubeOf g (landPoint dev i j d)) dev.id] else [] := by
  simp only [knownMarks, h.clearEnd_inbounds_iff hdvh]

theorem guessBase_eq (hl : Lands g dev i j d) : guessBase g dev i j d = landPoint dev i j d := by
  simp [guessBase, (h.clearEnd_inbounds_iff hdvh).mpr hl]

theorem guessTrail_of_not_lands (hl : ¬ Lands g dev i j d) : guessTrail g dev i j d = [] :=
  guessTrail_of_out h.unitH h.base (by simpa using mt (h.clearEnd_inbounds_iff hdvh).mp hl)

theorem landPoint_mem (hl : Lands g dev i j d) :
    (landPoint dev i j d).x ∈ Set.Ico (0 : K) g.cubeWidth ∧ (landPoint dev i j d).y ∈ Set.Ico (0 : K) g.cubeLength :=
  landPoint_mem_of_endsInGrid h.unitH h.base ((h.endsInGrid_iff hdvh).mpr hl)

theorem landPoint_inbounds (hl : Lands g dev i j d) {s : K} (hs : 0 < s)
    (hin : inbounds g ((landPoint dev i j d).along (direction dev i j) s) = true) :
    inbounds g (landPoint dev i j d) = true := by
  obtain ⟨hx, hy⟩ := h.landPoint_mem hdvh hl
  rw [inbounds_iff]
  refine ⟨hx, hy, ?_⟩
  have hz := (inbounds_iff.mp hin).2.2
  have hb := (inbounds_iff.mp h.base).2.2
  have hd := h.pos
  rw [landPoint_eq] at hz ⊢
  simp only [Point.along, direction, Set.mem_Ico] at hz hb ⊢
  rcases le_total 0 (dev.dvv j) with hv | hv
  · have h1 : 0 ≤ 10 * d * dev.dvv j := by positivity
    have h2 : 0 ≤ s * dev.dvv j := by positivity
    exact ⟨by linarith, by linarith⟩
  · have h1 : 10 * d * dev.dvv j ≤ 0 := mul_nonpos_of_nonneg_of_nonpos (by positivity) hv
    have h2 : s * dev.dvv j ≤ 0 := mul_nonpos_of_nonneg_of_nonpos hs.le hv
    exact ⟨by linarith, by linarith⟩

theorem exists_guessTrail (hl : Lands g dev i j d) : ∃ n : ℕ,
    (∀ k : ℕ, k < n ↔ inbounds g ((landPoint dev i j d).along (direction dev i j) ((k + 1 : ℕ) : K)) = true) ∧
      guessTrail g dev i j d =
        (List.range n).map fun k : ℕ => (landPoint dev i j d).along (direction dev i j) ((k + 1 : ℕ) : K) := by
  obtain ⟨n, _, hin, hout, htrail⟩ := exists_guessRounds (g := g) (j := j) (d := d) h.unitH
  rw [h.guessBase_eq hdvh hl] at hin hout htrail
  refine ⟨n, fun k => ⟨fun hk => ?_, fun hk => ?_⟩, ?_⟩
  · rw [Nat.cast_succ]
    exact hin k hk
  · by_contra hkn
    have hpos : (0 : K) < ((k + 1 : ℕ) : K) := Nat.cast_pos.mpr (Nat.succ_pos k)
    have hbase := h.landPoint_inbounds hdvh hl hpos hk
    have hnk : (n : K) + 1 ≤ ((k + 1 : ℕ) : K) := by exact_mod_cast Nat.succ_le_succ (not_lt.mp hkn)
    have := inbounds_between hbase hk (by positivity) hnk
    rw [hout] at this
    cases this
  · simp only [htrail, Nat.cast_succ]

theorem mem_guessTrail_iff {p : Point K} : p ∈ guessTrail g dev i j d ↔
    Lands g dev i j d ∧ ∃ m : ℕ, 0 < m ∧ inbounds g ((landPoint dev i j d).along (direction dev i j) m) = true ∧
      p = (landPoint dev i j d).along (direction dev i j) m := by
  by_cases hl : Lands g dev i j d
  · obtain ⟨n, hin, htrail⟩ := h.exists_guessTrail hdvh hl
    simp only [htrail, List.mem_map, List.mem_range, hl, true_and]
    constructor
    · rintro ⟨k, hk, rfl⟩
      exact ⟨k + 1, Nat.succ_pos k, (hin k).mp hk, rfl⟩
    · rintro ⟨m, hm, hmin, rfl⟩
      obtain ⟨k, rfl⟩ : ∃ k, m = k + 1 := ⟨m - 1, by omega⟩
      exact ⟨k, (hin k).mpr hmin, rfl⟩
  · simp [h.guessTrail_of_not_lands hdvh hl, hl]

/-! ### The marks of a reading -/

omit hdvh in
theorem sample_inbounds (hl : Lands g dev i j d) {n : ℕ} (hn : n < landSteps dev i j d) :
    inbounds g (sample dev i j n) = true :=
  inbounds_between h.base hl (Nat.cast_nonneg n) (Nat.cast_le.mpr hn.le)

theorem clear_mem_distanceMarks {n : ℕ} (hn : n < landSteps dev i j d) (hin : inbounds g (sample dev i j n) = true) :
    Mark.clear (cubeOf g (sample dev i j n)) dev.id ∈ distanceMarks g dev i j d := by
  have htrail : sample dev i j n ∈ clearTrail g dev i j d := (h.mem_clearTrail_iff hdvh).mpr ⟨n, hn, hin, rfl⟩
  rw [distanceMarks_eq, List.mem_append, List.mem_append]
  exact Or.inl (Or.inl (List.mem_map_of_mem htrail))

theorem known_mem_distanceMarks (hl : Lands g dev i j d) :
    Mark.known (cubeOf g (landPoint dev i j d)) dev.id ∈ distanceMarks g dev i j d := by
  rw [distanceMarks_eq, h.knownMarks_eq hdvh, if_pos hl]
  simp

theorem guess_mem_distanceMarks (hl : Lands g dev i j d) {m : ℕ} (hm : 0 < m)
    (hin : inbounds g ((landPoint dev i j d).along (direction dev i j) m) = true) :
    Mark.guess (cubeOf g ((landPoint dev i j d).along (direction dev i j) m)) ∈ distanceMarks g dev i j d := by
  have htrail : (landPoint dev i j d).along (direction dev i j) m ∈ guessTrail g dev i j d :=
    (h.mem_guessTrail_iff hdvh).mpr ⟨hl, m, hm, hin, rfl⟩
  rw [distanceMarks_eq, List.mem_append]
  exact Or.inr (List.mem_map_of_mem htrail)

variable {m : Mark} (hm : m ∈ distanceMarks g dev i j d)
include hm

theorem exists_sample_of_isClear (hk : m.isClear = true) :
    ∃ n < landSteps dev i j d, inbounds g (sample dev i j n) = true ∧ m.cube = cubeOf g (sample dev i j n) := by
  obtain ⟨p, hp, rfl⟩ := List.mem_map.mp ((mem_distanceMarks hm).1 hk)
  obtain ⟨n, hn, hin, rfl⟩ := (h.mem_clearTrail_iff hdvh).mp hp
  exact ⟨n, hn, hin, rfl⟩

theorem lands_of_isKnown (hk : m.isKnown = true) :
    Lands g dev i j d ∧ m.cube = cubeOf g (landPoint dev i j d) := by
  have hmem := (mem_distanceMarks hm).2.1 hk
  rw [h.knownMarks_eq hdvh] at hmem
  split at hmem
  · rename_i hl
    rw [List.mem_singleton.mp hmem]
    exact ⟨hl, rfl⟩
  · cases hmem

theorem exists_along_of_isGuess (hk : m.isGuess = true) : Lands g dev i j d ∧ ∃ n : ℕ, 0 < n ∧
    inbounds g ((landPoint dev i j d).along (direction dev i j) n) = true ∧
      m.cube = cubeOf g ((landPoint dev i j d).along (direction dev i j) n) := by
  obtain ⟨p, hp, rfl⟩ := List.mem_map.mp ((mem_distanceMarks hm).2.2 hk)
  obtain ⟨hl, n, hn, hin, rfl⟩ := (h.mem_guessTrail_iff hdvh).mp hp
  exact ⟨hl, n, hn, hin, rfl⟩

end Sighting

end CarBoundary

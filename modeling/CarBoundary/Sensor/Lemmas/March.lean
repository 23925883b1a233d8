import CarBoundary.Lib.Line
import CarBoundary.Grid.Lemmas.Index
import CarBoundary.Sensor.Lemmas.Log

/-!
# The march in exact arithmetic

`FP_TYPE` is read as an ordered field `K` with a floor. The marched points are `base + n * (dx, dy, dvv)`, the
grid is convex, and both loops end before they are cut off. From this follows in closed form where a reading
clears, whether it records its landing and where it guesses.
-/

namespace CarBoundary

variable {K : Type*} [Field K] {g : Grid} {dev : KDevice K} {i j : ℕ} {d : K}

/-! ## Points -/

def Point.along (c dir : Point K) (s : K) : Point K := ⟨c.x + s * dir.x, c.y + s * dir.y, c.z + s * dir.z⟩

theorem Point.along_along (c dir : Point K) (s u : K) : (c.along dir s).along dir u = c.along dir (s + u) := by
  simp only [Point.along, Point.mk.injEq]
  refine ⟨?_, ?_, ?_⟩ <;> ring

theorem Point.along_zero (c dir : Point K) : c.along dir 0 = c := by simp [Point.along]

theorem advance_eq (dir c : Point K) : advance dir c = c.along dir 1 := by simp [Point.along, advance]

theorem iterate_advance (dir c : Point K) (n : ℕ) : (advance dir)^[n] c = c.along dir n := by
  induction n with
  | zero => simp [Point.along]
  | succ n ih =>
      rw [Function.iterate_succ_apply', ih, advance_eq, Point.along_along]
      push_cast; rfl

/-- The horizontal distance of the landing on the cube scale, in the direction of the pixel. -/
def reach (dev : KDevice K) (j : ℕ) (d : K) : K := 30 * d * dev.dvh j

def sample (dev : KDevice K) (i j : ℕ) (n : K) : Point K := (basePoint dev).along (direction dev i j) n

theorem landPoint_eq : landPoint dev i j d =
    ⟨(basePoint dev).x + reach dev j d * dev.dx i, (basePoint dev).y + reach dev j d * dev.dy i,
      (basePoint dev).z + 10 * d * dev.dvv j⟩ := by
  simp only [landPoint, landMeters, basePoint, reach, cubeXScale, cubeYScale, cubeZScale, Point.mk.injEq]
  push_cast
  refine ⟨?_, ?_, ?_⟩ <;> ring

variable [LinearOrder K]

def Turned (dev : KDevice K) (i j : ℕ) (d : K) (n : K) : Prop :=
  Line.Passes (dev.dx i) (reach dev j d) n ∨ Line.Passes (dev.dy i) (reach dev j d) n

theorem reach_le_of_turned {n : K} (h : Turned dev i j d n) : 0 ≤ reach dev j d ∧ reach dev j d ≤ n := by
  rcases h with (⟨_, h1, h2⟩ | ⟨_, h1, h2⟩) | (⟨_, h1, h2⟩ | ⟨_, h1, h2⟩)
  · exact ⟨h1, h2.le⟩
  · exact ⟨h1.le, h2⟩
  · exact ⟨h1, h2.le⟩
  · exact ⟨h1.le, h2⟩

/-! ## The grid -/

theorem inbounds_iff {c : Point K} : inbounds g c = true ↔
    c.x ∈ Set.Ico (0 : K) g.cubeWidth ∧ c.y ∈ Set.Ico (0 : K) g.cubeLength ∧ c.z ∈ Set.Ico (0 : K) g.cubeHeight := by
  simp only [inbounds, Nat.cast_zero, Bool.and_eq_true, decide_eq_true_eq, Set.mem_Ico]
  tauto

theorem inbounds_of_clearing {land c : Point K} {xt yt : Bool} (h : clearing g land xt yt c = true) :
    inbounds g c = true := by
  rw [clearing, Bool.and_eq_true] at h
  exact h.2

section

variable [FloorRing K]

theorem cubeOf_of_mem {c : Point K} (hx : 0 ≤ c.x) (hy : 0 ≤ c.y) (hz : c.z ∈ Set.Ico (0 : K) g.cubeHeight) :
    cubeOf g c = ⟨⌊c.x⌋, ⌊c.y⌋, ⌊c.z⌋⟩ := by
  simp [cubeOf, ToInt.toInt_of_nonneg, hx, hy, hz.1, not_lt.mpr hz.1, not_lt.mpr hz.2.le]

theorem cubeOf_of_neg {c : Point K} (hx : 0 ≤ c.x) (hy : 0 ≤ c.y) (hz : c.z < 0) :
    cubeOf g c = ⟨⌊c.x⌋, ⌊c.y⌋, 0⟩ := by
  simp [cubeOf, ToInt.toInt_of_nonneg, hx, hy, hz]

theorem hasCube_of_inbounds {c : Point K} (h : inbounds g c = true) : g.HasCube (cubeOf g c) := by
  obtain ⟨hx, hy, hz⟩ := inbounds_iff.mp h
  rw [cubeOf_of_mem hx.1 hy.1 hz]
  refine ⟨⟨Int.floor_nonneg.mpr hx.1, Int.floor_lt.mpr ?_, Int.floor_nonneg.mpr hy.1, Int.floor_lt.mpr ?_⟩,
    Int.floor_nonneg.mpr hz.1, Int.floor_lt.mpr ?_⟩
  · exact_mod_cast hx.2
  · exact_mod_cast hy.2
  · exact_mod_cast hz.2

theorem hasCube_of_mem_clearMarks {m : Mark} (hm : m ∈ clearMarks g dev i j d) : g.HasCube m.cube := by
  obtain ⟨p, hp, rfl⟩ := List.mem_map.mp hm
  exact hasCube_of_inbounds (inbounds_of_clearing (Loop.trail_inside hp))

theorem hasCube_of_mem_guessMarks {m : Mark} (hm : m ∈ guessMarks g dev i j d) : g.HasCube m.cube := by
  obtain ⟨p, hp, rfl⟩ := List.mem_map.mp hm
  exact hasCube_of_inbounds (Loop.trail_inside hp)

end

variable [IsStrictOrderedRing K]

theorem inbounds_between {c dir : Point K} {s n : K} (h0 : inbounds g c = true)
    (hn : inbounds g (c.along dir n) = true) (hs0 : 0 ≤ s) (hsn : s ≤ n) : inbounds g (c.along dir s) = true := by
  rw [inbounds_iff] at *
  exact ⟨Line.mem_Ico_between h0.1 hn.1 hs0 hsn, Line.mem_Ico_between h0.2.1 hn.2.1 hs0 hsn,
    Line.mem_Ico_between h0.2.2 hn.2.2 hs0 hsn⟩

theorem exists_not_inbounds (g : Grid) (c : Point K) {dir : Point K} (hdir : dir.x ^ 2 + dir.y ^ 2 = 1) :
    ∃ n ≤ g.maxRounds, inbounds g (c.along dir n) = false := by
  by_cases h0 : inbounds g c = true
  · refine ⟨g.maxRounds, le_rfl, ?_⟩
    by_contra hn
    rw [Bool.not_eq_false, inbounds_iff] at hn
    rw [inbounds_iff] at h0
    have hlt := Line.lt_of_mem_Ico hdir h0.1 hn.1 h0.2.1 hn.2.1
    rw [Grid.maxRounds, Nat.cast_add] at hlt
    exact lt_irrefl _ hlt
  · exact ⟨0, Nat.zero_le _, by rw [Nat.cast_zero, Point.along_zero]; simpa using h0⟩

def Grid.WithinDiagonal (g : Grid) (n : ℕ) : Prop := n = 0 ∨ (n - 1) ^ 2 < g.cubeWidth ^ 2 + g.cubeLength ^ 2

theorem within_of_inbounds {c dir : Point K} (hdir : dir.x ^ 2 + dir.y ^ 2 = 1) {n : ℕ}
    (h0 : inbounds g c = true) (hn : inbounds g (c.along dir n) = true) :
    n ^ 2 < g.cubeWidth ^ 2 + g.cubeLength ^ 2 := by
  rw [inbounds_iff] at h0 hn
  exact_mod_cast Line.sq_lt_of_mem_Ico hdir h0.1 hn.1 h0.2.1 hn.2.1

/-- A march whose guard tests the bounds of the grid leaves before it is cut off. -/
theorem exists_marchExits {guard : Point K → Bool} (hguard : ∀ p, guard p = true → inbounds g p = true)
    (c : Point K) {dir : Point K} (hdir : dir.x ^ 2 + dir.y ^ 2 = 1) :
    ∃ n ≤ g.maxRounds, Loop.Exits guard (advance dir) n c ∧ g.WithinDiagonal n := by
  obtain ⟨m, hm, hout⟩ := exists_not_inbounds g c hdir
  have hstop : guard ((advance dir)^[m] c) = false := by
    by_contra hg
    rw [Bool.not_eq_false, iterate_advance] at hg
    rw [hguard _ hg] at hout
    cases hout
  obtain ⟨n, hn, hexit⟩ := Loop.exists_exits hstop
  refine ⟨n, hn.trans hm, hexit, ?_⟩
  cases n with
  | zero => exact Or.inl rfl
  | succ n =>
      have h0 := hguard _ (hexit.1 0 (Nat.succ_pos n))
      have hlast := hguard _ (hexit.1 n (Nat.lt_succ_self n))
      rw [iterate_advance] at hlast
      exact Or.inr (within_of_inbounds hdir h0 hlast)

/-! ## A reading that is worth plotting -/

/-- The base of the device lies in the grid, the direction entries of the pixel are those of unit vectors, and
the distance is worth plotting. -/
structure Sighting (g : Grid) (dev : KDevice K) (i j : ℕ) (d : K) : Prop where
  base : inbounds g (basePoint dev) = true
  unitH : dev.dx i ^ 2 + dev.dy i ^ 2 = 1
  unitV : dev.dvh j ^ 2 + dev.dvv j ^ 2 = 1
  near : 1 / 10 < d
  far : d < 30

theorem worthPlotting_iff : worthPlotting d = true ↔ 1 / 10 < d ∧ d < 30 := by
  have h1 : (lit 1 1 : K) = 1 / 10 := by norm_num [lit]
  have h2 : (lit 300 1 : K) = 30 := by norm_num [lit]
  simp [worthPlotting, h1, h2]

theorem Sighting.reading_marks [FloorRing K] {t : Tables K} {raw : UInt16} (h : Sighting g dev i j d)
    (hd : Reading.distance t ⟨dev, i, j, raw⟩ = d) :
    Reading.marks g t ⟨dev, i, j, raw⟩ = distanceMarks g dev i j d := by
  rw [Reading.marks_eq, hd, if_pos (worthPlotting_iff.mpr ⟨h.near, h.far⟩)]

theorem Sighting.pos (h : Sighting g dev i j d) : 0 < d := lt_trans (by norm_num) h.near

theorem Sighting.reach_pos (h : Sighting g dev i j d) (hdvh : 0 < dev.dvh j) : 0 < reach dev j d := by
  have hd := h.pos
  unfold reach
  positivity

/-! ## Step 1 -/

/-- The guard of Step 1 with the flags that the code remembers. -/
abbrev clearGuard (g : Grid) (dev : KDevice K) (i j : ℕ) (d : K) : Point K → Bool :=
  clearing g (landPoint dev i j d) (decide ((basePoint dev).x ≤ (landPoint dev i j d).x))
    (decide ((basePoint dev).y ≤ (landPoint dev i j d).y))

theorem clearGuard_sample {n : K} (hn : 0 ≤ n) :
    clearGuard g dev i j d (sample dev i j n) = true ↔
      ¬ Turned dev i j d n ∧ inbounds g (sample dev i j n) = true := by
  have hx := Line.decide_ne_iff_passes (c := (basePoint dev).x) (v := dev.dx i) (t := reach dev j d) hn
  have hy := Line.decide_ne_iff_passes (c := (basePoint dev).y) (v := dev.dy i) (t := reach dev j d) hn
  rw [Turned, not_or, ← hx, ← hy, not_not, not_not]
  simp [clearGuard, clearing, landPoint_eq, sample, Point.along, direction]

theorem exists_clearExits (hu : dev.dx i ^ 2 + dev.dy i ^ 2 = 1) :
    ∃ n ≤ g.maxRounds, Loop.Exits (clearGuard g dev i j d) (advance (direction dev i j)) n (basePoint dev) := by
  have hdir : (direction dev i j).x ^ 2 + (direction dev i j).y ^ 2 = 1 := hu
  have hguard (p : Point K) (h : clearGuard g dev i j d p = true) : inbounds g p = true := inbounds_of_clearing h
  obtain ⟨n, hn, hexit, _⟩ := exists_marchExits hguard (basePoint dev) hdir
  exact ⟨n, hn, hexit⟩

/-- What the number of rounds of Step 1 says about the samples. -/
structure ClearRounds (g : Grid) (dev : KDevice K) (i j : ℕ) (d : K) (n : ℕ) : Prop where
  inside : ∀ k < n, ¬ Turned dev i j d k ∧ inbounds g (sample dev i j k) = true
  stop : Turned dev i j d n ∨ inbounds g (sample dev i j n) = false
  clearEnd_eq : clearEnd g dev i j d = sample dev i j n
  clearTrail_eq : clearTrail g dev i j d = (List.range n).map fun k : ℕ => sample dev i j k

theorem exists_clearRounds (hu : dev.dx i ^ 2 + dev.dy i ^ 2 = 1) :
    ∃ n ≤ g.maxRounds, ClearRounds g dev i j d n := by
  obtain ⟨n, hn, hexit⟩ := exists_clearExits (g := g) (j := j) (d := d) hu
  refine ⟨n, hn, ?_, ?_, ?_, ?_⟩
  · intro k hk
    have hg := hexit.1 k hk
    rw [iterate_advance] at hg
    exact (clearGuard_sample (Nat.cast_nonneg k)).mp hg
  · have hg := hexit.2
    rw [iterate_advance, ← Bool.not_eq_true] at hg
    have hno := mt (clearGuard_sample (Nat.cast_nonneg n)).mpr hg
    rw [not_and_or, not_not, Bool.not_eq_true] at hno
    exact hno
  · rw [clearEnd, sample, ← iterate_advance]
    exact Loop.run_eq_iterate hexit hn
  · rw [clearTrail, Loop.trail_eq_map hexit hn]
    simp only [iterate_advance, sample]

/-! ## Step 3 -/

theorem exists_guessRounds (hu : dev.dx i ^ 2 + dev.dy i ^ 2 = 1) :
    ∃ n ≤ g.maxRounds, (∀ k < n, inbounds g ((guessBase g dev i j d).along (direction dev i j) (k + 1)) = true) ∧
      inbounds g ((guessBase g dev i j d).along (direction dev i j) (n + 1)) = false ∧
      guessTrail g dev i j d =
        (List.range n).map fun k : ℕ => (guessBase g dev i j d).along (direction dev i j) (k + 1) := by
  have hpos (k : ℕ) : (advance (direction dev i j))^[k] (advance (direction dev i j) (guessBase g dev i j d)) =
      (guessBase g dev i j d).along (direction dev i j) (k + 1) := by
    rw [iterate_advance, advance_eq, Point.along_along, add_comm]
  have hdir : (direction dev i j).x ^ 2 + (direction dev i j).y ^ 2 = 1 := hu
  obtain ⟨n, hn, hexit, _⟩ := exists_marchExits (g := g) (fun _ h => h)
    (advance (direction dev i j) (guessBase g dev i j d)) hdir
  refine ⟨n, hn, ?_, ?_, ?_⟩
  · intro k hk
    rw [← hpos]
    exact hexit.1 k hk
  · rw [← hpos]
    exact hexit.2
  · rw [guessTrail, Loop.trail_eq_map hexit hn]
    simp only [hpos]

end CarBoundary

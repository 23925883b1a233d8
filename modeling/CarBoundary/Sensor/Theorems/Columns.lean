import CarBoundary.Sensor.Theorems.Known

/-!
# What a column status says about its column

At every point between two readings of a poll, `columnStatus` sums up the marks in the column and the devices
that its cubes are known by (`columnStatus_sums_up`).
-/

namespace CarBoundary

variable {g : Grid} {ms : List Mark} {x y : ℤ}

/-! ## The marks in a column -/

/-- There is a mark of the kind in the column. -/
def MarkedIn (kind : Mark → Bool) (ms : List Mark) (x y : ℤ) : Prop :=
  ∃ m ∈ ms, kind m = true ∧ m.cube.ix = x ∧ m.cube.iy = y

theorem any_inColumn_iff (hin : ∀ m ∈ ms, g.HasCube m.cube) (hcol : g.HasColumn x y) {kind : Mark → Bool} :
    (ms.any fun m => m.inColumn g (g.colLoc x y) && kind m) = true ↔ MarkedIn kind ms x y := by
  simp only [List.any_eq_true, Bool.and_eq_true, Mark.inColumn_iff]
  constructor
  · rintro ⟨m, hm, hloc, hkind⟩
    obtain ⟨hx, hy⟩ := (hin m hm).1.colLoc_inj hcol hloc
    exact ⟨m, hm, hkind, hx, hy⟩
  · rintro ⟨m, hm, hkind, rfl, rfl⟩
    exact ⟨m, hm, rfl, hkind⟩

theorem MarkedIn.of_cubeLoc (hin : ∀ m ∈ ms, g.HasCube m.cube) (hcol : g.HasColumn x y) {z : ℕ}
    (hz : z < g.cubeHeight) {kind : Mark → Bool}
    (h : ∃ m ∈ ms, g.cubeLoc m.cube = g.cubeLoc ⟨x, y, z⟩ ∧ kind m = true) : MarkedIn kind ms x y := by
  obtain ⟨m, hm, hloc, hkind⟩ := h
  have hcube : g.HasCube ⟨x, y, z⟩ := ⟨hcol, Int.natCast_nonneg z, Int.ofNat_lt.mpr hz⟩
  have hsame := (hin m hm).cubeLoc_inj hcube hloc
  exact ⟨m, hm, hkind, by rw [hsame], by rw [hsame]⟩

/-! ## The summary -/

/-- Some cube of the column is known by a device. -/
def ColumnKnown (g : Grid) (env : Env) (x y : ℤ) : Prop :=
  ∃ z : ℕ, z < g.cubeHeight ∧ (env.environmentCubes (g.cubeLoc ⟨x, y, z⟩)).knownBy ≠ 0

/-- The status of the column sums up the marks that have been made. -/
structure SumsUpColumn (g : Grid) (env : Env) (ms : List Mark) (x y : ℤ) : Prop where
  known : env.columnStatus (g.colLoc x y) = .known ↔ ColumnKnown g env x y
  guessed : env.columnStatus (g.colLoc x y) = .guessed ↔
    ¬ ColumnKnown g env x y ∧ MarkedIn Mark.isGuess ms x y
  clear : env.columnStatus (g.colLoc x y) = .clear ↔
    ¬ MarkedIn Mark.isKnown ms x y ∧ ¬ MarkedIn Mark.isGuess ms x y
  counts : env.columnStatus (g.colLoc x y) = .clear → ∀ z : ℕ, z < g.cubeHeight →
    (env.environmentCubes (g.cubeLoc ⟨x, y, z⟩)).knownCount = 0 ∧
      (env.environmentCubes (g.cubeLoc ⟨x, y, z⟩)).guessCount = 0

theorem ColEvidence.status_iff (e : ColEvidence) : (e.status = .known ↔ e.known = true) ∧
    (e.status = .guessed ↔ ¬ e.known = true ∧ e.guessed = true) ∧
    (e.status = .clear ↔ ¬ e.known = true ∧ ¬ e.guessed = true) := by
  cases e with
  | mk known guessed => cases known <;> cases guessed <;> simp [ColEvidence.status]

section

variable (hid : ∀ m ∈ ms, m.HasId) (hin : ∀ m ∈ ms, g.HasCube m.cube) (hcol : g.HasColumn x y)
include hid hin hcol

omit hin in
theorem Env.writeAll_cube_records (env : Env) {z : ℕ} (hz : z < g.cubeHeight) :
    (((env.memset g).writeAll g ms).environmentCubes (g.cubeLoc ⟨x, y, z⟩)).Records
      (Evidence.of g (g.cubeLoc ⟨x, y, z⟩) ms) := by
  have hcube : g.HasCube ⟨x, y, z⟩ := ⟨hcol, Int.natCast_nonneg z, Int.ofNat_lt.mpr hz⟩
  exact Env.writeAll_records env hid hcube.cubeLoc_mem.1 hcube.cubeLoc_mem.2

theorem columnKnown_iff (env : Env) :
    ColumnKnown g ((env.memset g).writeAll g ms) x y ↔ MarkedIn Mark.isKnown ms x y := by
  constructor
  · rintro ⟨z, hz, hby⟩
    rw [ne_eq, (Env.writeAll_cube_records hid hcol env hz).knownBy] at hby
    exact MarkedIn.of_cubeLoc hin hcol hz (Evidence.exists_known (Nat.pos_of_ne_zero hby))
  · rintro ⟨m, hm, hkind, rfl, rfl⟩
    obtain ⟨_, hz0, hz⟩ := hin m hm
    have hz' : (m.cube.iz.toNat : ℤ) = m.cube.iz := Int.toNat_of_nonneg hz0
    have hlt : m.cube.iz.toNat < g.cubeHeight := by omega
    refine ⟨m.cube.iz.toNat, hlt, ?_⟩
    rw [ne_eq, (Env.writeAll_cube_records hid hcol env hlt).knownBy, hz']
    have hpos : 0 < (Evidence.of g (g.cubeLoc m.cube) ms).known := by
      apply List.countP_pos_iff.mpr
      exact ⟨m, hm, by simp [Mark.hits, hkind]⟩
    exact hpos.ne'

theorem Env.writeAll_sumsUp (env : Env) : SumsUpColumn g ((env.memset g).writeAll g ms) ms x y := by
  have hstatus := Env.writeAll_columnStatus env ms hcol.colLoc_mem.1 hcol.colLoc_mem.2
  obtain ⟨hknown, hguessed, hclear⟩ := (ColEvidence.of g (g.colLoc x y) ms).status_iff
  simp only [ColEvidence.of, any_inColumn_iff hin hcol] at hknown hguessed hclear
  rw [← ColEvidence.of, ← hstatus] at hknown hguessed hclear
  have hby := columnKnown_iff hid hin hcol env
  refine ⟨by rw [hknown, hby], by rw [hguessed, hby], hclear, ?_⟩
  intro hc z hz
  have hrec := Env.writeAll_cube_records hid hcol env hz
  obtain ⟨hnoKnown, hnoGuess⟩ := hclear.mp hc
  have hk : (Evidence.of g (g.cubeLoc ⟨x, y, z⟩) ms).known = 0 := by
    by_contra hne
    exact hnoKnown (MarkedIn.of_cubeLoc hin hcol hz (Evidence.exists_known (Nat.pos_of_ne_zero hne)))
  have hg : (Evidence.of g (g.cubeLoc ⟨x, y, z⟩) ms).guesses = 0 := by
    by_contra hne
    exact hnoGuess (MarkedIn.of_cubeLoc hin hcol hz (Evidence.exists_guess (Nat.pos_of_ne_zero hne)))
  rw [hrec.knownCount, hrec.guessCount, hk, hg]
  exact ⟨rfl, rfl⟩

end

/-! ## The readings of a poll -/

section

variable {F : Type*} [Add F] [Mul F] [Div F] [NatCast F] [LT F] [LE F] [DecidableLT F] [DecidableLE F] [ToInt F]

/-- The arrays after some readings. -/
def afterReadings (g : Grid) (t : Tables F) (rs : List (Reading F)) (env : Env) : Env :=
  rs.foldl (fun env r => plotReading g t (fun m env => env.write g m) r env) (env.memset g)

/-- After any part of a sequence of readings whose marks lie in the grid, in any order and of any devices, the
status of every column sums up the marks made so far. -/
theorem columnStatus_sums_up {t : Tables F} {rs rs' : List (Reading F)} (hid : ∀ r ∈ rs, r.dev.id ≠ 0)
    (hin : ∀ m ∈ readingsMarks g t rs, g.HasCube m.cube) (hpart : rs' <+: rs) (env : Env)
    (hcol : g.HasColumn x y) :
    SumsUpColumn g (afterReadings g t rs' env) (readingsMarks g t rs') x y := by
  have hid' : ∀ m ∈ readingsMarks g t rs', m.HasId :=
    hasId_of_mem_readingsMarks fun r hr => hid r (hpart.subset hr)
  have hin' : ∀ m ∈ readingsMarks g t rs', g.HasCube m.cube := by
    intro m hm
    obtain ⟨r, hr, hm⟩ := List.mem_flatMap.mp hm
    exact hin m (List.mem_flatMap.mpr ⟨r, hpart.subset hr, hm⟩)
  rw [afterReadings, foldl_plotReading]
  exact Env.writeAll_sumsUp hid' hin' hcol env

/-- One reading half a meter ahead and down, and then one that is too far away. -/
def downhillReadings : List (Reading ℚ) := [⟨downhill, 0, 0, patchRaw⟩, ⟨downhill, 0, 0, farRaw⟩]

theorem downhillReadings_marks : readingsMarks Config.shipped.grid (beamTables (1 / 2)) downhillReadings =
    distanceMarks Config.shipped.grid downhill 0 0 (1 / 2) := by
  have hnear : worthPlotting (1 / 2 : ℚ) = true := worthPlotting_iff.mpr (by norm_num)
  have hfar : worthPlotting (0 : ℚ) = false := by
    rw [← Bool.not_eq_true, worthPlotting_iff]
    norm_num
  simp only [readingsMarks, downhillReadings, List.flatMap_cons, List.flatMap_nil, Reading.marks_eq,
    beamTables_patch, beamTables_far, hnear, hfar]
  simp

theorem downhillReadings_sums_up : SumsUpColumn Config.shipped.grid
    (afterReadings Config.shipped.grid (beamTables (1 / 2)) [⟨downhill, 0, 0, patchRaw⟩] Env.initial)
    (readingsMarks Config.shipped.grid (beamTables (1 / 2)) [⟨downhill, 0, 0, patchRaw⟩]) 164 245 := by
  have hid : ∀ r ∈ downhillReadings, r.dev.id ≠ 0 := by
    intro r hr
    simp only [downhillReadings, List.mem_cons, List.not_mem_nil, or_false] at hr
    rcases hr with rfl | rfl <;> decide
  have hin : ∀ m ∈ readingsMarks Config.shipped.grid (beamTables (1 / 2)) downhillReadings,
      Config.shipped.grid.HasCube m.cube := by
    rw [downhillReadings_marks]
    decide +kernel
  exact columnStatus_sums_up hid hin (List.prefix_append [_] [_]) Env.initial (by decide)

end

end CarBoundary

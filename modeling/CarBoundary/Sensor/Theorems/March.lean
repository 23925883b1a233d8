import CarBoundary.Lib.Path
import CarBoundary.Sensor.Theorems.Known

/-!
# How far the marches go

Both loops end within the horizontal diagonal of the grid (`marches_end`), the cubes that they write form a
path without gaps that does not turn back (`marches_path`), and the sign test stops Step 1 at the horizontal
distance of the landing (`march_stops_at_reach`).
-/

namespace CarBoundary

variable {K : Type*} [Field K] [LinearOrder K] [FloorRing K]

/-! ## The end of the loops -/

section

variable {σ : Type*}

/-- One round of the loop of Step 1. -/
def clearRound (g : Grid) (write : Mark → σ → σ) (id : Int8) (dir : Point K) (cs : Point K × σ) : Point K × σ :=
  (advance dir cs.1, write (.clear (cubeOf g cs.1) id) cs.2)

/-- One round of the loop of Step 3. -/
def guessRound (g : Grid) (write : Mark → σ → σ) (dir : Point K) (cs : Point K × σ) : Point K × σ :=
  (advance dir cs.1, write (.guess (cubeOf g cs.1)) cs.2)

theorem shipped_withinDiagonal {n : ℕ} (h : Config.shipped.grid.WithinDiagonal n) : n ≤ 577 := by
  rcases h with rfl | hlt
  · exact Nat.zero_le _
  · by_contra hn
    have hpow : 577 ^ 2 ≤ (n - 1) ^ 2 := Nat.pow_le_pow_left (by omega) 2
    have hdiag : 577 ^ 2 < Config.shipped.grid.cubeWidth ^ 2 + Config.shipped.grid.cubeLength ^ 2 :=
      hpow.trans_lt hlt
    exact absurd hdiag (by decide)

variable [IsStrictOrderedRing K]

omit [FloorRing K] in
theorem march_ends {g : Grid} {guard : Point K → Bool} (hguard : ∀ p, guard p = true → inbounds g p = true)
    (write : Point K → σ → σ) {dir : Point K} (hdir : dir.x ^ 2 + dir.y ^ 2 = 1) (cs : Point K × σ) :
    ∃ n, Loop.Exits (fun cs : Point K × σ => guard cs.1) (fun cs => (advance dir cs.1, write cs.1 cs.2)) n cs ∧
      Loop.march guard (advance dir) write g.maxRounds cs =
        (fun cs : Point K × σ => (advance dir cs.1, write cs.1 cs.2))^[n] cs ∧ g.WithinDiagonal n := by
  cases cs with
  | mk c s =>
      obtain ⟨n, hn, hexit, hdiag⟩ := exists_marchExits hguard c hdir
      have hfull := hexit.march write s
      exact ⟨n, hfull, Loop.run_eq_iterate hfull hn, hdiag⟩

/-- Without any bound on the rounds, both loops leave after finitely many, from any point, for any landing and
any remembered flags, and what they leave behind is the result of the steps. -/
theorem marches_end (g : Grid) (write : Mark → σ → σ) (id : Int8) (land dir : Point K) (xt yt : Bool)
    (cs : Point K × σ) (hdir : dir.x ^ 2 + dir.y ^ 2 = 1) :
    (∃ n, Loop.Exits (fun cs => clearing g land xt yt cs.1) (clearRound g write id dir) n cs ∧
      step1 g write id land dir xt yt cs = (clearRound g write id dir)^[n] cs ∧ g.WithinDiagonal n) ∧
    (∃ n, Loop.Exits (fun cs => inbounds g cs.1) (guessRound g write dir) n cs ∧
      step3 g write dir cs = (guessRound g write dir)^[n] cs ∧ g.WithinDiagonal n) ∧
    ∀ n, Config.shipped.grid.WithinDiagonal n → n ≤ 577 := by
  have hclearing (p : Point K) (h : clearing g land xt yt p = true) : inbounds g p = true := inbounds_of_clearing h
  refine ⟨?_, ?_, fun _ => shipped_withinDiagonal⟩
  · exact march_ends hclearing (fun c => write (.clear (cubeOf g c) id)) hdir cs
  · exact march_ends (fun _ h => h) (fun c => write (.guess (cubeOf g c))) hdir cs

/-- Three steps to the right for every four ahead, and slowly up. -/
def slanted : Point ℚ := ⟨3 / 5, 4 / 5, 1 / 100⟩

theorem slanted_ends : ∃ n ≤ 577, Loop.Exits (fun cs : Point ℚ × List Mark => inbounds Config.shipped.grid cs.1)
    (guessRound Config.shipped.grid logMark slanted) n (⟨0, 0, 0⟩, []) := by
  obtain ⟨_, ⟨n, hexit, _, hdiag⟩, hmax⟩ := marches_end Config.shipped.grid logMark 48 ⟨0, 0, 0⟩ slanted true true
    (⟨0, 0, 0⟩, []) (by decide +kernel)
  exact ⟨n, hmax n hdiag, hexit⟩

end

/-! ## The path of cubes -/

/-- The cubes that a marching loop writes in its first `rounds` rounds, in their order. -/
def writtenCubes (g : Grid) (guard : Point K → Bool) (mark : CubeCoord → Mark) (dir : Point K) (rounds : ℕ)
    (c : Point K) : List CubeCoord :=
  (Loop.march guard (advance dir) (fun c => logMark (mark (cubeOf g c))) rounds (c, [])).2.map Mark.cube

/-- The path has no gaps and does not turn back in any coordinate, and it never returns to a cube. -/
structure CubePath (cubes : List CubeCoord) : Prop where
  gapFree : Path.GapFree CubeCoord.ix cubes ∧ Path.GapFree CubeCoord.iy cubes ∧ Path.GapFree CubeCoord.iz cubes
  oneWay : Path.OneWay CubeCoord.ix cubes ∧ Path.OneWay CubeCoord.iy cubes ∧ Path.OneWay CubeCoord.iz cubes
  neverReturns : Path.NeverReturns cubes

theorem neverReturns_of_oneWay {cubes : List CubeCoord} (hx : Path.OneWay CubeCoord.ix cubes)
    (hy : Path.OneWay CubeCoord.iy cubes) (hz : Path.OneWay CubeCoord.iz cubes) : Path.NeverReturns cubes := by
  intro a b hs
  have hix := hx.eq_of_sublist hs
  have hiy := hy.eq_of_sublist hs
  have hiz := hz.eq_of_sublist hs
  cases a with
  | mk ax ay az =>
      cases b with
      | mk bx by' bz => simp_all

theorem writtenCubes_eq {g : Grid} {guard : Point K → Bool} {mark : CubeCoord → Mark}
    (hmark : ∀ cube, (mark cube).cube = cube) (dir : Point K) (rounds : ℕ) (c : Point K) :
    writtenCubes g guard mark dir rounds c = (Loop.trail guard (advance dir) rounds c).map (cubeOf g) := by
  have hlog := foldl_logMark ((Loop.trail guard (advance dir) rounds c).map fun c => mark (cubeOf g c)) []
  rw [List.foldl_map, List.nil_append] at hlog
  rw [writtenCubes, Loop.march_snd, hlog, List.map_map]
  simp [Function.comp_def, hmark]

theorem step1_writtenCubes (g : Grid) (id : Int8) (land dir : Point K) (xt yt : Bool) (c : Point K) :
    (step1 g logMark id land dir xt yt (c, [])).2.map Mark.cube =
      writtenCubes g (clearing g land xt yt) (fun cube => .clear cube id) dir g.maxRounds c := rfl

theorem step3_writtenCubes (g : Grid) (dir c : Point K) :
    (step3 g logMark dir (c, [])).2.map Mark.cube = writtenCubes g (inbounds g) .guess dir g.maxRounds c := rfl

variable [IsStrictOrderedRing K]

/-- Inside the grid truncation is the floor, and no clamp acts. -/
theorem cubePath_of_march {g : Grid} {guard : Point K → Bool} {mark : CubeCoord → Mark} {dir : Point K}
    (hguard : ∀ p, guard p = true → inbounds g p = true) (hmark : ∀ cube, (mark cube).cube = cube)
    (hdir : dir.x ^ 2 + dir.y ^ 2 = 1) (hz : |dir.z| ≤ 1) (rounds : ℕ) (c : Point K) :
    CubePath (writtenCubes g guard mark dir rounds c) := by
  obtain ⟨n, htrail⟩ := Loop.exists_trail_eq_map guard (advance dir) rounds c
  have hcube (k : ℕ) (hk : k < n) : cubeOf g ((advance dir)^[k] c) =
      ⟨⌊c.x + k * dir.x⌋, ⌊c.y + k * dir.y⌋, ⌊c.z + k * dir.z⌋⟩ := by
    have hmem : (advance dir)^[k] c ∈ Loop.trail guard (advance dir) rounds c := by
      rw [htrail]
      exact List.mem_map_of_mem (List.mem_range.mpr hk)
    have hin := inbounds_iff.mp (hguard _ (Loop.trail_inside hmem))
    rw [iterate_advance] at hin ⊢
    exact cubeOf_of_mem hin.1.1 hin.2.1.1 hin.2.2
  have hix (k : ℕ) (hk : k < n) : (cubeOf g ((advance dir)^[k] c)).ix = ⌊c.x + k * dir.x⌋ := by rw [hcube k hk]
  have hiy (k : ℕ) (hk : k < n) : (cubeOf g ((advance dir)^[k] c)).iy = ⌊c.y + k * dir.y⌋ := by rw [hcube k hk]
  have hiz (k : ℕ) (hk : k < n) : (cubeOf g ((advance dir)^[k] c)).iz = ⌊c.z + k * dir.z⌋ := by rw [hcube k hk]
  obtain ⟨hx, hy⟩ := Line.abs_le_one_of_sq_add hdir
  rw [writtenCubes_eq hmark, htrail, List.map_map]
  have hone := And.intro (Path.oneWay_of_floor hix) (And.intro (Path.oneWay_of_floor hiy) (Path.oneWay_of_floor hiz))
  exact ⟨⟨Path.gapFree_of_floor hx hix, Path.gapFree_of_floor hy hiy, Path.gapFree_of_floor hz hiz⟩, hone,
    neverReturns_of_oneWay hone.1 hone.2.1 hone.2.2⟩

/-- The cubes that Step 1 writes in any number of rounds form such a path, and so do those of Step 3. -/
theorem marches_path (g : Grid) (id : Int8) (land : Point K) {dir : Point K} (xt yt : Bool)
    (hdir : dir.x ^ 2 + dir.y ^ 2 = 1) (hz : |dir.z| ≤ 1) (rounds : ℕ) (c : Point K) :
    CubePath (writtenCubes g (clearing g land xt yt) (fun cube => .clear cube id) dir rounds c) ∧
      CubePath (writtenCubes g (inbounds g) .guess dir rounds c) := by
  constructor
  · exact cubePath_of_march (fun _ => inbounds_of_clearing) (fun _ => rfl) hdir hz rounds c
  · exact cubePath_of_march (fun _ h => h) (fun _ => rfl) hdir hz rounds c

theorem slanted_path : CubePath (writtenCubes Config.shipped.grid (inbounds Config.shipped.grid) .guess slanted 600
    ⟨0, 0, 0⟩) :=
  (marches_path Config.shipped.grid 48 ⟨0, 0, 0⟩ true true (by decide +kernel) (by decide +kernel) 600 ⟨0, 0, 0⟩).2

/-! ## The sign test -/

variable {g : Grid} {dev : KDevice K} {i j : ℕ} {d : K}

/-- Sample `n` is outside the grid, or beyond the horizontal distance of the landing, which counts as reached
where a component of the direction is negative. -/
def StopsAt (g : Grid) (dev : KDevice K) (i j : ℕ) (d : K) (n : ℕ) : Prop :=
  inbounds g (sample dev i j n) = false ∨ (0 ≤ dev.dx i ∧ 0 ≤ dev.dy i ∧ reach dev j d < n) ∨
    ((dev.dx i < 0 ∨ dev.dy i < 0) ∧ reach dev j d ≤ n)

/-- The horizontal distance of `p` from `b` is `r`. -/
def AtDistance (b p : Point K) (r : K) : Prop := 0 ≤ r ∧ (p.x - b.x) ^ 2 + (p.y - b.y) ^ 2 = r ^ 2

omit [IsStrictOrderedRing K] in
theorem stopsAt_iff (hu : dev.dx i ^ 2 + dev.dy i ^ 2 = 1) (ht : 0 < reach dev j d) (n : ℕ) :
    StopsAt g dev i j d n ↔ Turned dev i j d n ∨ inbounds g (sample dev i j n) = false := by
  have hturn : Turned dev i j d n ↔ (0 ≤ dev.dx i ∧ 0 ≤ dev.dy i ∧ reach dev j d < n) ∨
      ((dev.dx i < 0 ∨ dev.dy i < 0) ∧ reach dev j d ≤ n) := by
    rw [Turned, ← Line.passSteps_le_iff ht hu, Line.passSteps]
    by_cases h : 0 ≤ dev.dx i ∧ 0 ≤ dev.dy i
    · rw [if_pos h, Nat.succ_le_iff, Nat.floor_lt ht.le]
      simp [h, not_lt.mpr h.1, not_lt.mpr h.2]
    · have hneg : dev.dx i < 0 ∨ dev.dy i < 0 := by simpa only [not_and_or, not_le] using h
      have hno : ¬ (0 ≤ dev.dx i ∧ 0 ≤ dev.dy i ∧ reach dev j d < n) := fun hpos => h ⟨hpos.1, hpos.2.1⟩
      simp [h, hneg, hno, Nat.ceil_le]
  rw [StopsAt, hturn, or_comm]

theorem le_reach_of_not_turned (hu : dev.dx i ^ 2 + dev.dy i ^ 2 = 1) (ht : 0 < reach dev j d) {n : ℕ}
    (h : ¬ Turned dev i j d n) : (n : K) ≤ reach dev j d := by
  rw [Turned, ← Line.passSteps_le_iff ht hu, not_le] at h
  exact Line.le_of_lt_passSteps ht h

omit [FloorRing K] [IsStrictOrderedRing K] in
theorem atDistance_of_eq {b p dir : Point K} {r : K} (hdir : dir.x ^ 2 + dir.y ^ 2 = 1) (hr : 0 ≤ r)
    (hx : p.x = b.x + r * dir.x) (hy : p.y = b.y + r * dir.y) : AtDistance b p r := by
  refine ⟨hr, ?_⟩
  rw [hx, hy]
  calc (b.x + r * dir.x - b.x) ^ 2 + (b.y + r * dir.y - b.y) ^ 2 = r ^ 2 * (dir.x ^ 2 + dir.y ^ 2) := by ring
    _ = r ^ 2 := by rw [hdir, mul_one]

omit [FloorRing K] in
theorem exists_atDistance_of_guess (hu : dev.dx i ^ 2 + dev.dy i ^ 2 = 1) (ht : 0 < reach dev j d)
    (hbase : inbounds g (basePoint dev) = true) {p : Point K} (hp : p ∈ guessTrail g dev i j d) :
    ∃ r, reach dev j d + 1 ≤ r ∧ AtDistance (basePoint dev) p r := by
  have hend : inbounds g (clearEnd g dev i j d) = true := by
    by_contra hout
    rw [guessTrail_of_out hu hbase (by simpa using hout)] at hp
    cases hp
  have hdir : (direction dev i j).x ^ 2 + (direction dev i j).y ^ 2 = 1 := hu
  obtain ⟨n, _, _, _, htrail⟩ := exists_guessRounds (g := g) (j := j) (d := d) hu
  simp only [htrail, guessBase, hend, if_true, List.mem_map] at hp
  obtain ⟨k, _, rfl⟩ := hp
  have hk : (0 : K) ≤ k := Nat.cast_nonneg k
  refine ⟨reach dev j d + (k + 1), by linarith, atDistance_of_eq hdir (by linarith) ?_ ?_⟩
  · simp only [Point.along, landPoint_eq, direction]
    ring
  · simp only [Point.along, landPoint_eq, direction]
    ring

/-- Step 1 clears the samples before the first that is outside the grid or beyond the distance of the landing, and after
the reading these cubes and no others have got the id of the device. None of the samples is farther than the landing,
and all that Step 3 guesses is at least one unit farther. -/
theorem march_stops_at_reach (hbase : inbounds g (basePoint dev) = true) (hu : dev.dx i ^ 2 + dev.dy i ^ 2 = 1)
    (hdvh : 0 < dev.dvh j) (hd : 0 < d) :
    ∃ N, IsLeast {n | 1 ≤ n ∧ StopsAt g dev i j d n} N ∧
      (distanceMarks g dev i j d).filter Mark.isClear =
        (List.range N).map (fun n : ℕ => .clear (cubeOf g (sample dev i j n)) dev.id) ∧
      (∀ env : Env, let env' := plotDistance g (fun m env => env.write g m) dev i j d env
        (∀ n < N, (env'.environmentCubes (g.cubeLoc (cubeOf g (sample dev i j (n : ℕ))))).clearedBy = dev.id) ∧
          ∀ loc, (∀ n < N, loc ≠ g.cubeLoc (cubeOf g (sample dev i j (n : ℕ)))) →
            (env'.environmentCubes loc).clearedBy = (env.environmentCubes loc).clearedBy) ∧
      AtDistance (basePoint dev) (landPoint dev i j d) (reach dev j d) ∧
      (∀ n < N, (n : K) ≤ reach dev j d ∧ AtDistance (basePoint dev) (sample dev i j n) n) ∧
      (distanceMarks g dev i j d).filter Mark.isGuess = (guessTrail g dev i j d).map (fun p => .guess (cubeOf g p)) ∧
      ∀ p ∈ guessTrail g dev i j d, ∃ r, reach dev j d + 1 ≤ r ∧ AtDistance (basePoint dev) p r := by
  have ht : 0 < reach dev j d := by
    unfold reach
    positivity
  have hdir : (direction dev i j).x ^ 2 + (direction dev i j).y ^ 2 = 1 := hu
  obtain ⟨N, _, hr⟩ := exists_clearRounds (g := g) (j := j) (d := d) hu
  obtain ⟨hclear, _, hguess⟩ := filter_distanceMarks g dev i j d
  have hcleared : (distanceMarks g dev i j d).filter Mark.isClear =
      (List.range N).map (fun n : ℕ => .clear (cubeOf g (sample dev i j n)) dev.id) := by
    rw [hclear, clearMarks, hr.clearTrail_eq, List.map_map]
    rfl
  have hcubes : (distanceMarks g dev i j d).filter Mark.isClear =
      ((List.range N).map fun n : ℕ => cubeOf g (sample dev i j n)).map fun c => .clear c dev.id := by
    rw [hcleared, List.map_map]
    rfl
  refine ⟨N, ⟨⟨hr.pos hbase, (stopsAt_iff hu ht N).mpr hr.stop⟩, ?_⟩, hcleared, ?_, ?_, ?_, hguess, ?_⟩
  · rintro m ⟨_, hstop⟩
    by_contra hm
    obtain ⟨hturn, hin⟩ := hr.inside m (not_le.mp hm)
    rcases (stopsAt_iff hu ht m).mp hstop with h | h
    · exact hturn h
    · rw [hin] at h
      cases h
  · intro env env'
    have henv : env' = env.writeAll g (distanceMarks g dev i j d) := plotDistance_eq dev i j d env
    refine ⟨fun n hn => ?_, fun loc hloc => ?_⟩
    · rw [henv, Env.writeAll_clearedBy hcubes, if_pos]
      exact List.mem_map_of_mem (List.mem_map.mpr ⟨n, List.mem_range.mpr hn, rfl⟩)
    · rw [henv, Env.writeAll_clearedBy hcubes, if_neg]
      intro hmem
      obtain ⟨c, hc, rfl⟩ := List.mem_map.mp hmem
      obtain ⟨n, hn, rfl⟩ := List.mem_map.mp hc
      exact hloc n (List.mem_range.mp hn) rfl
  · apply atDistance_of_eq hdir ht.le
    · simp [landPoint_eq, direction]
    · simp [landPoint_eq, direction]
  · intro n hn
    refine ⟨le_reach_of_not_turned hu ht (hr.inside n hn).1, ?_⟩
    exact atDistance_of_eq hdir (Nat.cast_nonneg n) rfl rfl
  · intro p hp
    exact exists_atDistance_of_guess hu ht hbase hp

/-- To the left and down. -/
def leftward : KDevice ℚ := beamDevice (-3 / 5) (4 / 5) (24 / 25) (-7 / 25)

theorem leftward_stops : ∃ N, IsLeast {n | 1 ≤ n ∧ StopsAt Config.shipped.grid leftward 0 0 1 n} N ∧
    (distanceMarks Config.shipped.grid leftward 0 0 1).filter Mark.isClear =
      (List.range N).map (fun n : ℕ => .clear (cubeOf Config.shipped.grid (sample leftward 0 0 n)) leftward.id) := by
  have hs : Sighting Config.shipped.grid leftward 0 0 1 :=
    beamDevice_sighting (by norm_num) (by norm_num) (by norm_num)
  have hdvh : 0 < leftward.dvh 0 := by decide +kernel
  obtain ⟨N, hN, hclear, _⟩ := march_stops_at_reach hs.base hs.unitH hdvh hs.pos
  exact ⟨N, hN, hclear⟩

end CarBoundary

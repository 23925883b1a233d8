import CarBoundary.Grid.Lemmas.Frame
import CarBoundary.Grid.Lemmas.Reachable
import CarBoundary.Sensor.Lemmas.Log

/-!
# Counting the readings of a poll
-/

namespace CarBoundary

theorem mem_pollReadings {F : Type*} {devices : List (KDevice F × Option Frame)} {r : Reading F}
    (h : r ∈ pollReadings devices) : ∃ fdepths, (r.dev, some fdepths) ∈ devices := by
  obtain ⟨⟨dev, frame⟩, hd, hr⟩ := List.mem_flatMap.mp h
  cases frame with
  | none => cases hr
  | some fdepths =>
      simp only [deviceReadings, List.mem_flatMap, List.mem_map] at hr
      obtain ⟨j, _, i, _, rfl⟩ := hr
      exact ⟨fdepths, hd⟩

theorem deviceId_ne_zero {device : ℤ} (h0 : 0 ≤ device) (h : device < 64) : deviceId device ≠ 0 := by
  intro he
  have hint : (deviceId device).toInt = 48 + device := by
    rw [deviceId, Int8.toInt_ofInt, Int.bmod_def, Int8.size]
    omega
  rw [he] at hint
  have : (0 : Int8).toInt = 0 := rfl
  omega

variable {F : Type*} [Add F] [Mul F] [NatCast F] [LT F] [LE F] [DecidableLT F] [DecidableLE F] [ToInt F]
variable {g : Grid} {t : Tables F}

/-! ## The kinds of marks of one reading -/

theorem mem_clearMarks {dev : KDevice F} {i j : ℕ} {d : F} {m : Mark} (h : m ∈ clearMarks g dev i j d) :
    ∃ c, m = .clear c dev.id := by
  obtain ⟨p, _, rfl⟩ := List.mem_map.mp h
  exact ⟨_, rfl⟩

theorem mem_knownMarks {dev : KDevice F} {i j : ℕ} {d : F} {m : Mark} (h : m ∈ knownMarks g dev i j d) :
    m = .known (cubeOf g (landPoint dev i j d)) dev.id := by
  unfold knownMarks at h
  split at h
  · simpa using h
  · cases h

theorem mem_guessMarks {dev : KDevice F} {i j : ℕ} {d : F} {m : Mark} (h : m ∈ guessMarks g dev i j d) :
    ∃ c, m = .guess c := by
  obtain ⟨p, _, rfl⟩ := List.mem_map.mp h
  exact ⟨_, rfl⟩

theorem kinds_of_mem_clearMarks {dev : KDevice F} {i j : ℕ} {d : F} {m : Mark} (h : m ∈ clearMarks g dev i j d) :
    m.isClear = true ∧ m.isKnown = false ∧ m.isGuess = false := by
  obtain ⟨c, rfl⟩ := mem_clearMarks h
  exact ⟨rfl, rfl, rfl⟩

theorem kinds_of_mem_knownMarks {dev : KDevice F} {i j : ℕ} {d : F} {m : Mark} (h : m ∈ knownMarks g dev i j d) :
    m.isClear = false ∧ m.isKnown = true ∧ m.isGuess = false := by
  obtain rfl := mem_knownMarks h
  exact ⟨rfl, rfl, rfl⟩

theorem kinds_of_mem_guessMarks {dev : KDevice F} {i j : ℕ} {d : F} {m : Mark} (h : m ∈ guessMarks g dev i j d) :
    m.isClear = false ∧ m.isKnown = false ∧ m.isGuess = true := by
  obtain ⟨c, rfl⟩ := mem_guessMarks h
  exact ⟨rfl, rfl, rfl⟩

theorem filter_distanceMarks (g : Grid) (dev : KDevice F) (i j : ℕ) (d : F) :
    (distanceMarks g dev i j d).filter Mark.isClear = clearMarks g dev i j d ∧
      (distanceMarks g dev i j d).filter Mark.isKnown = knownMarks g dev i j d ∧
      (distanceMarks g dev i j d).filter Mark.isGuess = guessMarks g dev i j d := by
  simp only [distanceMarks_eq, clearMarks, knownMarks, guessMarks, List.filter_append, List.filter_map]
  by_cases h : inbounds g (clearEnd g dev i j d) = true
  · simp [h, Function.comp_def]
  · simp [h, Function.comp_def]

theorem mem_distanceMarks {dev : KDevice F} {i j : ℕ} {d : F} {m : Mark} (h : m ∈ distanceMarks g dev i j d) :
    (m.isClear = true → m ∈ clearMarks g dev i j d) ∧ (m.isKnown = true → m ∈ knownMarks g dev i j d) ∧
      (m.isGuess = true → m ∈ guessMarks g dev i j d) := by
  obtain ⟨hclear, hknown, hguess⟩ := filter_distanceMarks g dev i j d
  rw [← hclear, ← hknown, ← hguess]
  simp [h]

theorem countP_known_distanceMarks (dev : KDevice F) (i j : ℕ) (d : F) (p : Mark → Bool) :
    (distanceMarks g dev i j d).countP (fun m => p m && m.isKnown) =
      if (distanceMarks g dev i j d).any fun m => p m && m.isKnown then 1 else 0 := by
  have hany : (distanceMarks g dev i j d).any (fun m => p m && m.isKnown) = (knownMarks g dev i j d).any p := by
    rw [← (filter_distanceMarks g dev i j d).2.1, List.any_filter]
    simp only [Bool.and_comm]
  rw [hany, ← List.countP_filter, (filter_distanceMarks g dev i j d).2.1, knownMarks]
  split
  · simp [List.countP_cons]
  · simp

theorem distanceMarks_hasId {dev : KDevice F} (hid : dev.id ≠ 0) {i j : ℕ} {d : F} :
    ∀ m ∈ distanceMarks g dev i j d, m.HasId := by
  intro m hm
  rw [distanceMarks_eq, List.mem_append, List.mem_append] at hm
  rcases hm with (hm | hm) | hm
  · obtain ⟨c, rfl⟩ := mem_clearMarks hm
    exact hid
  · obtain rfl := mem_knownMarks hm
    exact hid
  · obtain ⟨c, rfl⟩ := mem_guessMarks hm
    trivial

/-! ## The marks of one kind -/

def knownMarksOf (g : Grid) (dev : KDevice F) (i j : ℕ) (d : F) : List Mark :=
  (distanceMarks g dev i j d).filter Mark.isKnown

theorem knownMarksOf_eq (g : Grid) (dev : KDevice F) (i j : ℕ) (d : F) :
    knownMarksOf g dev i j d = knownMarks g dev i j d := (filter_distanceMarks g dev i j d).2.1

theorem plotDistance_of_known {dev : KDevice F} {i j : ℕ} {d : F} {c : CubeCoord}
    (hk : knownMarksOf g dev i j d = [.known c dev.id]) (env : Env) :
    let env' := plotDistance g (fun m env => env.write g m) dev i j d env
    (env'.environmentCubes (g.cubeLoc c)).knownCount = (env.environmentCubes (g.cubeLoc c)).knownCount + 1 ∧
      (env'.environmentCubes (g.cubeLoc c)).knownBy = dev.id ∧
      env'.columnStatus (g.colLoc c.ix c.iy) = .known := by
  have hc : ∀ m ∈ clearMarks g dev i j d, m.isKnown = false := fun m hm => (kinds_of_mem_clearMarks hm).2.1
  have hg : ∀ m ∈ guessMarks g dev i j d, m.isKnown = false := fun m hm => (kinds_of_mem_guessMarks hm).2.1
  have henv : plotDistance g (fun m env => env.write g m) dev i j d env =
      (((env.writeAll g (clearMarks g dev i j d)).write g (.known c dev.id)).writeAll g (guessMarks g dev i j d)) := by
    rw [plotDistance_eq_steps, ← knownMarksOf_eq, hk]
    simp [Env.writeAll]
  rw [henv]
  obtain ⟨hby, hcount⟩ := Env.writeAll_of_not_known hg
    ((env.writeAll g (clearMarks g dev i j d)).write g (.known c dev.id)) (g.cubeLoc c)
  obtain ⟨_, hcount0⟩ := Env.writeAll_of_not_known hc env (g.cubeLoc c)
  have hhit : (Mark.known c dev.id).hits g (g.cubeLoc c) = true := Mark.hits_iff.mpr rfl
  have hin : (Mark.known c dev.id).inColumn g (g.colLoc c.ix c.iy) = true := Mark.inColumn_iff.mpr rfl
  rw [Env.write_environmentCubes, if_pos hhit] at hby hcount
  refine ⟨?_, hby, Env.writeAll_column_known _ ?_⟩
  · rw [hcount, ← hcount0]
    rfl
  · rw [Env.write_columnStatus, if_pos hin]
    rfl

/-! ## The evidence of a poll -/

variable [Div F]

def Reading.recordsKnown (g : Grid) (t : Tables F) (loc : ℤ) (r : Reading F) : Bool :=
  (r.marks g t).any fun m => m.hits g loc && m.isKnown

/-- The evidence for a cube: the number of readings whose Step 2 recorded it, the number of times Step 3 guessed
it, and whether any Step 1 cleared it. -/
def pollEvidence (g : Grid) (t : Tables F) (rs : List (Reading F)) (loc : ℤ) : Evidence where
  known := rs.countP fun r => r.recordsKnown g t loc
  guesses := (readingsMarks g t rs).countP fun m => m.hits g loc && m.isGuess
  cleared := (readingsMarks g t rs).any fun m => m.hits g loc && m.isClear

theorem pollEvidence_known (rs : List (Reading F)) (loc : ℤ) :
    (pollEvidence g t rs loc).known = rs.countP fun r => r.recordsKnown g t loc := rfl

theorem countP_known_readingsMarks (rs : List (Reading F)) (loc : ℤ) :
    (readingsMarks g t rs).countP (fun m => m.hits g loc && m.isKnown) =
      rs.countP fun r => r.recordsKnown g t loc := by
  induction rs with
  | nil => rfl
  | cons r rs ih =>
      have hr : (r.marks g t).countP (fun m => m.hits g loc && m.isKnown) =
          if r.recordsKnown g t loc then 1 else 0 := by
        rw [Reading.recordsKnown, Reading.marks_eq]
        split
        · exact countP_known_distanceMarks _ _ _ _ _
        · rfl
      rw [readingsMarks, List.flatMap_cons, List.countP_append, hr, List.countP_cons, ← ih, readingsMarks,
        Nat.add_comm]

theorem pollEvidence_eq (rs : List (Reading F)) (loc : ℤ) :
    pollEvidence g t rs loc = Evidence.of g loc (readingsMarks g t rs) := by
  rw [pollEvidence, Evidence.of, countP_known_readingsMarks]

theorem hasId_of_mem_readingsMarks {rs : List (Reading F)} (hid : ∀ r ∈ rs, r.dev.id ≠ 0) :
    ∀ m ∈ readingsMarks g t rs, m.HasId := by
  intro m hm
  obtain ⟨r, hr, hm⟩ := List.mem_flatMap.mp hm
  rw [Reading.marks_eq] at hm
  split at hm
  · exact distanceMarks_hasId (hid r hr) m hm
  · cases hm

theorem readingsMarks_hasId {devices : List (KDevice F × Option Frame)} {rs : List (Reading F)}
    (hrs : ∀ r ∈ rs, r ∈ pollReadings devices) (hid : ∀ d ∈ devices, d.2.isSome → d.1.id ≠ 0) :
    ∀ m ∈ readingsMarks g t rs, m.HasId := by
  apply hasId_of_mem_readingsMarks
  intro r hr
  obtain ⟨fdepths, hd⟩ := mem_pollReadings (hrs r hr)
  exact hid _ hd rfl

theorem kinectPoll_records {devices : List (KDevice F × Option Frame)} {env : Env}
    (hid : ∀ d ∈ devices, d.2.isSome → d.1.id ≠ 0) {loc : ℤ} (h0 : 0 ≤ loc) (hn : loc < g.numCubes) :
    ((kinectPoll g t devices env).environmentCubes loc).Records (pollEvidence g t (pollReadings devices) loc) := by
  rw [kinectPoll_eq, pollEvidence_eq]
  exact Env.writeAll_records env (readingsMarks_hasId (fun _ h => h) hid) h0 hn

theorem kinectPoll_reachable {devices : List (KDevice F × Option Frame)} (env : Env)
    (h : ∀ m ∈ readingsMarks g t (pollReadings devices), g.HasCube m.cube) :
    Reachable g (kinectPoll g t devices env) := by
  rw [kinectPoll_eq]
  exact (Reachable.memset env).writeAll h

end CarBoundary

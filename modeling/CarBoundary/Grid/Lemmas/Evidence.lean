import CarBoundary.Lib.Counter
import CarBoundary.Grid.Basic
import Mathlib.Data.List.Induction

/-!
# Evidence

What the marks of a poll say about a cube or a column, counted without bounds and without regard to their
order. The contents of the arrays record this evidence (`Cube.Records`, `ColEvidence.status`).
-/

namespace CarBoundary

/-! ## Kinds of marks -/

def Mark.isKnown : Mark → Bool
  | .known _ _ => true
  | _ => false

def Mark.isGuess : Mark → Bool
  | .guess _ => true
  | _ => false

def Mark.isClear : Mark → Bool
  | .clear _ _ => true
  | _ => false

@[simp]
theorem Mark.of_clear (c : CubeCoord) (id : Int8) : (clear c id).cube = c ∧ (clear c id).isClear = true ∧
    (clear c id).isKnown = false ∧ (clear c id).isGuess = false := ⟨rfl, rfl, rfl, rfl⟩

@[simp]
theorem Mark.of_known (c : CubeCoord) (id : Int8) : (known c id).cube = c ∧ (known c id).isClear = false ∧
    (known c id).isKnown = true ∧ (known c id).isGuess = false := ⟨rfl, rfl, rfl, rfl⟩

@[simp]
theorem Mark.of_guess (c : CubeCoord) : (guess c).cube = c ∧ (guess c).isClear = false ∧
    (guess c).isKnown = false ∧ (guess c).isGuess = true := ⟨rfl, rfl, rfl, rfl⟩

/-- The id that a mark stores, if it stores one, is not zero. -/
def Mark.HasId : Mark → Prop
  | .clear _ id => id ≠ 0
  | .known _ id => id ≠ 0
  | .guess _ => True

def Mark.hits (g : Grid) (loc : ℤ) (m : Mark) : Bool := decide (g.cubeLoc m.cube = loc)

def Mark.inColumn (g : Grid) (loc : ℤ) (m : Mark) : Bool := decide (m.column g = loc)

theorem Mark.hits_iff {g : Grid} {loc : ℤ} {m : Mark} : m.hits g loc = true ↔ g.cubeLoc m.cube = loc :=
  decide_eq_true_iff

theorem Mark.inColumn_iff {g : Grid} {loc : ℤ} {m : Mark} : m.inColumn g loc = true ↔ m.column g = loc :=
  decide_eq_true_iff

/-! ## A cube -/

structure Evidence where
  known : ℕ
  guesses : ℕ
  cleared : Bool

namespace Evidence

/-- Enough pixels have recognized the cube, or enough have guessed it and none has looked through it. -/
def Enough (e : Evidence) : Prop := minCount ≤ e.known ∨ (minCount ≤ e.guesses ∧ e.cleared = false)

/-- What the test of `draw_depths` makes of the evidence once it went through the counters. -/
def ShownEnough (e : Evidence) : Prop :=
  Counter.Shows minCount e.known ∨ (Counter.Shows minCount e.guesses ∧ e.cleared = false)

/-- The evidence of the marks that write the cube at the index. -/
def of (g : Grid) (loc : ℤ) (ms : List Mark) : Evidence where
  known := ms.countP fun m => m.hits g loc && m.isKnown
  guesses := ms.countP fun m => m.hits g loc && m.isGuess
  cleared := ms.any fun m => m.hits g loc && m.isClear

def add (e : Evidence) : Mark → Evidence
  | .clear _ _ => { e with cleared := true }
  | .known _ _ => { e with known := e.known + 1 }
  | .guess _ => { e with guesses := e.guesses + 1 }

theorem of_snoc (g : Grid) (loc : ℤ) (ms : List Mark) (m : Mark) :
    of g loc (ms ++ [m]) = if m.hits g loc then (of g loc ms).add m else of g loc ms := by
  by_cases h : m.hits g loc = true
  · cases m with
    | clear c id => simp [of, add, h]
    | known c id => simp [of, add, h]
    | guess c => simp [of, add, h]
  · simp [of, h]

theorem of_perm {g : Grid} {loc : ℤ} {ms ms' : List Mark} (h : ms.Perm ms') : of g loc ms = of g loc ms' := by
  simp only [of, h.countP_eq, h.any_eq]

theorem exists_known {g : Grid} {loc : ℤ} {ms : List Mark} (h : 0 < (of g loc ms).known) :
    ∃ m ∈ ms, g.cubeLoc m.cube = loc ∧ m.isKnown = true := by
  obtain ⟨m, hm, hhit⟩ := List.countP_pos_iff.mp h
  rw [Bool.and_eq_true, Mark.hits_iff] at hhit
  exact ⟨m, hm, hhit⟩

theorem exists_guess {g : Grid} {loc : ℤ} {ms : List Mark} (h : 0 < (of g loc ms).guesses) :
    ∃ m ∈ ms, g.cubeLoc m.cube = loc ∧ m.isGuess = true := by
  obtain ⟨m, hm, hhit⟩ := List.countP_pos_iff.mp h
  rw [Bool.and_eq_true, Mark.hits_iff] at hhit
  exact ⟨m, hm, hhit⟩

theorem shownEnough_enough {e : Evidence} (h : e.ShownEnough) : e.Enough := by
  rcases h with h | ⟨h, hc⟩
  · exact Or.inl h.le
  · exact Or.inr ⟨h.le, hc⟩

end Evidence

structure Cube.Records (cube : Cube) (e : Evidence) : Prop where
  knownCount : cube.knownCount = Int8.ofNat e.known
  guessCount : cube.guessCount = Int8.ofNat e.guesses
  knownBy : cube.knownBy = 0 ↔ e.known = 0
  clearedBy : cube.clearedBy = 0 ↔ e.cleared = false

def Mark.onCube (cube : Cube) : Mark → Cube
  | .clear _ id => { cube with clearedBy := id }
  | .known _ id => { cube with knownBy := id, knownCount := cube.knownCount + 1 }
  | .guess _ => { cube with guessCount := cube.guessCount + 1 }

theorem Cube.Records.add {cube : Cube} {e : Evidence} (h : cube.Records e) {m : Mark} (hid : m.HasId) :
    (m.onCube cube).Records (e.add m) := by
  cases m with
  | clear c id =>
      have hby : id ≠ 0 := hid
      exact ⟨h.knownCount, h.guessCount, h.knownBy, by simp [Mark.onCube, Evidence.add, hby]⟩
  | known c id =>
      have hby : id ≠ 0 := hid
      have hcount : cube.knownCount + 1 = Int8.ofNat (e.known + 1) := by
        rw [h.knownCount, Counter.ofNat_succ]
      exact ⟨hcount, h.guessCount, by simp [Mark.onCube, Evidence.add, hby], h.clearedBy⟩
  | guess c =>
      have hcount : cube.guessCount + 1 = Int8.ofNat (e.guesses + 1) := by
        rw [h.guessCount, Counter.ofNat_succ]
      exact ⟨h.knownCount, hcount, h.knownBy, h.clearedBy⟩

theorem Cube.Records.occupied_iff {cube : Cube} {e : Evidence} (h : cube.Records e) :
    cube.occupied = true ↔ e.ShownEnough := by
  have hcount (n : ℕ) : Int8.ofNat minCount ≤ Int8.ofNat n ↔ Counter.Shows minCount n :=
    Counter.ofNat_le_ofNat_iff (by decide) (by decide)
  simp [Cube.occupied, h.knownCount, h.guessCount, hcount, h.clearedBy, Evidence.ShownEnough]

/-! ## A column -/

/-- What has been seen in a column. -/
structure ColEvidence where
  known : Bool
  guessed : Bool

namespace ColEvidence

/-- The evidence of the marks that lie in the column with the index. -/
def of (g : Grid) (loc : ℤ) (ms : List Mark) : ColEvidence where
  known := ms.any fun m => m.inColumn g loc && m.isKnown
  guessed := ms.any fun m => m.inColumn g loc && m.isGuess

def status (e : ColEvidence) : ColStatus := if e.known then .known else if e.guessed then .guessed else .clear

/-- One more mark in the column. -/
def add (e : ColEvidence) (m : Mark) : ColEvidence where
  known := e.known || m.isKnown
  guessed := e.guessed || m.isGuess

theorem of_snoc (g : Grid) (loc : ℤ) (ms : List Mark) (m : Mark) :
    of g loc (ms ++ [m]) = if m.inColumn g loc then (of g loc ms).add m else of g loc ms := by
  by_cases h : m.inColumn g loc = true
  · simp [of, add, h]
  · simp [of, h]

theorem of_perm {g : Grid} {loc : ℤ} {ms ms' : List Mark} (h : ms.Perm ms') : of g loc ms = of g loc ms' := by
  simp only [of, h.any_eq]

end ColEvidence

def Mark.onColumn (status : ColStatus) : Mark → ColStatus
  | .clear _ _ => status
  | .known _ _ => .known
  | .guess _ => if status = .clear then .guessed else status

theorem ColEvidence.status_add (e : ColEvidence) (m : Mark) : (e.add m).status = m.onColumn e.status := by
  obtain ⟨known, guessed⟩ := e
  cases m <;> cases known <;> cases guessed <;> rfl

/-! ## The arrays record the evidence -/

@[simp]
theorem Env.setCube_environmentCubes (env : Env) (loc : ℤ) (f : Cube → Cube) (loc' : ℤ) :
    (env.setCube loc f).environmentCubes loc' =
      if loc = loc' then f (env.environmentCubes loc') else env.environmentCubes loc' := by
  by_cases h : loc = loc'
  · subst h
    simp [Env.setCube]
  · simp [Env.setCube, h, Function.update_of_ne (Ne.symm h)]

@[simp]
theorem Env.setColumn_columnStatus (env : Env) (loc : ℤ) (status : ColStatus) (loc' : ℤ) :
    (env.setColumn loc status).columnStatus loc' = if loc = loc' then status else env.columnStatus loc' := by
  by_cases h : loc = loc'
  · subst h
    simp [Env.setColumn]
  · simp [Env.setColumn, h, Function.update_of_ne (Ne.symm h)]

@[simp]
theorem Env.setCube_columnStatus (env : Env) (loc : ℤ) (f : Cube → Cube) :
    (env.setCube loc f).columnStatus = env.columnStatus := rfl

@[simp]
theorem Env.setColumn_environmentCubes (env : Env) (loc : ℤ) (status : ColStatus) :
    (env.setColumn loc status).environmentCubes = env.environmentCubes := rfl

theorem Env.write_environmentCubes (g : Grid) (env : Env) (m : Mark) (loc : ℤ) :
    (env.write g m).environmentCubes loc =
      if m.hits g loc then m.onCube (env.environmentCubes loc) else env.environmentCubes loc := by
  by_cases h : g.cubeLoc m.cube = loc
  · rw [if_pos (Mark.hits_iff.mpr h), ← h]
    cases m with
    | clear c id => simp [Env.write, Mark.onCube]
    | known c id => simp [Env.write, Mark.onCube]
    | guess c =>
        by_cases hs : env.columnStatus (g.colLoc c.ix c.iy) = .clear
        · simp [Env.write, Mark.onCube, hs]
        · simp [Env.write, Mark.onCube, hs]
  · rw [if_neg (mt Mark.hits_iff.mp h)]
    cases m with
    | clear c id =>
        rw [(Mark.of_clear c id).1] at h
        simp [Env.write, h]
    | known c id =>
        rw [(Mark.of_known c id).1] at h
        simp [Env.write, h]
    | guess c =>
        rw [(Mark.of_guess c).1] at h
        by_cases hs : env.columnStatus (g.colLoc c.ix c.iy) = .clear
        · simp [Env.write, h, hs]
        · simp [Env.write, h, hs]

theorem Env.write_columnStatus (g : Grid) (env : Env) (m : Mark) (loc : ℤ) :
    (env.write g m).columnStatus loc =
      if m.inColumn g loc then m.onColumn (env.columnStatus loc) else env.columnStatus loc := by
  by_cases h : m.column g = loc
  · rw [if_pos (Mark.inColumn_iff.mpr h), ← h]
    cases m with
    | clear c id => simp [Env.write, Mark.onColumn]
    | known c id => simp [Env.write, Mark.column, Mark.onColumn]
    | guess c =>
        by_cases hs : env.columnStatus (g.colLoc c.ix c.iy) = .clear
        · simp [Env.write, Mark.column, Mark.onColumn, hs]
        · simp [Env.write, Mark.column, Mark.onColumn, hs]
  · rw [if_neg (mt Mark.inColumn_iff.mp h)]
    rw [Mark.column] at h
    cases m with
    | clear c id => simp [Env.write]
    | known c id =>
        rw [(Mark.of_known c id).1] at h
        simp [Env.write, h]
    | guess c =>
        rw [(Mark.of_guess c).1] at h
        by_cases hs : env.columnStatus (g.colLoc c.ix c.iy) = .clear
        · simp [Env.write, h, hs]
        · simp [Env.write, hs]

theorem Env.writeAll_snoc (g : Grid) (env : Env) (ms : List Mark) (m : Mark) :
    env.writeAll g (ms ++ [m]) = (env.writeAll g ms).write g m := by
  simp [Env.writeAll]

/-- After `memset`, every cube of the array records the evidence of the marks written since. -/
theorem Env.writeAll_records {g : Grid} (env : Env) {ms : List Mark} (hid : ∀ m ∈ ms, m.HasId) {loc : ℤ}
    (h0 : 0 ≤ loc) (hn : loc < g.numCubes) :
    (((env.memset g).writeAll g ms).environmentCubes loc).Records (Evidence.of g loc ms) := by
  induction ms using List.reverseRecOn with
  | nil =>
      have hz : ((env.memset g).writeAll g []).environmentCubes loc = ⟨0, 0, 0, 0⟩ := by
        simp [Env.writeAll, Env.memset, h0, hn]
      rw [hz]
      exact ⟨rfl, rfl, by simp [Evidence.of], by simp [Evidence.of]⟩
  | append_singleton ms m ih =>
      have hms := ih fun m' hm' => hid m' (by simp [hm'])
      rw [Env.writeAll_snoc, Env.write_environmentCubes, Evidence.of_snoc]
      split
      · exact hms.add (hid m (by simp))
      · exact hms

/-- After `memset`, every column status sums up the marks written since. -/
theorem Env.writeAll_columnStatus {g : Grid} (env : Env) (ms : List Mark) {loc : ℤ}
    (h0 : 0 ≤ loc) (hn : loc < g.numColumns) :
    ((env.memset g).writeAll g ms).columnStatus loc = (ColEvidence.of g loc ms).status := by
  induction ms using List.reverseRecOn with
  | nil => simp [Env.writeAll, Env.memset, h0, hn, ColEvidence.of, ColEvidence.status]
  | append_singleton ms m ih =>
      rw [Env.writeAll_snoc, Env.write_columnStatus, ColEvidence.of_snoc, ih]
      split
      · exact (ColEvidence.status_add _ _).symm
      · rfl

end CarBoundary

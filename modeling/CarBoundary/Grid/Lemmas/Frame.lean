import CarBoundary.Grid.Lemmas.Evidence

/-!
# What marks of one kind leave alone
-/

namespace CarBoundary

variable {g : Grid} {ms : List Mark}

theorem Env.writeAll_cons (g : Grid) (env : Env) (m : Mark) (ms : List Mark) :
    env.writeAll g (m :: ms) = (env.write g m).writeAll g ms := rfl

theorem Env.writeAll_of_not_known (h : ∀ m ∈ ms, m.isKnown = false) (env : Env) (loc : ℤ) :
    ((env.writeAll g ms).environmentCubes loc).knownBy = (env.environmentCubes loc).knownBy ∧
      ((env.writeAll g ms).environmentCubes loc).knownCount = (env.environmentCubes loc).knownCount := by
  induction ms generalizing env with
  | nil => exact ⟨rfl, rfl⟩
  | cons m ms ih =>
      have hm : (m.onCube (env.environmentCubes loc)).knownBy = (env.environmentCubes loc).knownBy ∧
          (m.onCube (env.environmentCubes loc)).knownCount = (env.environmentCubes loc).knownCount := by
        have hk := h m (by simp)
        cases m with
        | clear c id => exact ⟨rfl, rfl⟩
        | known c id => simp [Mark.isKnown] at hk
        | guess c => exact ⟨rfl, rfl⟩
      have hrest := ih (fun m' hm' => h m' (by simp [hm'])) (env.write g m)
      rw [Env.write_environmentCubes] at hrest
      rw [Env.writeAll_cons, hrest.1, hrest.2]
      split
      · exact hm
      · exact ⟨rfl, rfl⟩

theorem Env.writeAll_column_known (env : Env) {loc : ℤ} (h : env.columnStatus loc = .known) :
    (env.writeAll g ms).columnStatus loc = .known := by
  induction ms generalizing env with
  | nil => exact h
  | cons m ms ih =>
      rw [Env.writeAll_cons]
      apply ih
      rw [Env.write_columnStatus, h]
      split
      · cases m <;> rfl
      · rfl

theorem Env.writeAll_of_clear (h : ∀ m ∈ ms, m.isClear = true) (env : Env) :
    (∀ loc, ((env.writeAll g ms).environmentCubes loc).knownBy = (env.environmentCubes loc).knownBy ∧
      ((env.writeAll g ms).environmentCubes loc).knownCount = (env.environmentCubes loc).knownCount ∧
      ((env.writeAll g ms).environmentCubes loc).guessCount = (env.environmentCubes loc).guessCount) ∧
    (env.writeAll g ms).columnStatus = env.columnStatus := by
  induction ms generalizing env with
  | nil => exact ⟨fun _ => ⟨rfl, rfl, rfl⟩, rfl⟩
  | cons m ms ih =>
      obtain ⟨c, id, rfl⟩ : ∃ c id, m = .clear c id := by
        have hm := h m (by simp)
        cases m with
        | clear c id => exact ⟨c, id, rfl⟩
        | known c id => cases hm
        | guess c => cases hm
      obtain ⟨hcube, hcol⟩ := ih (fun m' hm' => h m' (by simp [hm'])) (env.write g (.clear c id))
      refine ⟨fun loc => ?_, hcol⟩
      have hloc := hcube loc
      rw [Env.write_environmentCubes] at hloc
      rw [Env.writeAll_cons, hloc.1, hloc.2.1, hloc.2.2]
      split
      · exact ⟨rfl, rfl, rfl⟩
      · exact ⟨rfl, rfl, rfl⟩

/-- The cubes that are cleared get the id, and the other ones keep theirs. -/
theorem Env.writeAll_clearedBy {id : Int8} {cs : List CubeCoord}
    (h : ms.filter Mark.isClear = cs.map fun c => .clear c id) (env : Env) (loc : ℤ) :
    ((env.writeAll g ms).environmentCubes loc).clearedBy =
      if loc ∈ cs.map g.cubeLoc then id else (env.environmentCubes loc).clearedBy := by
  induction ms generalizing env cs with
  | nil =>
      obtain rfl : cs = [] := List.map_eq_nil_iff.mp h.symm
      rfl
  | cons m ms ih =>
      have hwrite := Env.write_environmentCubes g env m loc
      rw [Env.writeAll_cons]
      cases m with
      | clear c id' =>
          rw [List.filter_cons_of_pos rfl] at h
          obtain ⟨c', cs', rfl, hc, hrest⟩ := List.map_eq_cons_iff.mp h.symm
          cases hc
          rw [ih hrest.symm, hwrite, List.map_cons]
          by_cases hloc : g.cubeLoc c = loc
          · rw [if_pos (Mark.hits_iff.mpr hloc)]
            simp [Mark.onCube, hloc]
          · rw [if_neg (mt Mark.hits_iff.mp hloc)]
            simp [Ne.symm hloc]
      | known c id' =>
          rw [List.filter_cons_of_neg (by simp [Mark.isClear])] at h
          rw [ih h, hwrite]
          congr 1
          split <;> rfl
      | guess c =>
          rw [List.filter_cons_of_neg (by simp [Mark.isClear])] at h
          rw [ih h, hwrite]
          congr 1
          split <;> rfl

end CarBoundary

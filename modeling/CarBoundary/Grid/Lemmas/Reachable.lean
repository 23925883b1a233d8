import CarBoundary.Grid.Lemmas.Evidence
import CarBoundary.Grid.Lemmas.Index

/-!
# The states that a poll goes through

After the two `memset`, a poll writes marks one after the other. The invariant `ColumnsCover` says that nothing
is counted in a column whose status is still `COL_CLEAR`.
-/

namespace CarBoundary

variable {g : Grid} {env : Env}

/-- The contents of the arrays during and after a poll whose marks all lie in the grid. -/
inductive Reachable (g : Grid) : Env → Prop where
  | memset (env : Env) : Reachable g (env.memset g)
  | write {env : Env} {m : Mark} : Reachable g env → g.HasCube m.cube → Reachable g (env.write g m)

theorem Reachable.writeAll {ms : List Mark} (h : Reachable g env) (hms : ∀ m ∈ ms, g.HasCube m.cube) :
    Reachable g (env.writeAll g ms) := by
  induction ms generalizing env with
  | nil => exact h
  | cons m ms ih =>
      exact ih (h.write (hms m List.mem_cons_self)) fun m' hm' => hms m' (List.mem_cons_of_mem _ hm')

/-- Nothing is counted in a column that is clear. -/
def ColumnsCover (g : Grid) (env : Env) : Prop :=
  ∀ c, g.HasCube c → env.columnStatus (g.colLoc c.ix c.iy) = .clear →
    (env.environmentCubes (g.cubeLoc c)).knownCount = 0 ∧ (env.environmentCubes (g.cubeLoc c)).guessCount = 0

theorem ColumnsCover.memset (g : Grid) (env : Env) : ColumnsCover g (env.memset g) := by
  intro c hc _
  obtain ⟨h0, hn⟩ := hc.cubeLoc_mem
  simp [Env.memset, h0, hn]

theorem ColumnsCover.write (h : ColumnsCover g env) {m : Mark} (hm : g.HasCube m.cube) :
    ColumnsCover g (env.write g m) := by
  intro c hc hclear
  rw [Env.write_columnStatus] at hclear
  rw [Env.write_environmentCubes]
  by_cases hcol : m.inColumn g (g.colLoc c.ix c.iy) = true
  · rw [if_pos hcol] at hclear
    cases m with
    | clear c' id =>
        obtain ⟨hk, hg⟩ := h c hc hclear
        split
        · exact ⟨hk, hg⟩
        · exact ⟨hk, hg⟩
    | known c' id => cases hclear
    | guess c' =>
        simp only [Mark.onColumn] at hclear
        split at hclear
        · cases hclear
        · contradiction
  · rw [if_neg hcol] at hclear
    have hmiss : m.hits g (g.cubeLoc c) = false := by
      rw [Mark.hits, decide_eq_false_iff_not]
      intro he
      have hcube := hm.cubeLoc_inj hc he
      exact hcol (Mark.inColumn_iff.mpr (by rw [Mark.column, hcube]))
    rw [hmiss]
    exact h c hc hclear

theorem Reachable.columnsCover (h : Reachable g env) : ColumnsCover g env := by
  induction h with
  | memset env => exact ColumnsCover.memset g env
  | write _ hm ih => exact ih.write hm

end CarBoundary

import CarBoundary.Program.Feed
import CarBoundary.Screen.Theorems.Picture
import CarBoundary.Screen.Theorems.Visible

/-!
# What the program shows
-/

namespace CarBoundary

section

variable {F : Type*} [Add F] [Mul F] [Div F] [NatCast F] [LT F] [LE F] [DecidableLT F] [DecidableLE F] [ToInt F]
variable (G : Globals F)

/-- As long as nothing is written outside the array, and whatever was in it and on the surface before, the program shows
the pictures that are drawn from scratch for each round, in their order, each once and then once for each expose event.
It ends with the first round in whose queue there is a key or quit event, and not before. -/
theorem main_draws_from_scratch {σ : Type*} (present : Surface → σ → σ) (render : Surface) (rounds : List Round)
    (screen : σ) (hgrid : ScalesIntoGrid F G.cfg) (hin : ∀ r ∈ Globals.drawn rounds, G.InRange r.fetched) :
    ∃ out, G.main present (some render) rounds screen = some out ∧
      out.2 = (G.shown render render rounds).foldl (fun screen pic => present pic screen) screen ∧
      (out.1 = some 0 ↔ ∃ r ∈ rounds, .keyDown ∈ r.events ∨ .quit ∈ r.events) := by
  refine ⟨_, Globals.main_eq present hgrid hin render screen, rfl, ?_⟩
  have hstatus : (if rounds.any Round.ends then some 0 else none) = some 0 ↔ rounds.any Round.ends = true := by
    cases rounds.any Round.ends <;> simp
  dsimp only
  rw [hstatus, List.any_eq_true]
  simp only [Round.ends_iff]

end

/-! ## A device in front of a wall -/

noncomputable section

/-- The program with one device, which is in front of a wall. -/
def frontGlobals : Globals ℝ :=
  ⟨Config.shipped, kinectTables realLibm, [frontDevice], initPalette Config.shipped.grid, mapARGB⟩

theorem frontGlobals_inRange {fetched : ℕ → Option Frame}
    (h : Option.Rel Frame.Agree (fetched 0) (some (patchFrame 1))) : frontGlobals.InRange fetched := by
  have hreadings : pollReadings (frontGlobals.fetches fetched) = deviceReadings frontDevice (some (patchFrame 1)) := by
    rw [← deviceReadings_congr h]
    simp [frontGlobals, Globals.fetches, pollReadings, syncGetDepth, frontDevice, levelDevice, initOneDevice,
      maxKinects]
  rw [Globals.InRange, hreadings]
  exact fun r hr m hm => frontDevice_patchIn.hasCube_of_mem (List.mem_flatMap.mpr ⟨r, hr, hm⟩)

theorem main_draws_from_scratch_quit :
    let rounds : List Round :=
      [⟨[], fun _ => some (patchFrame 1)⟩, ⟨[.videoExpose, .quit, .videoExpose], fun _ => none⟩]
    ∃ out, frontGlobals.main (fun pic screen => screen ++ [pic]) (some shippedSurface) rounds [] = some out ∧
      out.1 = some 0 := by
  intro rounds
  have hin : ∀ r ∈ Globals.drawn rounds, frontGlobals.InRange r.fetched := by
    intro r hr
    rw [List.mem_singleton.mp (show r ∈ [rounds[0]] from hr)]
    exact frontGlobals_inRange (.some fun _ _ => rfl)
  obtain ⟨out, hmain, _, hstatus⟩ := main_draws_from_scratch frontGlobals (fun pic screen => screen ++ [pic])
    shippedSurface rounds [] (scalesIntoGrid_exact ℝ Config.shipped) hin
  exact ⟨out, hmain, hstatus.mpr ⟨_, List.mem_cons_of_mem _ List.mem_cons_self, .inr (by simp)⟩⟩

end

end CarBoundary

import CarBoundary.Screen.Plain
import CarBoundary.Sensor.Lemmas.Wall

/-!
# When the counters decide as the evidence does

For every list of devices with their frames, the test of `draw_depths` agrees with the unbounded counts unless
there is enough evidence and an eight-bit counter does not show it.
-/

namespace CarBoundary

section

variable {F : Type*} [Add F] [Mul F] [Div F] [NatCast F] [LT F] [LE F] [DecidableLT F] [DecidableLE F] [ToInt F]
variable {g : Grid} {t : Tables F} {devices : List (KDevice F × Option Frame)} {c : CubeCoord}

/-- The test of `draw_depths` is true of the cube after the poll exactly if there is enough evidence. -/
def DecidedByEvidence (g : Grid) (t : Tables F) (devices : List (KDevice F × Option Frame)) (env : Env)
    (c : CubeCoord) : Prop :=
  ((kinectPoll g t devices env).environmentCubes (g.cubeLoc c)).occupied = true ↔
    (pollEvidence g t (pollReadings devices) (g.cubeLoc c)).Enough

theorem occupied_iff_shownEnough (hid : ∀ d ∈ devices, d.2.isSome → d.1.id ≠ 0) (env : Env) (hc : g.HasCube c) :
    ((kinectPoll g t devices env).environmentCubes (g.cubeLoc c)).occupied = true ↔
      (pollEvidence g t (pollReadings devices) (g.cubeLoc c)).ShownEnough :=
  (kinectPoll_records hid hc.cubeLoc_mem.1 hc.cubeLoc_mem.2).occupied_iff

/-- The evidence decides exactly if it is not enough or the remainders by 256 of the counts show that it is. -/
theorem decidedByEvidence_iff (hid : ∀ d ∈ devices, d.2.isSome → d.1.id ≠ 0) (env : Env) (hc : g.HasCube c) :
    DecidedByEvidence g t devices env c ↔
      ((pollEvidence g t (pollReadings devices) (g.cubeLoc c)).Enough →
        (pollEvidence g t (pollReadings devices) (g.cubeLoc c)).ShownEnough) := by
  rw [DecidedByEvidence, occupied_iff_shownEnough hid env hc]
  exact ⟨fun h => h.mpr, fun h => ⟨Evidence.shownEnough_enough, h⟩⟩

end

/-- Eight pixels recognize the cube that a wall in one row of pixels is in, and it is taken to be occupied. -/
theorem wall_one_row_decided :
    DecidedByEvidence Config.shipped.grid (kinectTables realLibm) (wallDevices 1) Env.initial wallCube := by
  refine (decidedByEvidence_iff (wallDevices_id 1) Env.initial wallIn_wallCube.hasCube).mpr fun _ => Or.inl ?_
  rw [pollReadings_wallDevices, (wallIn_wallCube.patchIn 1 (by decide)).evidence_known]
  decide

noncomputable section

/-- The device ahead of the car sees the wall in 16 rows of pixels. -/
def aheadDevices : List (KDevice ℝ × Option Frame) :=
  [(aheadDevice, some (patchFrame 16))]

theorem aheadDevices_id : ∀ d ∈ aheadDevices, d.2.isSome → d.1.id ≠ 0 := by
  intro d hd _
  rw [List.mem_singleton.mp hd, KDevice.id_eq]
  exact deviceId_ne_zero (Int.le_refl 0) (by decide : (0 : ℤ) < 64)

/-- 128 pixels recognize a cube outside the car. The counter shows -128. -/
theorem wall_sixteen_rows_lost :
    Config.shipped.grid.HasCube aheadCube ∧ ¬ InCar Config.shipped aheadCube.ix aheadCube.iy ∧
      (∀ d ∈ aheadDevices, d.2.isSome → d.1.id ≠ 0) ∧
      ¬ DecidedByEvidence Config.shipped.grid (kinectTables realLibm) aheadDevices Env.initial aheadCube := by
  refine ⟨wallIn_aheadCube.hasCube, by decide +kernel, aheadDevices_id, fun hdecided => ?_⟩
  rw [DecidedByEvidence, occupied_iff_shownEnough aheadDevices_id _ wallIn_aheadCube.hasCube, aheadDevices,
    pollReadings_singleton] at hdecided
  have hknown := aheadDevice_patchIn.evidence_known
  have hguesses := aheadDevice_patchIn.evidence_guesses wallIn_aheadCube.hasCube
  have henough := hdecided.mpr (Or.inl (by rw [hknown]; decide))
  rw [Evidence.ShownEnough, hknown, hguesses] at henough
  rcases henough with hshow | ⟨hshow, _⟩
  · exact absurd hshow (by decide)
  · exact absurd hshow (by decide)

end

end CarBoundary

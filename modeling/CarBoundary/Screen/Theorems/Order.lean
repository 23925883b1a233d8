import CarBoundary.Screen.Lemmas.Columns
import CarBoundary.Sensor.Lemmas.Wall

/-!
# The order of the scan does not matter

Two polls of the same readings agree on all that `draw_depths` reads, whatever the order of the devices and the
readings and whatever the arrays held before.
-/

namespace CarBoundary

/-- The contents of the arrays agree up to which device wrote last. -/
structure Env.Agree (g : Grid) (env env' : Env) : Prop where
  knownCount : ∀ loc : ℤ, 0 ≤ loc → loc < g.numCubes →
    (env.environmentCubes loc).knownCount = (env'.environmentCubes loc).knownCount
  guessCount : ∀ loc : ℤ, 0 ≤ loc → loc < g.numCubes →
    (env.environmentCubes loc).guessCount = (env'.environmentCubes loc).guessCount
  knownBy : ∀ loc : ℤ, 0 ≤ loc → loc < g.numCubes →
    ((env.environmentCubes loc).knownBy = 0 ↔ (env'.environmentCubes loc).knownBy = 0)
  clearedBy : ∀ loc : ℤ, 0 ≤ loc → loc < g.numCubes →
    ((env.environmentCubes loc).clearedBy = 0 ↔ (env'.environmentCubes loc).clearedBy = 0)
  columnStatus : ∀ loc : ℤ, 0 ≤ loc → loc < g.numColumns → env.columnStatus loc = env'.columnStatus loc

theorem Env.writeAll_agree {g : Grid} {ms ms' : List Mark} (hperm : ms.Perm ms') (hid : ∀ m ∈ ms, m.HasId)
    (env env' : Env) : Env.Agree g ((env.memset g).writeAll g ms) ((env'.memset g).writeAll g ms') := by
  have hid' : ∀ m ∈ ms', m.HasId := fun m hm => hid m (hperm.mem_iff.mpr hm)
  have hrec {loc : ℤ} (h0 : 0 ≤ loc) (hn : loc < g.numCubes) := Env.writeAll_records env hid h0 hn
  have hrec' {loc : ℤ} (h0 : 0 ≤ loc) (hn : loc < g.numCubes) := Env.writeAll_records env' hid' h0 hn
  refine ⟨fun loc h0 hn => ?_, fun loc h0 hn => ?_, fun loc h0 hn => ?_, fun loc h0 hn => ?_, fun loc h0 hn => ?_⟩
  · rw [(hrec h0 hn).knownCount, (hrec' h0 hn).knownCount, Evidence.of_perm hperm]
  · rw [(hrec h0 hn).guessCount, (hrec' h0 hn).guessCount, Evidence.of_perm hperm]
  · rw [(hrec h0 hn).knownBy, (hrec' h0 hn).knownBy, Evidence.of_perm hperm]
  · rw [(hrec h0 hn).clearedBy, (hrec' h0 hn).clearedBy, Evidence.of_perm hperm]
  · rw [Env.writeAll_columnStatus env ms h0 hn, Env.writeAll_columnStatus env' ms' h0 hn,
      ColEvidence.of_perm hperm]

theorem Env.Agree.paint_eq {F : Type*} [Mul F] [Div F] [NatCast F] [ToInt F] {cfg : Config} {env env' : Env}
    (h : Env.Agree cfg.grid env env') (hgrid : ScalesIntoGrid F cfg) (cubeColor : ℕ → BitVec 32) (mapRGB : MapRGB)
    (s : Surface) : paint F cfg cubeColor mapRGB env s = paint F cfg cubeColor mapRGB env' s := by
  refine drawDepths_congr (fun sx hx sy hy => ?_) s
  have hcol := hgrid sx hx sy hy
  refine columnColor_congr (fun z hz => ?_) (h.columnStatus _ hcol.colLoc_mem.1 hcol.colLoc_mem.2)
  have hcube : cfg.grid.HasCube ⟨scaleX F cfg sx, scaleY F cfg sy, z⟩ :=
    ⟨hcol, Int.natCast_nonneg _, Int.ofNat_lt.mpr hz⟩
  obtain ⟨h0, hn⟩ := hcube.cubeLoc_mem
  simp only [occupiedAt, Cube.occupied, h.knownCount _ h0 hn, h.guessCount _ h0 hn, h.clearedBy _ h0 hn]

variable {F : Type*} [Add F] [Mul F] [Div F] [NatCast F] [LT F] [LE F] [DecidableLT F] [DecidableLE F] [ToInt F]
/-- Neither the order of the devices, nor the order of the readings, nor what the arrays held before the poll shows
in the contents that `draw_depths` reads or in the picture it paints, in any arithmetic that scales the screen positions
to columns of the grid. -/
theorem kinectPoll_order_irrelevant (F' : Type*) [Mul F'] [Div F'] [NatCast F'] [ToInt F'] (cfg : Config) (t : Tables F)
    {devices devices' : List (KDevice F × Option Frame)} (hdevices : devices.Perm devices')
    (hfetch : ∀ d ∈ devices, d.2.isSome → 0 ≤ d.1.device ∧ d.1.device < 64)
    {rs : List (Reading F)} (hrs : rs.Perm (pollReadings devices)) (env env' : Env) :
    let polled := kinectPoll cfg.grid t devices env
    let reordered := kinectPoll cfg.grid t devices' env'
    let shuffled := rs.foldl (fun env r => plotReading cfg.grid t (fun m env => env.write cfg.grid m) r env)
      (env'.memset cfg.grid)
    Env.Agree cfg.grid polled reordered ∧ Env.Agree cfg.grid polled shuffled ∧
      (ScalesIntoGrid F' cfg →
        ∀ (cubeColor : ℕ → BitVec 32) (mapRGB : MapRGB) (s : Surface),
          paint F' cfg cubeColor mapRGB polled s = paint F' cfg cubeColor mapRGB reordered s ∧
          paint F' cfg cubeColor mapRGB polled s = paint F' cfg cubeColor mapRGB shuffled s) := by
  have hid : ∀ m ∈ readingsMarks cfg.grid t (pollReadings devices), m.HasId := by
    refine readingsMarks_hasId (fun _ hr => hr) fun d hd hs => ?_
    rw [d.1.id_eq]
    exact deviceId_ne_zero (hfetch d hd hs).1 (hfetch d hd hs).2
  have hpolled : Env.Agree cfg.grid (kinectPoll cfg.grid t devices env) (kinectPoll cfg.grid t devices' env') := by
    rw [kinectPoll_eq, kinectPoll_eq]
    exact Env.writeAll_agree ((hdevices.flatMap_right _).flatMap_right _) hid env env'
  have hshuffled : Env.Agree cfg.grid (kinectPoll cfg.grid t devices env)
      (rs.foldl (fun env r => plotReading cfg.grid t (fun m env => env.write cfg.grid m) r env)
        (env'.memset cfg.grid)) := by
    rw [kinectPoll_eq, foldl_plotReading]
    exact Env.writeAll_agree (hrs.symm.flatMap_right _) hid env env'
  exact ⟨hpolled, hshuffled, fun hgrid cubeColor mapRGB s =>
    ⟨hpolled.paint_eq hgrid cubeColor mapRGB s, hshuffled.paint_eq hgrid cubeColor mapRGB s⟩⟩

theorem wall_order_irrelevant :
    Env.Agree Config.shipped.grid (kinectPoll Config.shipped.grid (kinectTables realLibm) (wallDevices 8) Env.initial)
        (kinectPoll Config.shipped.grid (kinectTables realLibm) (wallDevices 8).reverse
          (Env.initial.write Config.shipped.grid (.known ⟨0, 0, 0⟩ 48))) ∧
      Env.Agree Config.shipped.grid (kinectPoll Config.shipped.grid (kinectTables realLibm) (wallDevices 8) Env.initial)
        ((pollReadings (wallDevices 8)).reverse.foldl
          (fun env r => plotReading Config.shipped.grid (kinectTables realLibm)
            (fun m env => env.write Config.shipped.grid m) r env)
          ((Env.initial.write Config.shipped.grid (.known ⟨0, 0, 0⟩ 48)).memset Config.shipped.grid)) := by
  have hagree := kinectPoll_order_irrelevant ℝ Config.shipped (kinectTables realLibm)
    (List.reverse_perm (wallDevices 8)).symm (wallDevices_fetch 8) (List.reverse_perm (pollReadings (wallDevices 8)))
    Env.initial (Env.initial.write Config.shipped.grid (.known ⟨0, 0, 0⟩ 48))
  exact ⟨hagree.1, hagree.2.1⟩

end CarBoundary

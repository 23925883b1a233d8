import CarBoundary.Program.Lemmas.Main
import CarBoundary.Sync.Lemmas.Progress

/-!
# From the cameras to the program

What a device of the program fetches is what its camera has sent, over a bus that loses packets.
-/

namespace CarBoundary

open Mailbox

/-- Two frames that agree on the sensor. -/
def Frame.Agree (fdepths fdepths' : Frame) : Prop := ∀ i < framePix, fdepths i = fdepths' i

/-- A camera, what comes in of the packets that it sends, and what the threads do with it. The depths are fetched in
the format that `poll_one_device` asks for. -/
structure Feed where
  s0 : Session
  blocks : Blocks
  cam : Footage
  values : ℕ → ℕ → ℕ
  ns : List ℕ
  evs : List Event
  s : Session
  idle : s0.phase = .idle
  packs : ∀ q, cam.Packs .bits11 q (values q)
  countable : Countable ns
  carries : List.Forall₂ ((s0.changeDepthFormat .bits11 blocks).strm.Carries cam) ns (evs.flatMap Event.pkts)
  only : ∀ e ∈ evs, e.isSetup = false
  exec : Machine.exec Session.step (s0.changeDepthFormat .bits11 blocks) evs = some s

namespace Feed

variable (f : Feed)

def start : Session := f.s0.changeDepthFormat .bits11 f.blocks

/-- The pictures that the calls of `freenect_sync_get_depth` get, in their order. -/
def pictures : List Picture := takes (Machine.trace Session.step Session.emit f.start f.evs)

def fetched (n : ℕ) : Option Frame := f.pictures[n]?.map fun pic => load16 pic.bytes

/-- All packets of the frame have come in. -/
def Whole (q : ℕ) : Prop := ∀ r < f.start.strm.pktsPerFrame, q * f.start.strm.pktsPerFrame + r ∈ f.ns

/-- What the camera has seen in a frame. -/
def seen (q : ℕ) : Frame := fun i => UInt16.ofNat (f.values q i)

theorem exists_seen : ∃ frame : ℕ → ℕ, (∀ n n', n < n' → n' < f.pictures.length → frame n < frame n') ∧
    ∀ n < f.pictures.length, f.Whole (frame n) →
      ∃ fdepths, f.fetched n = some fdepths ∧ fdepths.Agree (f.seen (frame n)) := by
  obtain ⟨frames, hsorted, hpics⟩ := Session.exists_frames f.idle rfl f.only f.exec f.packs f.countable f.carries
  have hlength : f.pictures.length = frames.length := hpics.length_eq
  refine ⟨fun n => frames.getD n 0, fun n n' hn hn' => ?_, fun n hn hwhole => ?_⟩
  · dsimp only
    rw [List.getD_eq_getElem _ _ (by omega), List.getD_eq_getElem _ _ (by omega)]
    exact List.pairwise_iff_getElem.mp hsorted n n' (by omega) (by omega) hn
  · have hpic : f.pictures[n].IsOf f.start f.cam f.values f.ns frames[n] := hpics.get hn (hlength ▸ hn)
    dsimp only at hwhole ⊢
    rw [List.getD_eq_getElem _ _ (hlength ▸ hn)] at hwhole ⊢
    refine ⟨load16 f.pictures[n].bytes, by rw [fetched, List.getElem?_eq_getElem hn]; rfl, fun i hi => ?_⟩
    rw [seen, ← hpic.values hwhole i hi]
    exact UInt16.ofNat_toNat.symm

/-- A camera before which nothing moves, of which the first frame has come in and is fetched. -/
theorem exists_steady {values : ℕ → ℕ} (hvalues : ∀ k < framePix, values k < 2 ^ DepthFormat.bits11.width) :
    ∃ f : Feed, f.values = (fun _ => values) ∧ f.pictures.length = 1 ∧ f.Whole 0 ∧
      ∃ fdepths, f.fetched 0 = some fdepths ∧ fdepths.Agree fun i => UInt16.ofNat (values i) := by
  let s0 := Session.allocKinect (fun _ _ => 0) 0 false
  let start := s0.changeDepthFormat .bits11 firstBlocks
  let cam : Footage := ⟨fun _ => pack 11 values, fun q => UInt32.ofNat q⟩
  have hcam (q : ℕ) : cam.Packs .bits11 q values := ⟨hvalues, fun _ _ => rfl⟩
  have hsound : start.Sound := Session.Sound.changeDepthFormat rfl .bits11 firstBlocks
  obtain ⟨evs, s, hevs, hpkts, hexec, pic, htakes, hshows⟩ :=
    hsound.exists_fetched rfl rfl (Session.changeDepthFormat_synced s0 .bits11 firstBlocks) (hcam 0)
  let f : Feed :=
    { s0, blocks := firstBlocks, cam, values := fun _ => values
      ns := List.range' (0 * start.strm.pktsPerFrame) start.strm.pktsPerFrame
      evs, s
      idle := rfl
      packs := hcam
      countable := countable_range' _ _
      carries := hpkts ▸ start.strm.carries_packetsOf cam _
      only := hevs
      exec := hexec }
  have hpics : f.pictures = [pic] := htakes
  refine ⟨f, rfl, by rw [hpics]; rfl, fun r hr => ?_, load16 pic.bytes, by rw [fetched, hpics]; rfl, fun i hi => ?_⟩
  · exact List.mem_range'_1.mpr ⟨Nat.le_add_right _ _, Nat.add_lt_add_left hr _⟩
  · dsimp only
    rw [← hshows.2 i hi]
    exact UInt16.ofNat_toNat.symm

end Feed

/-! ## What the picture of a round depends on -/

section

variable {F : Type*}

theorem deviceReadings_congr {dev : KDevice F} {frame frame' : Option Frame} (h : Option.Rel Frame.Agree frame frame') :
    deviceReadings dev frame = deviceReadings dev frame' := by
  cases h with
  | none => rfl
  | some h =>
      refine List.flatMap_congr fun j hj => List.map_congr_left fun i hi => ?_
      rw [List.mem_reverse, List.mem_range, sensorHeight] at hj
      rw [List.mem_range, sensorWidth] at hi
      rw [h]
      rw [framePix, sensorWidth]
      omega

end

variable {F : Type*} [Add F] [Mul F] [Div F] [NatCast F] [LT F] [LE F] [DecidableLT F] [DecidableLE F] [ToInt F]
variable {G : Globals F}

/-- The picture depends on the devices that fetch a frame, and on what their frames have on the sensor. -/
theorem Globals.picture_congr {fetched seen : ℕ → Option Frame} (render : Surface)
    (h : ∀ k < G.devices.length, Option.Rel Frame.Agree (fetched k) (seen k)) :
    G.picture fetched render = G.picture seen render := by
  have hreadings : pollReadings (G.fetches fetched) = pollReadings (G.fetches seen) := by
    refine congrArg List.flatten (List.ext_getElem (by simp [fetches]) fun k hk _ => ?_)
    have hrel := h k (by simpa [fetches] using hk)
    simp only [fetches, List.getElem_map, List.getElem_mapIdx, syncGetDepth]
    split
    · rfl
    · exact deviceReadings_congr hrel
  rw [picture, picture, kinectPoll_eq, kinectPoll_eq, hreadings]

end CarBoundary

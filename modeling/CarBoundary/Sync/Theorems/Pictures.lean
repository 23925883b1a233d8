import CarBoundary.Sync.Lemmas.Progress

/-!
# From the camera to the clients

The camera packs the depths of a frame, the bus delivers the packets or loses them, the driver puts them together and
unpacks them, and the ring hands them over.
-/

namespace CarBoundary

open Mailbox

variable {s0 s s' : Session} {fmt : DepthFormat} {blocks : Blocks} {evs : List Event} {cam : Footage}

/-- However the threads take their turns and whatever packets are lost, as long as fewer than 256 are lost in a row and
the format is one that is unpacked and stays the same: the pictures that the clients get are frames of the camera, in
the camera's order and none twice, each with its timestamp. A picture of a frame none of whose packets was lost shows
what the camera saw, value by value. -/
theorem clients_see_what_the_camera_saw (hidle : s0.phase = .idle) (hunp : fmt.unpacked = true)
    (hevs : ∀ e ∈ evs, e.isSetup = false)
    (hexec : Machine.exec Session.step (s0.changeDepthFormat fmt blocks) evs = some s) {ns : List ℕ}
    {values : ℕ → ℕ → ℕ} (hcam : ∀ q, cam.Packs fmt q (values q)) (hns : Countable ns)
    (hc : List.Forall₂ ((s0.changeDepthFormat fmt blocks).strm.Carries cam) ns (evs.flatMap Event.pkts)) :
    let start := s0.changeDepthFormat fmt blocks
    ∃ frames : List ℕ, frames.Pairwise (· < ·) ∧
      List.Forall₂ (fun pic frame => pic.timestamp = cam.stamp frame ∧
        ((∀ r < start.strm.pktsPerFrame, frame * start.strm.pktsPerFrame + r ∈ ns) →
          ∀ k < framePix, (load16 pic.bytes k).toNat = values frame k))
        (takes (Machine.trace Session.step Session.emit start evs)) frames := by
  intro start
  obtain ⟨frames, hsorted, hpics⟩ := Session.exists_frames hidle hunp hevs hexec hcam hns hc
  exact ⟨frames, hsorted, hpics.imp fun pic frame h => ⟨h.timestamp, h.values⟩⟩

theorem clients_see_what_the_camera_saw_first :
    let start := (Session.allocKinect (fun _ _ => 0) 0 false).changeDepthFormat .bits11 firstBlocks
    let cam : Footage := ⟨fun q => pack 11 fun k => (k + q) % 2048, fun q => UInt32.ofNat q⟩
    let ns := List.range' (0 * start.strm.pktsPerFrame) start.strm.pktsPerFrame
    ∃ evs s, Machine.exec Session.step start evs = some s ∧
      takes (Machine.trace Session.step Session.emit start evs) ≠ [] ∧
      ∃ frames : List ℕ, frames.Pairwise (· < ·) ∧
        List.Forall₂ (fun pic frame => pic.timestamp = cam.stamp frame ∧
          ((∀ r < start.strm.pktsPerFrame, frame * start.strm.pktsPerFrame + r ∈ ns) →
            ∀ k < framePix, (load16 pic.bytes k).toNat = (k + frame) % 2048))
          (takes (Machine.trace Session.step Session.emit start evs)) frames := by
  intro start cam ns
  have hsound : start.Sound := Session.Sound.changeDepthFormat rfl .bits11 firstBlocks
  have hcam : ∀ q, cam.Packs .bits11 q fun k => (k + q) % 2048 := fun q =>
    ⟨fun k _ => Nat.mod_lt _ (by decide), fun _ _ => rfl⟩
  obtain ⟨evs, s, hevs, hpkts, hexec, pic, htakes, _⟩ := hsound.exists_fetched rfl rfl rfl (hcam 0)
  refine ⟨evs, s, hexec, ?_, clients_see_what_the_camera_saw rfl rfl hevs hexec hcam (countable_range' _ _)
    (hpkts ▸ start.strm.carries_packetsOf cam ns)⟩
  rw [htakes]
  exact List.cons_ne_nil _ _

/-- Whatever happened before: once two whole frames have come in, in a format that is unpacked and that no client has
changed meanwhile, the newest picture shows the second of them. It is ready, or it is the last picture that a client has
fetched. -/
theorem whole_frames_come_out (hidle0 : s0.phase = .idle)
    (hexec0 : Machine.exec Session.step (s0.changeDepthFormat fmt blocks) evs = some s) (hidle : s.phase = .idle)
    (hunp : s.format.unpacked = true) {q : ℕ} {values : ℕ → ℕ} (hcam : cam.Packs s.format (q + 1) values)
    {pkts pkts' : List (List UInt8)}
    (hc : List.Forall₂ (s.strm.Carries cam) (List.range' (q * s.strm.pktsPerFrame) s.strm.pktsPerFrame) pkts)
    (hc' : List.Forall₂ (s.strm.Carries cam) (List.range' ((q + 1) * s.strm.pktsPerFrame) s.strm.pktsPerFrame) pkts')
    {evs' : List Event} (hevs : ∀ e ∈ evs', e.isSetup = false) (hpkts : evs'.flatMap Event.pkts = pkts ++ pkts')
    (hexec : Machine.exec Session.step s evs' = some s') (hidle' : s'.phase = .idle) :
    ∃ pic, (posts (Machine.trace Session.step Session.emit s evs')).getLast? = some pic ∧
      pic.Shows (cam.stamp (q + 1)) values ∧
      (s'.ready = some pic ∨
        s'.ready = none ∧ (takes (Machine.trace Session.step Session.emit s evs')).getLast? = some pic) := by
  have hsound : s.Sound := (Session.Sound.changeDepthFormat hidle0 fmt blocks).exec hexec0
  have hpics := hsound.pictures hunp hidle hevs hexec hidle'
  -- the stream after the first frame, whatever it was before
  have hstarted : (⟨s.strm, s.mem s.strm.rawBuf⟩ : Assembly).strm.Started := hsound.started
  obtain ⟨rx, hrx, htracks⟩ := frame_settles hstarted hc
  have hset := PacketStream.setup_streamRun ⟨s.strm, s.mem s.strm.rawBuf⟩ pkts
  have hnum : (streamRun ⟨s.strm, s.mem s.strm.rawBuf⟩ pkts).strm.pktsPerFrame = s.strm.pktsPerFrame :=
    (congrArg PacketStream.pktsPerFrame hset :)
  have hsize : (streamRun ⟨s.strm, s.mem s.strm.rawBuf⟩ pkts).strm.frameSize = s.strm.frameSize :=
    (congrArg PacketStream.frameSize hset :)
  have hcarried : List.Forall₂ ((streamRun ⟨s.strm, s.mem s.strm.rawBuf⟩ pkts).strm.Carries cam)
      (List.range' ((q + 1) * s.strm.pktsPerFrame) s.strm.pktsPerFrame) pkts' := hc'.imp fun _ _ h => h.of_setup hset
  obtain ⟨hframes, hstamp, _, hbytes⟩ :=
    htracks.whole_frame (hstarted.of_setup hset) (hnum.symm ▸ hrx) (hnum.symm ▸ hcarried)
  rw [hpkts, streamFrames_append, hframes] at hpics
  obtain ⟨pic, hlast, hconv⟩ := Matching.getLast? hpics
  refine ⟨pic, hlast, ⟨hconv.1.trans hstamp, fun k hk => ?_⟩, ?_⟩
  · refine hconv.shows hunp hcam (fun a ha => hbytes a ?_) hk
    rw [hsize, hsound.frameSize]
    exact ha
  · refine (hsound.ready_exec hexec).waits (Session.ne_clear_of_not_setup hevs s) ?_
    rw [List.getLast?_append, hlast, Option.some_or]

theorem whole_frames_come_out_first :
    let start := (Session.allocKinect (fun _ _ => 0) 0 false).changeDepthFormat .bits11 firstBlocks
    let cam : Footage := ⟨fun q => pack 11 fun k => (k + q) % 2048, fun q => UInt32.ofNat q⟩
    ∃ evs' s', Machine.exec Session.step start evs' = some s' ∧
      evs'.flatMap Event.pkts = start.strm.packetsOf cam (List.range' (0 * 242) 242) ++
        start.strm.packetsOf cam (List.range' (1 * 242) 242) ∧
      ∃ pic, (posts (Machine.trace Session.step Session.emit start evs')).getLast? = some pic ∧
        pic.Shows 1 (fun k => (k + 1) % 2048) ∧
          (s'.ready = some pic ∨
            s'.ready = none ∧ (takes (Machine.trace Session.step Session.emit start evs')).getLast? = some pic) := by
  intro start cam
  have hsound : start.Sound := Session.Sound.changeDepthFormat rfl .bits11 firstBlocks
  let pkts (q : ℕ) := start.strm.packetsOf cam (List.range' (q * start.strm.pktsPerFrame) start.strm.pktsPerFrame)
  obtain ⟨evs, s, hdriver, hpkts, hexec, hidle⟩ := hsound.exec_pkts rfl (pkts 0 ++ pkts 1)
  have hcam : cam.Packs .bits11 (0 + 1) fun k => (k + 1) % 2048 :=
    ⟨fun k _ => Nat.mod_lt _ (by decide), fun _ _ => rfl⟩
  have hevs : ∀ e ∈ evs, e.isSetup = false := fun e he => Event.isSetup_of_driver (hdriver e he)
  exact ⟨evs, s, hexec, hpkts, whole_frames_come_out rfl (Machine.exec_nil _) rfl rfl hcam
    (start.strm.carries_packetsOf cam _) (start.strm.carries_packetsOf cam _) hevs hpkts hexec hidle⟩

end CarBoundary

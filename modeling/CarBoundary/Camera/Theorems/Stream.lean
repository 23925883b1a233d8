import CarBoundary.Camera.Lemmas.Footage
import CarBoundary.Camera.Lemmas.Tracking

/-!
# What `stream_process` makes of the packets

The packets may hold any bytes: nothing is written outside the frame. On the packets that a camera sends, of
which the bus may lose some, frames are reported in their order and with the right numbers, no byte is ever put
to a wrong place, and after any disturbance the stream recovers within a frame.
-/

namespace CarBoundary

open PacketStream

variable {asm : Assembly} {cam : Footage} {ns : List ℕ} {pkts : List (List UInt8)}

/-! ## Any packets -/

theorem inFrame_streamRun (hs : asm.strm.Sized) (h : asm.strm.InFrame) (pkts : List (List UInt8)) :
    (streamRun asm pkts).strm.InFrame ∧ ∀ a ≥ asm.strm.frameSize, (streamRun asm pkts).raw a = asm.raw a := by
  induction pkts generalizing asm with
  | nil => exact ⟨h, fun _ _ => rfl⟩
  | cons pkt pkts ih =>
      have hsafe := Safe.streamProcess hs h pkt
      have hset := setup_streamProcess asm pkt
      have hsize : (streamProcess asm pkt).1.strm.frameSize = asm.strm.frameSize := (congrArg frameSize hset :)
      obtain ⟨hframe, hbeyond⟩ := ih (hs.of_setup hset) hsafe.inFrame
      rw [hsize] at hbeyond
      exact ⟨hframe, fun a ha => (hbeyond a ha).trans (hsafe.beyond a ha)⟩

/-- Whatever the bytes of the packets are, `stream_process` writes within the frame, never counts past its end,
and returns nothing but a frame size. -/
theorem stream_stays_in_frame (hs : asm.strm.Sized) (h : asm.strm.synced = false) (pkts : List (List UInt8))
    (pkt : List UInt8) :
    let out := streamProcess (streamRun asm pkts) pkt
    (∀ a ≥ asm.strm.frameSize, out.1.raw a = asm.raw a) ∧
      (out.1.strm.synced = true →
        out.1.strm.gotPkts ≤ out.1.strm.pktNum ∧ out.1.strm.pktNum ≤ asm.strm.pktsPerFrame) ∧
      out.2 ≤ asm.strm.frameSize ∧
      (asm.strm.variableLength = false → asm.strm.FlagsApart → out.2 = 0 ∨ out.2 = asm.strm.frameSize) ∧
      (out.2 ≠ 0 → out.1.strm.validPkts ≤ asm.strm.pktsPerFrame) := by
  intro out
  have hstart : asm.strm.InFrame := fun hsync => by rw [h] at hsync; cases hsync
  obtain ⟨hframe, hbeyond⟩ := inFrame_streamRun hs hstart pkts
  have hset := setup_streamRun asm pkts
  have hsize : (streamRun asm pkts).strm.frameSize = asm.strm.frameSize := (congrArg frameSize hset :)
  have hnum : (streamRun asm pkts).strm.pktsPerFrame = asm.strm.pktsPerFrame := (congrArg pktsPerFrame hset :)
  have hvar : (streamRun asm pkts).strm.variableLength = asm.strm.variableLength :=
    (congrArg variableLength hset :)
  obtain ⟨h1, h2, h3, h4, h5⟩ := Safe.streamProcess (hs.of_setup hset) hframe pkt
  have hnum' : out.1.strm.pktsPerFrame = asm.strm.pktsPerFrame :=
    (congrArg pktsPerFrame ((setup_streamProcess _ pkt).trans hset) :)
  rw [hsize] at h2 h3 h4
  rw [hvar] at h4
  rw [hnum] at h5
  refine ⟨fun a ha => (h2 a ha).trans (hbeyond a ha), fun hsync => ?_, h3, ?_, h5⟩
  · have := h1 hsync
    exact ⟨this.1, hnum' ▸ this.2⟩
  · exact fun hfix hflags => h4 hfix (hflags.of_setup hset)

theorem stream_stays_in_frame_depth :
    let asm : Assembly := ⟨(zero.startDepth 1 2 .bits11).1, fun _ => 0⟩
    let pkt : List UInt8 := [0x52, 0x42, 0, 0x71, 0, 7, 0, 0, 1, 2, 3, 4] ++ List.replicate 1748 255
    let out := streamProcess (streamRun asm [pkt, pkt, []]) pkt
    (∀ a ≥ asm.strm.frameSize, out.1.raw a = asm.raw a) ∧
      (out.1.strm.synced = true →
        out.1.strm.gotPkts ≤ out.1.strm.pktNum ∧ out.1.strm.pktNum ≤ asm.strm.pktsPerFrame) ∧
      out.2 ≤ asm.strm.frameSize ∧
      (asm.strm.variableLength = false → asm.strm.FlagsApart → out.2 = 0 ∨ out.2 = asm.strm.frameSize) ∧
      (out.2 ≠ 0 → out.1.strm.validPkts ≤ asm.strm.pktsPerFrame) := by
  intro asm pkt
  exact stream_stays_in_frame (startDepth_started rfl 1 2 .bits11).sized rfl _ pkt

/-! ## Lost packets -/

/-- Whatever packets are lost, as long as fewer than 256 are lost in a row: frames are reported in their order,
none twice, each with its timestamp and with the number of its packets that came in. A frame none of whose packets
was lost is in the buffer, byte by byte, when it is reported. -/
theorem frames_reported_in_order (hs : asm.strm.Started) (h : asm.strm.synced = false)
    (hc : List.Forall₂ (asm.strm.Carries cam) ns pkts) (hns : Countable ns) :
    ∃ frames : List ℕ, frames.Pairwise (· < ·) ∧
      List.Forall₂ (fun out frame => out.strm.timestamp = cam.stamp frame ∧
        (out.strm.validPkts = ns.countP fun n => n / asm.strm.pktsPerFrame == frame) ∧
        ((∀ r < asm.strm.pktsPerFrame, frame * asm.strm.pktsPerFrame + r ∈ ns) →
          ∀ a < asm.strm.frameSize, out.raw a = cam.bytes frame a)) (streamFrames asm pkts) frames := by
  obtain ⟨frames, hsorted, hframes⟩ := delivered hs h hc hns
  exact ⟨frames, hsorted, hframes.imp fun out frame h => ⟨h.timestamp, h.validPkts, h.bytes⟩⟩

theorem frames_reported_in_order_depth :
    let asm : Assembly := ⟨(zero.startDepth 1 2 .bits11).1, fun _ => 0⟩
    let cam : Footage := ⟨fun q a => UInt8.ofNat (q + a), fun q => UInt32.ofNat q⟩
    let ns := List.range' 0 242 ++ [245, 470]
    ∃ frames : List ℕ, frames.Pairwise (· < ·) ∧
      List.Forall₂ (fun out frame => out.strm.timestamp = cam.stamp frame ∧
        (out.strm.validPkts = ns.countP fun n => n / asm.strm.pktsPerFrame == frame) ∧
        ((∀ r < asm.strm.pktsPerFrame, frame * asm.strm.pktsPerFrame + r ∈ ns) →
          ∀ a < asm.strm.frameSize, out.raw a = cam.bytes frame a))
        (streamFrames asm (asm.strm.packetsOf cam ns)) frames := by
  intro asm cam ns
  have hns : Countable ns := List.isChain_append.mpr ⟨countable_range' 0 242, by simp, by simp [List.getLast?_range']⟩
  exact frames_reported_in_order (startDepth_started rfl 1 2 .bits11) rfl (asm.strm.carries_packetsOf cam ns) hns

/-- However many packets are lost, no byte of a frame ever stands in a wrong place: each byte of the buffer is the
one that a frame of the camera has there, as long as fewer than 256 packets are lost in a row. -/
theorem bytes_stay_in_place (hs : asm.strm.Started) (h : asm.strm.synced = false)
    (hc : List.Forall₂ (asm.strm.Carries cam) ns pkts) (hns : Countable ns) {a : ℕ} (ha : a < asm.strm.frameSize) :
    (streamRun asm pkts).raw a = asm.raw a ∨
      ∃ n ∈ ns, n % asm.strm.pktsPerFrame = a / asm.strm.pktSize ∧
        (streamRun asm pkts).raw a = cam.bytes (n / asm.strm.pktsPerFrame) a := by
  obtain ⟨htracks, _⟩ := (Tracks.lost cam h).run hs hc hns fun _ _ hm => nomatch hm
  have hbyte := htracks.byte hs.sized ha
  cases hheld : (Receiver.run asm.strm.pktsPerFrame 5 Receiver.State.lost ns).held (a / asm.strm.pktSize) with
  | none => rw [hheld] at hbyte; exact Or.inl hbyte
  | some n =>
      rw [hheld] at hbyte
      rcases Receiver.held_run hheld with hlost | ⟨hmem, hplace⟩
      · cases hlost
      · exact Or.inr ⟨n, hmem, hplace, hbyte⟩

theorem bytes_stay_in_place_depth :
    let asm : Assembly := ⟨(zero.startDepth 1 2 .bits11).1, fun _ => 0⟩
    let cam : Footage := ⟨fun q a => UInt8.ofNat (q + a), fun q => UInt32.ofNat q⟩
    (streamRun asm (asm.strm.packetsOf cam [0, 1, 4, 200, 440])).raw 1748 = asm.raw 1748 ∨
      ∃ n ∈ [0, 1, 4, 200, 440], n % asm.strm.pktsPerFrame = 1748 / asm.strm.pktSize ∧
        (streamRun asm (asm.strm.packetsOf cam [0, 1, 4, 200, 440])).raw 1748 =
          cam.bytes (n / asm.strm.pktsPerFrame) 1748 := by
  intro asm cam
  exact bytes_stay_in_place (startDepth_started rfl 1 2 .bits11) rfl (asm.strm.carries_packetsOf cam _)
    (by simp [Countable]) (by decide)

theorem Shown.timestamps {outs : List Assembly} {reps : List Receiver.Report} (h : List.Forall₂ (Shown cam) outs reps) :
    outs.map (fun out => out.strm.timestamp) = (reps.map Receiver.Report.frame).map cam.stamp := by
  induction h with
  | nil => rfl
  | cons hout _ ih => rw [List.map_cons, List.map_cons, List.map_cons, ih, hout.1]

/-- A frame is reported whenever one of its ends has come by, if no more than five packets are lost in a row: from the
first packet on that begins a frame, no frame is left out. The stream stays in step with the camera, and each byte
of the buffer is from the newest packet that has brought it. -/
theorem no_frame_is_missed (hs : asm.strm.Started) (h : asm.strm.synced = false) {before rest : List ℕ} {n0 : ℕ}
    {pkts0 : List (List UInt8)} (hc0 : List.Forall₂ (asm.strm.Carries cam) before pkts0)
    (hbefore : ∀ n ∈ before, n % asm.strm.pktsPerFrame ≠ 0) (h0 : n0 % asm.strm.pktsPerFrame = 0)
    (hc : List.Forall₂ (asm.strm.Carries cam) (n0 :: rest) pkts) (hns : (n0 :: rest).IsChain (Receiver.Near 5)) :
    let last := (n0 :: rest).getLast (List.cons_ne_nil _ _)
    let after := streamRun asm (pkts0 ++ pkts)
    let first := n0 / asm.strm.pktsPerFrame
    (streamFrames asm (pkts0 ++ pkts)).map (fun out => out.strm.timestamp) =
        (List.range' first ((last + 1) / asm.strm.pktsPerFrame - first)).map cam.stamp ∧
      (after.strm.synced = true ∧ after.strm.pktNum = (last + 1) % asm.strm.pktsPerFrame) ∧
      ∀ a < asm.strm.frameSize, ∀ n,
        Receiver.newest asm.strm.pktsPerFrame (n0 :: rest) (a / asm.strm.pktSize) = some n →
        after.raw a = cam.bytes (n / asm.strm.pktsPerFrame) a := by
  intro last after first
  have hlong := hs.long
  obtain ⟨hwait, hnone⟩ := streamRun_waiting hs h hc0 hbefore
  have hcount : Countable (n0 :: rest) := hns.imp fun _ _ h => ⟨h.1, by have := h.2; omega⟩
  obtain ⟨htracks, hframes⟩ := (Tracks.lost cam h).run hs hc hcount fun _ _ hm => nomatch hm
  obtain ⟨hnext, hreports, hheld⟩ := Receiver.run_lost_near (by omega) hlong h0 hns
  have hafter : after = streamRun asm pkts := by
    rw [show after = streamRun (streamRun asm pkts0) pkts from streamRun_append asm pkts0 pkts, hwait]
  have hnum : (streamRun asm pkts).strm.pktsPerFrame = asm.strm.pktsPerFrame :=
    (congrArg pktsPerFrame (setup_streamRun asm pkts) :)
  refine ⟨?_, ⟨?_, ?_⟩, ?_⟩
  · rw [streamFrames_append, hnone, hwait, List.nil_append, Shown.timestamps hframes, hreports]
  · rw [hafter, htracks.synced, hnext]; rfl
  · rw [hafter, htracks.pktNum _ hnext, hnum]
  · intro a ha n hn
    rw [hafter, htracks.byte hs.sized ha, hheld, hn]
    rfl

theorem no_frame_is_missed_depth :
    let asm : Assembly := ⟨(zero.startDepth 1 2 .bits11).1, fun _ => 0⟩
    let cam : Footage := ⟨fun q a => UInt8.ofNat (q + a), fun q => UInt32.ofNat q⟩
    let rest := List.range' 243 239 ++ [487]
    let last := (242 :: rest).getLast (List.cons_ne_nil _ _)
    let after := streamRun asm (asm.strm.packetsOf cam [100, 241] ++ asm.strm.packetsOf cam (242 :: rest))
    let first := 242 / asm.strm.pktsPerFrame
    (streamFrames asm (asm.strm.packetsOf cam [100, 241] ++ asm.strm.packetsOf cam (242 :: rest))).map
        (fun out => out.strm.timestamp) =
        (List.range' first ((last + 1) / asm.strm.pktsPerFrame - first)).map cam.stamp ∧
      (after.strm.synced = true ∧ after.strm.pktNum = (last + 1) % asm.strm.pktsPerFrame) ∧
      ∀ a < asm.strm.frameSize, ∀ n,
        Receiver.newest asm.strm.pktsPerFrame (242 :: rest) (a / asm.strm.pktSize) = some n →
        after.raw a = cam.bytes (n / asm.strm.pktsPerFrame) a := by
  intro asm cam rest
  have hns : (242 :: rest).IsChain (Receiver.Near 5) := by
    refine List.isChain_append.mpr ⟨(List.isChain_range' 242 240 1).imp fun m n h => ?_, by simp, ?_⟩
    · exact ⟨by omega, by omega⟩
    · simp [List.getLast?_range', Receiver.Near]
  exact no_frame_is_missed (startDepth_started rfl 1 2 .bits11) rfl (asm.strm.carries_packetsOf cam _) (by decide)
    (by decide) (asm.strm.carries_packetsOf cam _) hns

end CarBoundary

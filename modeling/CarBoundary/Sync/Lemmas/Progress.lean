import CarBoundary.Camera.Lemmas.Footage
import CarBoundary.Camera.Lemmas.Recovery
import CarBoundary.Camera.Lemmas.Unpack
import CarBoundary.Lib.Matching
import CarBoundary.Sync.Lemmas.Linked

/-!
# The run loop gets through

Nothing that the clients do can hold up the run loop in `depth_process`: a conversion comes to its end, and the
assertion of `producer_cb_inner` holds. A whole frame of the camera therefore comes out of the ring.
-/

namespace CarBoundary

namespace Session

/-- A conversion that has begun ends with the callback. -/
theorem exec_pixels (n : ℕ) (s : Session) {vw : ℕ} {u : Unpacker} {done : ℕ} (hphase : s.phase = .converting vw u done)
    (hn : done + n = framePix) (hpos : 0 < n) :
    ∃ s', Machine.exec Session.step s (List.replicate n .pixel) = some s' ∧ s'.phase = .calling := by
  induction n generalizing s u done with
  | zero => exact absurd hpos (Nat.lt_irrefl 0)
  | succ n ih =>
      have hstep : s.step .pixel = some (s.pixel vw u done) := by simp only [step, hphase]
      rw [List.replicate_succ]
      by_cases hlast : n = 0
      · subst hlast
        refine ⟨_, Machine.exec_cons_eq_some.mpr ⟨_, hstep, rfl⟩, ?_⟩
        have hlt : ¬ done + 1 < framePix := by omega
        simp only [Session.pixel, if_neg hlt]
      · have hlt : done + 1 < framePix := by omega
        have hnext : (s.pixel vw u done).phase = .converting vw (u.next (s.mem s.strm.rawBuf) vw) (done + 1) := by
          simp only [Session.pixel, if_pos hlt]
        obtain ⟨s', hexec, hcalling⟩ := ih _ hnext (by omega) (by omega)
        exact ⟨s', Machine.exec_cons_eq_some.mpr ⟨_, hstep, hexec⟩, hcalling⟩

theorem Sound.step_callback {s : Session} (h : s.Sound) (hphase : s.phase = .calling) :
    s.step .callback = some s.called := by
  simp only [Session.step, hphase, producerCbInner, h.procBuf, ne_eq, not_true, if_false, Option.map_some]
  rfl

/-- Packets that do not complete a frame go straight to the stream. -/
theorem exec_packets {s : Session} (hs : s.Sound) (hidle : s.phase = .idle) {pkts : List (List UInt8)}
    (hframes : streamFrames ⟨s.strm, s.mem s.strm.rawBuf⟩ pkts = []) :
    ∃ s', Machine.exec Session.step s (pkts.map .packet) = some s' ∧ s'.strm.rawBuf = s.strm.rawBuf ∧
      (⟨s'.strm, s'.mem s'.strm.rawBuf⟩ : Assembly) = streamRun ⟨s.strm, s.mem s.strm.rawBuf⟩ pkts := by
  induction pkts generalizing s with
  | nil => exact ⟨s, rfl, rfl, rfl⟩
  | cons pkt pkts ih =>
      have hcases := packet_cases hs.started pkt
      have hset := PacketStream.setup_streamProcess ⟨s.strm, s.mem s.strm.rawBuf⟩ pkt
      have hraw : (streamProcess ⟨s.strm, s.mem s.strm.rawBuf⟩ pkt).1.strm.rawBuf = s.strm.rawBuf :=
        (congrArg PacketStream.rawBuf hset :)
      have hstep : s.step (.packet pkt) = some (s.packet pkt) := by simp only [Session.step, hidle]
      simp only [streamFrames] at hframes
      by_cases hsize : (streamProcess ⟨s.strm, s.mem s.strm.rawBuf⟩ pkt).2 = 0
      · rw [if_pos hsize] at hframes
        simp only [hsize, if_true] at hcases
        have hphase : (s.packet pkt).phase = .idle := by rw [hcases]; exact hidle
        have hraw' : (s.packet pkt).strm.rawBuf = s.strm.rawBuf := by rw [hcases]; exact hraw
        have hasm : (⟨(s.packet pkt).strm, (s.packet pkt).mem (s.packet pkt).strm.rawBuf⟩ : Assembly) =
            (streamProcess ⟨s.strm, s.mem s.strm.rawBuf⟩ pkt).1 := by
          rw [hcases]
          simp only [hraw, Function.update_self]
        obtain ⟨s', hexec, hbuf, hrun⟩ := ih (hs.packet hidle pkt) hphase (by rw [hasm]; exact hframes)
        refine ⟨s', Machine.exec_cons_eq_some.mpr ⟨_, hstep, hexec⟩, hbuf.trans hraw', ?_⟩
        rw [hrun, hasm]
        rfl
      · rw [if_neg hsize] at hframes
        cases hframes

theorem Sound.settle {s : Session} (h : s.Sound) :
    ∃ evs s', (∀ e ∈ evs, e = .pixel ∨ e = .callback) ∧ evs.length ≤ framePix + 1 ∧
      Machine.exec Session.step s evs = some s' ∧ s'.phase = .idle := by
  cases hphase : s.phase with
  | idle => exact ⟨[], s, fun e he => absurd he List.not_mem_nil, Nat.zero_le _, rfl, hphase⟩
  | calling =>
      refine ⟨[.callback], s.called, fun e he => Or.inr (List.mem_singleton.mp he), ?_, ?_, rfl⟩
      · exact Nat.succ_le_succ (Nat.zero_le _)
      · exact Machine.exec_cons_eq_some.mpr ⟨_, h.step_callback hphase, rfl⟩
  | converting vw u done =>
      have hdone := (h.converting vw u done hphase).2.2
      obtain ⟨s', hexec, hcalling⟩ := exec_pixels (framePix - done) s hphase (by omega) (by omega)
      refine ⟨List.replicate (framePix - done) .pixel ++ [.callback], s'.called, fun e he => ?_, ?_, ?_, rfl⟩
      · rcases List.mem_append.mp he with he | he
        · exact Or.inl (List.eq_of_mem_replicate he)
        · exact Or.inr (List.mem_singleton.mp he)
      · rw [List.length_append, List.length_replicate, List.length_singleton]
        omega
      · rw [Machine.exec_append_eq_some]
        exact ⟨s', hexec, Machine.exec_cons_eq_some.mpr ⟨_, (h.exec hexec).step_callback hcalling, rfl⟩⟩

/-- The run loop takes any packets that come in. -/
theorem Sound.exec_pkts {s : Session} (h : s.Sound) (hidle : s.phase = .idle) (pkts : List (List UInt8)) :
    ∃ evs s', (∀ e ∈ evs, e.ofDriver = true) ∧ evs.flatMap Event.pkts = pkts ∧
      Machine.exec Session.step s evs = some s' ∧ s'.phase = .idle := by
  induction pkts generalizing s with
  | nil => exact ⟨[], s, fun e he => absurd he List.not_mem_nil, rfl, rfl, hidle⟩
  | cons pkt pkts ih =>
      have hstep : s.step (.packet pkt) = some (s.packet pkt) := by simp only [Session.step, hidle]
      have hsound := h.packet hidle pkt
      obtain ⟨evs, t, hevs, _, hexec, hidle'⟩ := hsound.settle
      obtain ⟨evs', s', hdriver, hpkts, hexec', hidle''⟩ := ih (hsound.exec hexec) hidle'
      have hnone : evs.flatMap Event.pkts = [] := by
        refine List.flatMap_eq_nil_iff.mpr fun e he => ?_
        rcases hevs e he with rfl | rfl
        · rfl
        · rfl
      refine ⟨.packet pkt :: (evs ++ evs'), s', fun e he => ?_, ?_, ?_, hidle''⟩
      · rcases List.mem_cons.mp he with rfl | he
        · rfl
        · rcases List.mem_append.mp he with he | he
          · rcases hevs e he with rfl | rfl
            · rfl
            · rfl
          · exact hdriver e he
      · rw [List.flatMap_cons, List.flatMap_append, hnone, hpkts]
        rfl
      · rw [Machine.exec_cons_eq_some]
        exact ⟨_, hstep, Machine.exec_append_eq_some.mpr ⟨t, hexec, hexec'⟩⟩

end Session

/-! ## Pictures of a camera -/

/-- The picture shows the values, and carries the timestamp. -/
def Picture.Shows (pic : Picture) (stamp : UInt32) (values : ℕ → ℕ) : Prop :=
  pic.timestamp = stamp ∧ ∀ k < framePix, (load16 pic.bytes k).toNat = values k

/-- The camera packs the values of a frame, which have the width of the format. -/
def Footage.Packs (cam : Footage) (fmt : DepthFormat) (q : ℕ) (values : ℕ → ℕ) : Prop :=
  (∀ k < framePix, values k < 2 ^ fmt.width) ∧ ∀ i < fmt.frameBytes, cam.bytes q i = pack fmt.width values i

/-- The conversion of a frame of the camera shows the values that the camera packed. -/
theorem Converted.shows {fmt : DepthFormat} (hunp : fmt.unpacked = true) {pic : Picture} {asm : Assembly}
    (h : Converted fmt.width pic asm) {cam : Footage} {q : ℕ} {values : ℕ → ℕ} (hvalues : cam.Packs fmt q values)
    (hbytes : ∀ a < fmt.frameBytes, asm.raw a = cam.bytes q a) {k : ℕ} (hk : k < framePix) :
    (load16 pic.bytes k).toNat = values k := by
  obtain ⟨_, dst, hdst⟩ := h
  have hwidth : fmt.width ≤ 16 := by cases fmt <;> decide
  have hraw : ∀ i < (framePix * fmt.width + 7) / 8, asm.raw i = pack fmt.width values i := by
    intro i hi
    rw [← DepthFormat.frameBytes_eq hunp] at hi
    rw [hbytes i hi, hvalues.2 i hi]
  rw [hdst, load16_convertPackedTo16bit _ _ hwidth hk, regroup_pack hraw hk (hvalues.1 k hk)]

variable {s s' : Session} {evs : List Event}

open Mailbox in
/-- When the run loop has come to rest, the pictures are the conversions of the frames of the stream. -/
theorem Session.Sound.pictures (hs : s.Sound) (hunp : s.format.unpacked = true) (hidle : s.phase = .idle)
    (hevs : ∀ e ∈ evs, e.isSetup = false) (hexec : Machine.exec Session.step s evs = some s')
    (hidle' : s'.phase = .idle) :
    List.Forall₂ (Converted s.format.width) (posts (Machine.trace Session.step Session.emit s evs))
      (streamFrames ⟨s.strm, s.mem s.strm.rawBuf⟩ (evs.flatMap Event.pkts)) := by
  obtain ⟨frames, hconv, hframes⟩ := ((Linked.start hs hunp hidle).exec hs hevs hexec).frames
  have hnone (asm : Assembly) : s'.pending asm = [] := by rw [Session.pending, hidle']
  rw [hnone, List.append_nil] at hframes
  rw [List.nil_append] at hconv hframes
  rw [hframes]
  exact hconv

/-- The picture is one of the frame: with its timestamp, and if no packet of it was lost with its values. -/
structure Picture.IsOf (pic : Picture) (start : Session) (cam : Footage) (values : ℕ → ℕ → ℕ) (ns : List ℕ)
    (frame : ℕ) :
    Prop where
  timestamp : pic.timestamp = cam.stamp frame
  values : (∀ r < start.strm.pktsPerFrame, frame * start.strm.pktsPerFrame + r ∈ ns) →
    ∀ k < framePix, (load16 pic.bytes k).toNat = values frame k

open Mailbox in
/-- The pictures that are taken are of frames of the camera, in the camera's order. -/
theorem Session.exists_frames {s0 : Session} {fmt : DepthFormat} {blocks : Blocks} {cam : Footage}
    (hidle : s0.phase = .idle) (hunp : fmt.unpacked = true) (hevs : ∀ e ∈ evs, e.isSetup = false)
    (hexec : Machine.exec Session.step (s0.changeDepthFormat fmt blocks) evs = some s) {ns : List ℕ}
    {values : ℕ → ℕ → ℕ} (hcam : ∀ q, cam.Packs fmt q (values q)) (hns : Countable ns)
    (hc : List.Forall₂ ((s0.changeDepthFormat fmt blocks).strm.Carries cam) ns (evs.flatMap Event.pkts)) :
    ∃ frames : List ℕ, frames.Pairwise (· < ·) ∧
      List.Forall₂ (fun pic frame => pic.IsOf (s0.changeDepthFormat fmt blocks) cam values ns frame)
        (takes (Machine.trace Session.step Session.emit (s0.changeDepthFormat fmt blocks) evs)) frames := by
  have hsound : (s0.changeDepthFormat fmt blocks).Sound := Session.Sound.changeDepthFormat hidle fmt blocks
  have hfmt : (s0.changeDepthFormat fmt blocks).format = fmt := Session.changeDepthFormat_format s0 fmt blocks
  have hphase : (s0.changeDepthFormat fmt blocks).phase = .idle :=
    (Session.changeDepthFormat_phase s0 fmt blocks).trans hidle
  have hready : (s0.changeDepthFormat fmt blocks).ready = none := by rw [Session.changeDepthFormat_eq]; rfl
  have hsync := Session.changeDepthFormat_synced s0 fmt blocks
  generalize s0.changeDepthFormat fmt blocks = start at *
  have hlinked := (Linked.start hsound (hfmt ▸ hunp) hphase).exec hsound hevs hexec
  obtain ⟨outs, hconv, houts⟩ := hlinked.frames
  rw [List.nil_append] at hconv houts
  have hstarted : (⟨start.strm, start.mem start.strm.rawBuf⟩ : Assembly).strm.Started := hsound.started
  obtain ⟨frames, hsorted, hframes⟩ := delivered hstarted hsync hc hns
  rw [houts] at hframes
  -- the pictures are those of the first frames, and those that are taken are among them
  obtain ⟨posted, hposted, hfirst⟩ := Matching.sublist hframes (List.sublist_append_left _ _)
  have hpics := Matching.comp hconv hposted
  have htaken := (hsound.ready_exec hexec).sublist
  rw [hready, Option.toList_none, List.nil_append] at htaken
  obtain ⟨taken, htakes, hsub⟩ := Matching.sublist hpics htaken
  refine ⟨taken, (hsorted.sublist hfirst).sublist hsub, htakes.imp fun pic frame h => ?_⟩
  obtain ⟨out, hconv, hdel⟩ := h
  refine ⟨hconv.1.trans hdel.timestamp, fun hall k hk => ?_⟩
  have hbytes : ∀ a < fmt.frameBytes, out.raw a = cam.bytes frame a := by
    have hsize := hsound.frameSize
    rw [hfmt] at hsize
    rw [← hsize]
    exact hdel.bytes hall
  rw [hfmt] at hconv
  exact hconv.shows hunp (hcam frame) hbytes hk

/-- A stream that waits for a frame can be given one, so that the picture of it is ready for the clients. -/
theorem Session.Sound.exists_ready (h : s.Sound) (hunp : s.format.unpacked = true) (hidle : s.phase = .idle)
    (hsync : s.strm.synced = false) {cam : Footage} {values : ℕ → ℕ} (hcam : cam.Packs s.format 0 values) :
    ∃ evs s', (∀ e ∈ evs, e.ofDriver = true) ∧
      evs.flatMap Event.pkts = s.strm.packetsOf cam (List.range' (0 * s.strm.pktsPerFrame) s.strm.pktsPerFrame) ∧
      Machine.exec Session.step s evs = some s' ∧ s'.phase = .idle ∧
      ∃ pic, s'.ready = some pic ∧ pic.Shows (cam.stamp 0) values := by
  have hstarted : (⟨s.strm, s.mem s.strm.rawBuf⟩ : Assembly).strm.Started := h.started
  let ns := List.range' (0 * s.strm.pktsPerFrame) s.strm.pktsPerFrame
  obtain ⟨evs, s', hdriver, hpkts, hexec, hidle'⟩ := h.exec_pkts hidle (s.strm.packetsOf cam ns)
  have hnone : ∀ e ∈ evs, e.isSetup = false := fun e he => Event.isSetup_of_driver (hdriver e he)
  have hpics := h.pictures hunp hidle hnone hexec hidle'
  have hcarried : List.Forall₂ ((⟨s.strm, s.mem s.strm.rawBuf⟩ : Assembly).strm.Carries cam) ns
      (s.strm.packetsOf cam ns) := s.strm.carries_packetsOf cam ns
  have hlost : Tracks cam (s.mem s.strm.rawBuf) ⟨s.strm, s.mem s.strm.rawBuf⟩ Receiver.State.lost :=
    Tracks.lost cam hsync
  obtain ⟨hframes, hstamp, _, hbytes⟩ := hlost.whole_frame hstarted (Or.inl rfl) hcarried
  rw [hpkts, hframes] at hpics
  obtain ⟨pic, hlast, hconv⟩ := Matching.getLast? (show List.Forall₂ _ _ ([] ++ [_]) from hpics)
  have hready := (h.ready_exec hexec).untouched (posts_of_driver hdriver s)
  rw [List.getLast?_append, hlast, Option.some_or] at hready
  refine ⟨evs, s', hdriver, hpkts, hexec, hidle', pic, hready, hconv.1.trans hstamp, fun k hk => ?_⟩
  refine hconv.shows hunp hcam (fun a ha => hbytes a ?_) hk
  rw [h.frameSize]
  exact ha

open Mailbox in
/-- The picture of the first frame can be fetched. -/
theorem Session.Sound.exists_fetched (h : s.Sound) (hunp : s.format.unpacked = true) (hidle : s.phase = .idle)
    (hsync : s.strm.synced = false) {cam : Footage} {values : ℕ → ℕ} (hcam : cam.Packs s.format 0 values) :
    ∃ evs s', (∀ e ∈ evs, e.isSetup = false) ∧
      evs.flatMap Event.pkts = s.strm.packetsOf cam (List.range' (0 * s.strm.pktsPerFrame) s.strm.pktsPerFrame) ∧
      Machine.exec Session.step s evs = some s' ∧
      ∃ pic, takes (Machine.trace Session.step Session.emit s evs) = [pic] ∧ pic.Shows (cam.stamp 0) values := by
  obtain ⟨evs, s', hdriver, hpkts, hexec, _, pic, hready, hshows⟩ := h.exists_ready hunp hidle hsync hcam
  obtain ⟨hget, hemit⟩ := Session.get_of_ready hready
  refine ⟨evs ++ [.get], s'.fetched, fun e he => ?_, ?_, ?_, pic, ?_, hshows⟩
  · rcases List.mem_append.mp he with he | he
    · exact Event.isSetup_of_driver (hdriver e he)
    · rw [List.mem_singleton.mp he]; rfl
  · rw [List.flatMap_append, hpkts]
    exact List.append_nil _
  · exact Machine.exec_append_eq_some.mpr ⟨s', hexec, Machine.exec_cons_eq_some.mpr ⟨_, hget, rfl⟩⟩
  · -- the driver posts pictures and takes none
    have hnone : takes (Machine.trace Session.step Session.emit s evs) = [] :=
      takes_eq_nil (Session.posts_of_driver hdriver s)
    rw [Machine.trace_append hexec, takes_append, hnone, Machine.trace_cons hget, hemit]
    rfl

/-- The blocks, numbered as they are allocated. -/
def firstBlocks : Blocks := ⟨1, 2, 3, 4, 5, by decide, by decide⟩

end CarBoundary

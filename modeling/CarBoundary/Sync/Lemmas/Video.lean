import CarBoundary.Camera.Lemmas.Bayer
import CarBoundary.Camera.Lemmas.Recovery
import CarBoundary.Camera.Lemmas.Unpack
import CarBoundary.Sync.Lemmas.Session
import CarBoundary.Sync.Video

/-!
# Where a video stream writes
-/

namespace CarBoundary

namespace VideoFormat

variable {fmt : VideoFormat}

/-- The format is converted before it is handed out. -/
def split : VideoFormat → Bool
  | .rgb | .ir8 | .ir10 | .yuvRgb => true
  | .bayer | .irPacked10 | .yuvRaw => false

theorem frameBytes_eq_of_not_split {size : ℕ} (hsize : fmt.ringSize = some size) (hsplit : fmt.split = false) :
    fmt.frameBytes = size := by
  cases fmt with
  | rgb => cases hsplit
  | bayer => cases hsize; rfl
  | ir8 => cases hsplit
  | ir10 => cases hsplit
  | irPacked10 => cases hsize; rfl
  | yuvRgb => cases hsize
  | yuvRaw => cases hsize

theorem convert_of_le {size a : ℕ} (hsize : fmt.ringSize = some size) (hne : fmt ≠ .ir10) (ha : size ≤ a)
    (raw proc : Bytes) :
    fmt.convert raw proc a = proc a := by
  cases fmt with
  | rgb =>
      cases hsize
      exact (convertBayerToRgb_apply raw proc a).trans (if_neg (not_lt.mpr ha))
  | bayer => rfl
  | ir8 =>
      cases hsize
      exact convertPackedTo8bit_of_le raw proc 10 ha
  | ir10 => exact absurd rfl hne
  | irPacked10 => rfl
  | yuvRgb => cases hsize
  | yuvRaw => rfl

end VideoFormat

namespace PacketStream

variable {strm : PacketStream}

-- the same function as for depth, on the other stream
theorem stopVideo_running (strm : PacketStream) : strm.stopVideo.1.running = false :=
  strm.stopDepth_running

theorem stopVideo_usrBuf_running (strm : PacketStream) (buf : Ptr) :
    { strm.stopVideo.1 with usrBuf := buf : PacketStream }.running = false :=
  strm.stopVideo_running

theorem startVideo_bufs (hrun : strm.running = false) (husr : strm.usrBuf ≠ 0) (lib raw : Ptr) (fmt : VideoFormat) :
    let strm' := (strm.startVideo lib raw fmt).1
    strm'.usrBuf = strm.usrBuf ∧ strm'.procBuf = strm.usrBuf ∧ strm'.splitBufs = fmt.split ∧
      (strm'.rawBuf = if fmt.split then raw else strm.usrBuf) ∧ strm'.frameSize = fmt.frameBytes := by
  have hrun' : ¬ strm.running = true := by simp [hrun]
  let strm' : PacketStream := { strm with pktSize := videoPktDSize, flag := 0x80, variableLength := false }
  have husr' : strm'.usrBuf ≠ 0 := husr
  rw [startVideo, if_neg hrun']
  cases fmt with
  | rgb => exact init_bufs husr' videoBayerSize videoRgbSize lib raw
  | bayer => exact init_bufs husr' 0 videoBayerSize lib raw
  | ir8 => exact init_bufs husr' videoIrPacked10Size videoIr8Size lib raw
  | ir10 => exact init_bufs husr' videoIrPacked10Size videoBayerSize lib raw
  | irPacked10 => exact init_bufs husr' 0 videoIrPacked10Size lib raw
  | yuvRgb => exact init_bufs husr' videoYuvRawSize videoRgbSize lib raw
  | yuvRaw => exact init_bufs husr' 0 videoYuvRawSize lib raw

theorem startVideo_synced (hrun : strm.running = false) (lib raw : Ptr) (fmt : VideoFormat) :
    (strm.startVideo lib raw fmt).1.synced = false := by
  have hrun' : ¬ strm.running = true := by simp [hrun]
  rw [startVideo, if_neg hrun']
  cases fmt with
  | rgb => exact init_synced _ _ _ _ _
  | bayer => exact init_synced _ _ _ _ _
  | ir8 => exact init_synced _ _ _ _ _
  | ir10 => exact init_synced _ _ _ _ _
  | irPacked10 => exact init_synced _ _ _ _ _
  | yuvRgb => exact init_synced _ _ _ _ _
  | yuvRaw => exact init_synced _ _ _ _ _

end PacketStream

/-! ## The invariant -/

namespace VideoSession

variable {s s' : VideoSession} {fmt : VideoFormat} {blocks : Blocks} {size : ℕ}

/-- The stream of a format that runs with the blocks. -/
structure Sound (fmt : VideoFormat) (blocks : Blocks) (s : VideoSession) : Prop where
  started : s.strm.Started
  inFrame : s.strm.InFrame
  format : s.format = fmt
  bufs : ∀ p ∈ [s.video.buf0, s.video.buf1, s.video.buf2], p ∈ [blocks.buf0, blocks.buf1, blocks.buf2]
  procBuf : s.strm.procBuf = s.video.buf2
  splitBufs : s.strm.splitBufs = fmt.split
  rawBuf : s.strm.rawBuf = if fmt.split then blocks.raw else s.video.buf2
  frameSize : s.strm.frameSize = fmt.frameBytes

/-- No byte has changed but those within the blocks. -/
def Within (fmt : VideoFormat) (blocks : Blocks) (size : ℕ) (mem0 : Ptr → Bytes) (s : VideoSession) : Prop :=
  ∀ p a, (p ∈ [blocks.buf0, blocks.buf1, blocks.buf2] → size ≤ a) → (p = blocks.raw → fmt.frameBytes ≤ a) →
    s.mem p a = mem0 p a

theorem changeVideoFormat_eq (s : VideoSession) (hsize : fmt.ringSize = some size) (blocks : Blocks) :
    (s.changeVideoFormat fmt blocks).1 =
      { s with
        strm := ({ s.strm.stopVideo.1 with usrBuf := blocks.buf2 : PacketStream }.startVideo
          blocks.lib blocks.raw fmt).1
        video := ⟨blocks.buf0, blocks.buf1, blocks.buf2, 0, false, none⟩
        format := fmt
        fmt := some fmt } := by
  have hstop := s.strm.stopVideo_running
  simp [changeVideoFormat, hsize, setVideoFormat, PacketStream.setbuf, hstop]

theorem Sound.changeVideoFormat (s : VideoSession) (hsize : fmt.ringSize = some size) (blocks : Blocks) :
    Sound fmt blocks (s.changeVideoFormat fmt blocks).1 := by
  have hrun := s.strm.stopVideo_usrBuf_running blocks.buf2
  obtain ⟨_, hproc, hsplit, hraw, hframe⟩ :=
    PacketStream.startVideo_bufs hrun blocks.buf2_ne_zero blocks.lib blocks.raw fmt
  rw [changeVideoFormat_eq s hsize]
  exact ⟨PacketStream.startVideo_started hrun blocks.lib blocks.raw fmt,
    fun h => absurd h (by rw [PacketStream.startVideo_synced hrun]; decide), rfl,
      fun _ hp => hp, hproc, hsplit, hraw, hframe⟩

theorem changeVideoFormat_synced (s : VideoSession) (hsize : fmt.ringSize = some size) (blocks : Blocks) :
    (s.changeVideoFormat fmt blocks).1.strm.synced = false := by
  rw [changeVideoFormat_eq s hsize]
  exact PacketStream.startVideo_synced (s.strm.stopVideo_usrBuf_running _) blocks.lib blocks.raw fmt

theorem changeVideoFormat_valid (s : VideoSession) (hsize : fmt.ringSize = some size) (blocks : Blocks) :
    (s.changeVideoFormat fmt blocks).1.video.valid = false := by
  rw [changeVideoFormat_eq s hsize]

theorem changeVideoFormat_buf2 (s : VideoSession) (hsize : fmt.ringSize = some size) (blocks : Blocks) :
    (s.changeVideoFormat fmt blocks).1.video.buf2 = blocks.buf2 := by
  rw [changeVideoFormat_eq s hsize]

/-! ## A packet -/

/-- The session after `stream_process`. -/
def received (s : VideoSession) (pkt : List UInt8) : VideoSession :=
  let out := streamProcess ⟨s.strm, s.mem s.strm.rawBuf⟩ pkt
  { s with strm := out.1.strm, mem := Function.update s.mem s.strm.rawBuf out.1.raw }

theorem packet_eq (hrun : s.strm.running = true) (pkt : List UInt8) :
    s.packet pkt = if (streamProcess ⟨s.strm, s.mem s.strm.rawBuf⟩ pkt).2 = 0 then some (s.received pkt)
      else (s.received pkt).report := by
  by_cases hlen : pkt.length = 0
  · have hshort : pkt.length < pktHdrSize := by rw [hlen]; decide
    simp only [packet, received, if_pos hlen, streamProcess, if_pos hshort, Function.update_eq_self, if_true]
  · rw [packet, if_neg hlen, hrun]
    rfl

theorem Sound.received (h : Sound fmt blocks s) (pkt : List UInt8) : Sound fmt blocks (s.received pkt) := by
  have hset := PacketStream.setup_streamProcess ⟨s.strm, s.mem s.strm.rawBuf⟩ pkt
  have hsafe : Safe ⟨s.strm, s.mem s.strm.rawBuf⟩ (streamProcess ⟨s.strm, s.mem s.strm.rawBuf⟩ pkt) :=
    Safe.streamProcess h.started.sized h.inFrame pkt
  constructor
  · exact h.started.of_setup hset
  · exact hsafe.inFrame
  · exact h.format
  · exact h.bufs
  · exact (congrArg PacketStream.procBuf hset :).trans h.procBuf
  · exact (congrArg PacketStream.splitBufs hset :).trans h.splitBufs
  · exact (congrArg PacketStream.rawBuf hset :).trans h.rawBuf
  · exact (congrArg PacketStream.frameSize hset :).trans h.frameSize

theorem Within.received {mem0 : Ptr → Bytes} (h : Sound fmt blocks s) (hsize : fmt.ringSize = some size)
    (hwithin : Within fmt blocks size mem0 s) (pkt : List UInt8) : Within fmt blocks size mem0 (s.received pkt) := by
  intro p a hring hblock
  have hsafe : Safe ⟨s.strm, s.mem s.strm.rawBuf⟩ (streamProcess ⟨s.strm, s.mem s.strm.rawBuf⟩ pkt) :=
    Safe.streamProcess h.started.sized h.inFrame pkt
  by_cases hp : p = s.strm.rawBuf
  · have hbeyond : s.strm.frameSize ≤ a := by
      rw [h.frameSize]
      rw [h.rawBuf] at hp
      cases hsplit : fmt.split with
      | true => exact hblock (by rw [hp, hsplit, if_pos rfl])
      | false =>
          rw [hsplit, if_neg Bool.false_ne_true] at hp
          rw [VideoFormat.frameBytes_eq_of_not_split hsize hsplit]
          exact hring (hp ▸ h.bufs _ (by simp))
    rw [hp, ← hwithin s.strm.rawBuf a (hp ▸ hring) (hp ▸ hblock)]
    simp only [VideoSession.received, Function.update_self]
    exact hsafe.beyond a hbeyond
  · rw [← hwithin p a hring hblock]
    simp only [VideoSession.received, Function.update_of_ne hp]

/-! ## A frame -/

theorem Sound.buf_ne_zero (h : Sound fmt blocks s) {p : Ptr} (hp : p ∈ [s.video.buf0, s.video.buf1, s.video.buf2]) :
    p ≠ 0 := by
  rintro rfl
  have hnull := blocks.ne_null
  have hring := h.bufs 0 hp
  simp only [List.mem_cons, List.not_mem_nil, or_false, not_or] at hnull hring
  tauto

theorem Sound.report_eq (h : Sound fmt blocks s) : s.report = some { s with
    strm := s.strm.redirect s.video.buf1
    video := { s.video with
      buf1 := s.video.buf2, buf2 := s.video.buf1, timestamp := s.strm.timestamp, valid := true }
    mem := Function.update s.mem s.video.buf2 (fmt.convert (s.mem s.strm.rawBuf) (s.mem s.video.buf2)) } := by
  have hne : s.video.buf1 ≠ 0 := h.buf_ne_zero (by simp)
  simp [report, producerCbInner, h.procBuf, h.format, PacketStream.setbuf_of_running h.started.running hne]

theorem Sound.report (h : Sound fmt blocks s) (hreport : s.report = some s') : Sound fmt blocks s' := by
  rw [h.report_eq] at hreport
  cases hreport
  have hswap : ∀ p ∈ [s.video.buf0, s.video.buf2, s.video.buf1], p ∈ [s.video.buf0, s.video.buf1, s.video.buf2] := by
    simp only [List.mem_cons, List.not_mem_nil, or_false]
    tauto
  refine ⟨h.started.redirect _, h.inFrame, h.format, fun p hp => h.bufs p (hswap p hp), rfl, h.splitBufs, ?_,
    h.frameSize⟩
  have hraw := h.rawBuf
  simp only [PacketStream.redirect, h.splitBufs]
  cases hsplit : fmt.split with
  | true =>
      rw [hsplit, if_pos rfl] at hraw
      simpa using hraw
  | false => simp

theorem Within.report {mem0 : Ptr → Bytes} (h : Sound fmt blocks s) (hsize : fmt.ringSize = some size)
    (hne : fmt ≠ .ir10) (hwithin : Within fmt blocks size mem0 s)
    (hreport : s.report = some s') : Within fmt blocks size mem0 s' := by
  rw [h.report_eq] at hreport
  cases hreport
  intro p a hring hblock
  rw [← hwithin p a hring hblock]
  by_cases hp : p = s.video.buf2
  · subst hp
    simp only [Function.update_self]
    exact VideoFormat.convert_of_le hsize hne (hring (h.bufs _ (by simp))) _ _
  · simp only [Function.update_of_ne hp]

/-! ## Steps and runs -/

theorem Sound.exists_packet (h : Sound fmt blocks s) (pkt : List UInt8) : ∃ s', s.packet pkt = some s' := by
  rw [packet_eq h.started.running]
  split_ifs
  · exact ⟨_, rfl⟩
  · exact ⟨_, (h.received pkt).report_eq⟩

theorem step_cases {e : VideoEvent} (h : Sound fmt blocks s) (hstep : s.step e = some s') :
    (∃ pkt, e = .packet pkt ∧
      ((streamProcess ⟨s.strm, s.mem s.strm.rawBuf⟩ pkt).2 = 0 ∧ s' = s.received pkt ∨
        (streamProcess ⟨s.strm, s.mem s.strm.rawBuf⟩ pkt).2 ≠ 0 ∧ (s.received pkt).report = some s')) ∨
    (e = .get ∧ s.video.valid = true ∧
      s' = { s with video := { s.video with buf0 := s.video.buf1, buf1 := s.video.buf0, valid := false } }) := by
  cases e with
  | packet pkt =>
      refine .inl ⟨pkt, rfl, ?_⟩
      have hpacket : s.packet pkt = some s' := hstep
      rw [packet_eq h.started.running] at hpacket
      split_ifs at hpacket with hgot
      · exact .inl ⟨hgot, (Option.some.inj hpacket).symm⟩
      · exact .inr ⟨hgot, hpacket⟩
  | get =>
      obtain ⟨out, hget, rfl⟩ := Option.map_eq_some_iff.mp hstep
      rw [syncGet] at hget
      split_ifs at hget with hvalid
      cases hget
      exact .inr ⟨rfl, by simpa using hvalid, rfl⟩

theorem Sound.step {e : VideoEvent} (h : Sound fmt blocks s) (hstep : s.step e = some s') : Sound fmt blocks s' := by
  rcases step_cases h hstep with ⟨pkt, rfl, ⟨_, rfl⟩ | ⟨_, hreport⟩⟩ | ⟨rfl, _, rfl⟩
  · exact h.received pkt
  · exact (h.received pkt).report hreport
  · refine ⟨h.started, h.inFrame, h.format, fun p hp => h.bufs p ?_, h.procBuf, h.splitBufs, h.rawBuf, h.frameSize⟩
    simp only [List.mem_cons, List.not_mem_nil, or_false] at hp ⊢
    tauto

theorem Within.step {mem0 : Ptr → Bytes} {e : VideoEvent} (h : Sound fmt blocks s) (hsize : fmt.ringSize = some size)
    (hne : fmt ≠ .ir10) (hwithin : Within fmt blocks size mem0 s) (hstep : s.step e = some s') :
    Within fmt blocks size mem0 s' := by
  rcases step_cases h hstep with ⟨pkt, rfl, ⟨_, rfl⟩ | ⟨_, hreport⟩⟩ | ⟨rfl, _, rfl⟩
  · exact hwithin.received h hsize pkt
  · exact (hwithin.received h hsize pkt).report (h.received pkt) hsize hne hreport
  · exact hwithin

theorem Sound.exec {evs : List VideoEvent} (h : Sound fmt blocks s)
    (hexec : Machine.exec VideoSession.step s evs = some s') :
    Sound fmt blocks s' :=
  Machine.invariant (Sound fmt blocks) (fun _ => True) (fun _ _ _ hs _ hstep => hs.step hstep) h
    (fun _ _ => trivial) hexec

theorem Within.exec {evs : List VideoEvent} (h : Sound fmt blocks s) (hsize : fmt.ringSize = some size)
    (hne : fmt ≠ .ir10) (hexec : Machine.exec VideoSession.step s evs = some s') : Within fmt blocks size s.mem s' :=
  (Machine.invariant (fun t => Sound fmt blocks t ∧ Within fmt blocks size s.mem t) (fun _ => True)
    (fun _ _ _ hs _ hstep => ⟨hs.1.step hstep, hs.2.step hs.1 hsize hne hstep⟩) ⟨h, fun _ _ _ _ => rfl⟩
    (fun _ _ => trivial) hexec).2

/-! ## Up to a frame -/

/-- A packet after which the stream has no frame to report leaves the ring and its blocks as they are. -/
theorem received_frame (pkt : List UInt8) (hne : s.strm.rawBuf ≠ s.video.buf2) :
    (s.received pkt).strm.rawBuf = s.strm.rawBuf ∧ (s.received pkt).mem s.video.buf2 = s.mem s.video.buf2 ∧
      (⟨(s.received pkt).strm, (s.received pkt).mem s.strm.rawBuf⟩ : Assembly) =
        (streamProcess ⟨s.strm, s.mem s.strm.rawBuf⟩ pkt).1 := by
  have hset := PacketStream.setup_streamProcess ⟨s.strm, s.mem s.strm.rawBuf⟩ pkt
  refine ⟨(congrArg PacketStream.rawBuf hset :), ?_, ?_⟩
  · simp only [received, Function.update_of_ne hne.symm]
  · simp only [received, Function.update_self]

/-- The first frame that the packets complete is converted into the third block of the ring. -/
theorem Sound.exists_report (h : Sound fmt blocks s) (hne : s.strm.rawBuf ≠ s.video.buf2) {pkts : List (List UInt8)}
    {out : Assembly} {outs : List Assembly} (hframes : streamFrames ⟨s.strm, s.mem s.strm.rawBuf⟩ pkts = out :: outs) :
    ∃ n s', Machine.exec VideoSession.step s ((pkts.take n).map .packet) = some s' ∧ s'.video.valid = true ∧
      s'.mem s.video.buf2 = fmt.convert out.raw (s.mem s.video.buf2) := by
  induction pkts generalizing s with
  | nil => cases hframes
  | cons pkt pkts ih =>
      obtain ⟨hraw, hmem, hasm⟩ := received_frame pkt hne
      simp only [streamFrames] at hframes
      by_cases hgot : (streamProcess ⟨s.strm, s.mem s.strm.rawBuf⟩ pkt).2 = 0
      · rw [if_pos hgot, ← hasm, ← hraw] at hframes
        have hstep : s.step (.packet pkt) = some (s.received pkt) :=
          (packet_eq h.started.running pkt).trans (if_pos hgot)
        obtain ⟨n, s', hexec, hvalid, hshown⟩ := ih (h.received pkt) (hraw ▸ hne) hframes
        refine ⟨n + 1, s', Machine.exec_cons_eq_some.mpr ⟨_, hstep, hexec⟩, hvalid, hshown.trans ?_⟩
        exact congrArg (fmt.convert out.raw) hmem
      · rw [if_neg hgot] at hframes
        have hout := (List.cons.inj hframes).1
        have hstep : s.step (.packet pkt) = (s.received pkt).report :=
          (packet_eq h.started.running pkt).trans (if_neg hgot)
        refine ⟨1, _, Machine.exec_cons_eq_some.mpr ⟨_, hstep.trans (h.received pkt).report_eq, rfl⟩, rfl, ?_⟩
        refine (Function.update_self _ _ _).trans ?_
        rw [hraw, ← hout, ← hasm]
        exact congrArg (fmt.convert _) hmem

end VideoSession

end CarBoundary

import CarBoundary.Camera.Lemmas.Footage
import CarBoundary.Sync.Lemmas.Linked
import CarBoundary.Sync.Lemmas.Video

/-!
# The stream behind the video ring

For a format that is converted, the packets are put together in a block of the driver's own. The session does to them
what `streamRun` does, whenever the client fetches a frame, and the ring holds the conversion of the last frame that
`streamFrames` lists (`Follows`).
-/

namespace CarBoundary

theorem PacketStream.redirect_redirect (s : PacketStream) (p p' : Ptr) :
    (s.redirect p).redirect p' = s.redirect p' := by
  cases hsplit : s.splitBufs with
  | true => simp [PacketStream.redirect, hsplit]
  | false => simp [PacketStream.redirect, hsplit]

/-- Streams whose frames go to different buffers do the same to a packet. -/
theorem PacketStream.streamProcess_congr (asm asm' : Assembly)
    (hstrm : ∀ p, asm.strm.redirect p = asm'.strm.redirect p) (hraw : asm.raw = asm'.raw) (pkt : List UInt8) :
    (∀ p, (streamProcess asm pkt).1.strm.redirect p = (streamProcess asm' pkt).1.strm.redirect p) ∧
      (streamProcess asm pkt).1.raw = (streamProcess asm' pkt).1.raw ∧
      (streamProcess asm pkt).2 = (streamProcess asm' pkt).2 := by
  have hprocess (p : Ptr) := (streamProcess_redirect asm p pkt).symm.trans
    ((by rw [hstrm p, hraw] : _ = _).trans (streamProcess_redirect asm' p pkt))
  refine ⟨fun p => ?_, ?_, ?_⟩
  · exact congrArg (fun out : Assembly × ℕ => out.1.strm) (hprocess p)
  · exact (congrArg (fun out : Assembly × ℕ => out.1.raw) (hprocess 0) :)
  · exact (congrArg Prod.snd (hprocess 0) :)

/-- The picture depends on the frame alone. -/
theorem VideoFormat.convert_congr {fmt : VideoFormat} {size a : ℕ} (hsize : fmt.ringSize = some size)
    (hsplit : fmt.split = true) (hne : fmt ≠ .ir10) {raw raw' : Bytes} (h : ∀ a < fmt.frameBytes, raw' a = raw a)
    (ha : a < size) (proc proc' : Bytes) : fmt.convert raw' proc' a = fmt.convert raw proc a := by
  cases fmt with
  | rgb =>
      cases hsize
      refine (convertBayerToRgb_apply raw' proc' a).trans ((if_pos ha).trans ?_)
      refine (Bayer.bytes_congr h ha).trans ?_
      exact ((convertBayerToRgb_apply raw proc a).trans (if_pos ha)).symm
  | bayer => cases hsplit
  | ir8 =>
      cases hsize
      have hframe : convertPackedTo8bit raw' 10 irFramePix proc' = convertPackedTo8bit raw 10 irFramePix proc' :=
        convertPackedTo8bit_congr h
      have hvalue (dst : Bytes) :
          (convertPackedTo8bit raw 10 irFramePix dst a).toNat = Bits.regroup 8 10 raw.nat a >>> (10 - 8) :=
        convertPackedTo8bit_apply raw dst (by decide) (by decide) ha
      exact (congrFun hframe a).trans (UInt8.toNat_inj.mp ((hvalue proc').trans (hvalue proc).symm))
  | ir10 => exact absurd rfl hne
  | irPacked10 => cases hsplit
  | yuvRgb => cases hsize
  | yuvRaw => cases hsplit

/-- The packets of an event. -/
def VideoEvent.pkts : VideoEvent → List (List UInt8)
  | .packet pkt => [pkt]
  | .get => []

namespace VideoSession

variable {s s' : VideoSession} {fmt : VideoFormat} {blocks : Blocks} {asm0 : Assembly} {pkts : List (List UInt8)}

/-- The session has seen the packets `pkts` since the stream was `asm0`. -/
structure Follows (fmt : VideoFormat) (asm0 : Assembly) (pkts : List (List UInt8)) (s : VideoSession) : Prop where
  strm : ∀ p, s.strm.redirect p = (streamRun asm0 pkts).strm.redirect p
  raw : s.mem s.strm.rawBuf = (streamRun asm0 pkts).raw
  front : s.video.valid = true → ∃ frame proc, (streamFrames asm0 pkts).getLast? = some frame ∧
    s.video.timestamp = frame.strm.timestamp ∧ s.mem s.video.buf1 = fmt.convert frame.raw proc

theorem Follows.start (h : s.video.valid = false) : Follows fmt ⟨s.strm, s.mem s.strm.rawBuf⟩ [] s :=
  ⟨fun _ => rfl, rfl, fun hvalid => absurd (h.symm.trans hvalid) Bool.false_ne_true⟩

/-- The driver's own block is none of the ring. -/
theorem Sound.rawBuf_ne (h : Sound fmt blocks s) (hsplit : fmt.split = true) :
    s.strm.rawBuf ≠ s.video.buf1 ∧ s.strm.rawBuf ≠ s.video.buf2 := by
  have hraw := h.rawBuf
  rw [hsplit, if_pos rfl] at hraw
  have hring : blocks.raw ∉ [blocks.buf0, blocks.buf1, blocks.buf2] := by
    have hnodup := blocks.nodup
    simp only [List.nodup_cons, List.mem_cons, List.not_mem_nil, or_false, not_or] at hnodup ⊢
    exact ⟨Ne.symm hnodup.1.2.2.2, Ne.symm hnodup.2.1.2.2, Ne.symm hnodup.2.2.1.2⟩
  rw [hraw]
  constructor
  · intro heq
    exact hring (h.bufs _ (by simp [heq]))
  · intro heq
    exact hring (h.bufs _ (by simp [heq]))

/-- What a camera sends first is converted into the third block of the ring. -/
theorem Sound.first_frame (h : Sound fmt blocks s) (hsplit : fmt.split = true) (hsync : s.strm.synced = false)
    (cam : Footage) :
    let pkts := s.strm.packetsOf cam (List.range' (0 * s.strm.pktsPerFrame) s.strm.pktsPerFrame)
    ∃ n s' raw, Machine.exec VideoSession.step s ((pkts.take n).map .packet) = some s' ∧ s'.video.valid = true ∧
      (∀ a < fmt.frameBytes, raw a = cam.bytes 0 a) ∧
      s'.mem s.video.buf2 = fmt.convert raw (s.mem s.video.buf2) := by
  intro pkts
  let asm : Assembly := ⟨s.strm, s.mem s.strm.rawBuf⟩
  have hcarries : List.Forall₂ (asm.strm.Carries cam)
    (List.range' (0 * asm.strm.pktsPerFrame) asm.strm.pktsPerFrame) pkts :=
    s.strm.carries_packetsOf cam _
  have hlost : Tracks cam asm.raw asm Receiver.State.lost := Tracks.lost cam hsync
  obtain ⟨hframes, _, _, hbytes⟩ := hlost.whole_frame h.started (Or.inl rfl) hcarries
  obtain ⟨n, s', hexec, hvalid, hshown⟩ := h.exists_report (h.rawBuf_ne hsplit).2 hframes
  rw [show asm.strm.frameSize = _ from h.frameSize] at hbytes
  exact ⟨n, s', _, hexec, hvalid, hbytes, hshown⟩

theorem Follows.received (h : Sound fmt blocks s) (hsplit : fmt.split = true) (hf : Follows fmt asm0 pkts s)
    (pkt : List UInt8) :
    (∀ p, (s.received pkt).strm.redirect p = (streamRun asm0 (pkts ++ [pkt])).strm.redirect p) ∧
      (s.received pkt).mem (s.received pkt).strm.rawBuf = (streamRun asm0 (pkts ++ [pkt])).raw ∧
      streamFrames asm0 (pkts ++ [pkt]) = streamFrames asm0 pkts ++
        if (streamProcess ⟨s.strm, s.mem s.strm.rawBuf⟩ pkt).2 = 0 then [] else [streamRun asm0 (pkts ++ [pkt])] := by
  obtain ⟨hraw, _, hasm⟩ := received_frame pkt (h.rawBuf_ne hsplit).2
  have hrun : streamRun asm0 (pkts ++ [pkt]) = (streamProcess (streamRun asm0 pkts) pkt).1 := by
    rw [streamRun_append]
    rfl
  obtain ⟨hstrm, hbytes, hgot⟩ := PacketStream.streamProcess_congr ⟨s.strm, s.mem s.strm.rawBuf⟩ (streamRun asm0 pkts)
    hf.strm hf.raw pkt
  refine ⟨fun p => ?_, ?_, ?_⟩
  · rw [hrun]
    exact hstrm p
  · rw [hraw, hrun, ← hbytes]
    exact congrArg Assembly.raw hasm
  · rw [hgot, hrun, streamFrames_append, streamFrames, streamFrames]

theorem Follows.step {e : VideoEvent} (h : Sound fmt blocks s) (hsplit : fmt.split = true)
    (hf : Follows fmt asm0 pkts s) (hstep : s.step e = some s') : Follows fmt asm0 (pkts ++ e.pkts) s' := by
  rcases step_cases h hstep with ⟨pkt, rfl, ⟨hgot, rfl⟩ | ⟨hgot, hreport⟩⟩ | ⟨rfl, _, rfl⟩
  · obtain ⟨hstrm, hraw, hframes⟩ := hf.received h hsplit pkt
    refine ⟨hstrm, hraw, fun hvalid => ?_⟩
    obtain ⟨frame, proc, hlast, hstamp, hshown⟩ := hf.front hvalid
    refine ⟨frame, proc, ?_, hstamp, ?_⟩
    · rw [VideoEvent.pkts, hframes, if_pos hgot, List.append_nil]
      exact hlast
    · exact (Function.update_of_ne (h.rawBuf_ne hsplit).1.symm _ _).trans hshown
  · obtain ⟨hstrm, hraw, hframes⟩ := hf.received h hsplit pkt
    have h' := h.received pkt
    have hne := (h'.rawBuf_ne hsplit).2
    rw [h'.report_eq] at hreport
    cases hreport
    constructor
    · intro p
      rw [PacketStream.redirect_redirect]
      exact hstrm p
    · have hbuf : ((s.received pkt).strm.redirect (s.received pkt).video.buf1).rawBuf =
          (s.received pkt).strm.rawBuf := by
        simp only [PacketStream.redirect, h'.splitBufs, hsplit, if_true]
      rw [hbuf]
      exact (Function.update_of_ne hne _ _).trans hraw
    · intro _
      refine ⟨streamRun asm0 (pkts ++ [pkt]), (s.received pkt).mem (s.received pkt).video.buf2, ?_, ?_, ?_⟩
      · rw [VideoEvent.pkts, hframes, if_neg hgot, List.getLast?_concat]
      · exact (congrArg PacketStream.timestamp (hstrm 0) :)
      · rw [← hraw]
        exact Function.update_self _ _ _
  · refine ⟨?_, ?_, fun hvalid => absurd hvalid Bool.false_ne_true⟩
    · rw [VideoEvent.pkts, List.append_nil]
      exact hf.strm
    · rw [VideoEvent.pkts, List.append_nil]
      exact hf.raw

theorem Follows.exec {evs : List VideoEvent} (h : Sound fmt blocks s) (hsplit : fmt.split = true)
    (hf : Follows fmt asm0 pkts s) (hexec : Machine.exec VideoSession.step s evs = some s') :
    Follows fmt asm0 (pkts ++ evs.flatMap VideoEvent.pkts) s' := by
  induction evs generalizing s pkts with
  | nil =>
      cases hexec
      rw [List.flatMap_nil, List.append_nil]
      exact hf
  | cons e evs ih =>
      obtain ⟨t, hstep, hrest⟩ := Machine.exec_cons_eq_some.mp hexec
      rw [List.flatMap_cons, ← List.append_assoc]
      exact ih (h.step hstep) (hf.step h hsplit hstep) hrest

end VideoSession

end CarBoundary

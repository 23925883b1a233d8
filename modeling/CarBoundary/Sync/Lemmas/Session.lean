import CarBoundary.Camera.Lemmas.Start
import CarBoundary.Sync.Ring

/-!
# What holds between the threads

The three buffers of the ring stay apart, the driver works on the last of them, and nobody but the clients has the
first one (`Sound`). A step is one of five (`step_cases`).
-/

namespace CarBoundary

variable {s s' : Session} {e : Event} {fmt : DepthFormat} {blocks : Blocks}

/-! ## Steps -/

/-- The session after `producer_cb_inner`. -/
def Session.called (s : Session) : Session :=
  { s with
    depth := { s.depth with
      buf1 := s.depth.buf2, buf2 := s.depth.buf1, timestamp := s.strm.timestamp, valid := true }
    strm := (s.strm.setbuf s.depth.buf1).1
    phase := .idle }

/-- The session after `sync_get`. -/
def Session.fetched (s : Session) : Session :=
  { s with depth := { s.depth with buf0 := s.depth.buf1, buf1 := s.depth.buf0, valid := false } }

theorem Session.step_cases (h : s.step e = some s') :
    (∃ pkt, e = .packet pkt ∧ s.phase = .idle ∧ s' = s.packet pkt) ∨
    (∃ vw u done, e = .pixel ∧ s.phase = .converting vw u done ∧ s' = s.pixel vw u done) ∨
    (e = .callback ∧ s.phase = .calling ∧ s.strm.procBuf = s.depth.buf2 ∧ s' = s.called) ∨
    (e = .get ∧ s.depth.valid = true ∧ s' = s.fetched) ∨
    (∃ fmt blocks, e = .setup fmt blocks ∧ s.phase = .idle ∧
      s' = if s.depth.fmt ≠ some fmt then s.changeDepthFormat fmt blocks else s) := by
  cases e with
  | packet pkt =>
      cases hphase : s.phase with
      | idle =>
          simp only [step, hphase, Option.some_inj] at h
          exact Or.inl ⟨pkt, rfl, rfl, h.symm⟩
      | converting vw u done => simp [step, hphase] at h
      | calling => simp [step, hphase] at h
  | pixel =>
      cases hphase : s.phase with
      | idle => simp [step, hphase] at h
      | converting vw u done =>
          simp only [step, hphase, Option.some_inj] at h
          exact Or.inr (Or.inl ⟨vw, u, done, rfl, rfl, h.symm⟩)
      | calling => simp [step, hphase] at h
  | callback =>
      cases hphase : s.phase with
      | idle => simp [step, hphase] at h
      | converting vw u done => simp [step, hphase] at h
      | calling =>
          simp only [step, hphase, producerCbInner] at h
          by_cases hproc : s.strm.procBuf = s.depth.buf2
          · simp only [hproc, ne_eq, not_true, if_false, Option.map_some, Option.some_inj] at h
            exact Or.inr (Or.inr (Or.inl ⟨rfl, rfl, hproc, h.symm⟩))
          · simp [hproc] at h
  | get =>
      cases hvalid : s.depth.valid with
      | false => simp [step, syncGet, hvalid] at h
      | true =>
          simp only [step, syncGet, hvalid, Bool.not_true, Bool.false_eq_true, if_false, Option.map_some,
            Option.some_inj] at h
          exact Or.inr (Or.inr (Or.inr (Or.inl ⟨rfl, rfl, h.symm⟩)))
  | setup fmt blocks =>
      cases hphase : s.phase with
      | idle =>
          simp only [step, hphase, Option.some_inj] at h
          exact Or.inr (Or.inr (Or.inr (Or.inr ⟨fmt, blocks, rfl, rfl, h.symm⟩)))
      | converting vw u done => simp [step, hphase] at h
      | calling => simp [step, hphase] at h

/-! ## Buffers of a stream -/

namespace PacketStream

variable {strm : PacketStream}

/-- The stream when its frames go to another buffer. -/
def redirect (strm : PacketStream) (p : Ptr) : PacketStream :=
  { strm with usrBuf := p, procBuf := p, rawBuf := if strm.splitBufs then strm.rawBuf else p }

theorem setbuf_of_running (hrun : strm.running = true) {p : Ptr} (hp : p ≠ 0) :
    (strm.setbuf p).1 = strm.redirect p := by
  cases hsplit : strm.splitBufs with
  | false => simp [setbuf, redirect, hrun, hp, hsplit]
  | true => simp [setbuf, redirect, hrun, hp, hsplit]

theorem Started.redirect (h : strm.Started) (p : Ptr) : (strm.redirect p).Started :=
  ⟨h.running, h.fixed, ⟨h.sized.1, h.sized.2, h.sized.3⟩, ⟨h.flags.1, h.flags.2, h.flags.3⟩, h.long, h.frameSize_pos⟩

theorem stopDepth_running (strm : PacketStream) : strm.stopDepth.1.running = false := by
  cases hrun : strm.running with
  | false => simp [stopDepth, hrun]
  | true => simp [stopDepth, hrun, freebufs]

theorem stopDepth_usrBuf_running (strm : PacketStream) (buf : Ptr) :
    { strm.stopDepth.1 with usrBuf := buf : PacketStream }.running = false :=
  strm.stopDepth_running

end PacketStream

/-! ## The invariant -/

/-- The format is unpacked before it is handed out. -/
def DepthFormat.unpacked : DepthFormat → Bool
  | .bits11 => true
  | .bits10 => true
  | .packed11 => false
  | .packed10 => false

/-- The width of the values of a format. -/
def DepthFormat.width : DepthFormat → ℕ
  | .bits11 => 11
  | .packed11 => 11
  | .bits10 => 10
  | .packed10 => 10

/-- The bytes of a frame of the stream. -/
def DepthFormat.frameBytes : DepthFormat → ℕ
  | .bits11 => depthPacked11Size
  | .bits10 => depthPacked10Size
  | .packed11 => depthPacked11Size
  | .packed10 => depthPacked11Size

theorem DepthFormat.frameBytes_eq {fmt : DepthFormat} (h : fmt.unpacked = true) :
    fmt.frameBytes = (framePix * fmt.width + 7) / 8 := by
  cases fmt with
  | bits11 => rfl
  | bits10 => rfl
  | packed11 => cases h
  | packed10 => cases h

theorem DepthFormat.process_cases (fmt : DepthFormat) :
    fmt.unpacked = true ∧ fmt.process = .converting fmt.width .start 0 ∨
      fmt.unpacked = false ∧ fmt.process = .calling := by
  cases fmt with
  | bits11 => exact Or.inl ⟨rfl, rfl⟩
  | bits10 => exact Or.inl ⟨rfl, rfl⟩
  | packed11 => exact Or.inr ⟨rfl, rfl⟩
  | packed10 => exact Or.inr ⟨rfl, rfl⟩

namespace Blocks

variable (blocks : Blocks)

theorem buf2_ne_zero : blocks.buf2 ≠ 0 := by
  have hnull := blocks.ne_null
  simp only [List.mem_cons, List.not_mem_nil, or_false, not_or] at hnull
  exact Ne.symm hnull.2.2.1

theorem buf2_ne_raw : blocks.buf2 ≠ blocks.raw := by
  have hnodup := blocks.nodup
  simp only [List.nodup_cons, List.mem_cons, List.not_mem_nil, or_false, not_or] at hnodup
  exact hnodup.2.2.1.2

end Blocks

namespace Session

def bufs (s : Session) : List Ptr := [s.depth.buf0, s.depth.buf1, s.depth.buf2]

structure Sound (s : Session) : Prop where
  started : s.strm.Started
  nodup : s.bufs.Nodup
  ne_null : 0 ∉ s.bufs
  usrBuf : s.strm.usrBuf = s.depth.buf2
  procBuf : s.strm.procBuf = s.depth.buf2
  rawBuf : if s.format.unpacked then s.strm.rawBuf ∉ s.bufs else s.strm.rawBuf = s.depth.buf2
  splitBufs : s.strm.splitBufs = s.format.unpacked
  frameSize : s.strm.frameSize = s.format.frameBytes
  fmt : s.depth.fmt = some s.format
  converting : ∀ vw u done, s.phase = .converting vw u done →
    s.format.unpacked = true ∧ vw = s.format.width ∧ done < framePix

/-- The driver writes to no buffer of the ring but the last. -/
theorem Sound.rawBuf_ne (h : s.Sound) : s.strm.rawBuf ≠ s.depth.buf0 ∧ s.strm.rawBuf ≠ s.depth.buf1 := by
  have hraw := h.rawBuf
  have hnodup := h.nodup
  simp only [bufs, List.nodup_cons, List.mem_cons, List.not_mem_nil, or_false, not_or] at hraw hnodup
  split at hraw
  · exact ⟨hraw.1, hraw.2.1⟩
  · rw [hraw]
    exact ⟨Ne.symm hnodup.1.2, Ne.symm hnodup.2.1⟩

theorem Sound.procBuf_ne (h : s.Sound) : s.strm.procBuf ≠ s.depth.buf0 ∧ s.strm.procBuf ≠ s.depth.buf1 := by
  have hnodup := h.nodup
  simp only [bufs, List.nodup_cons, List.mem_cons, List.not_mem_nil, or_false, not_or] at hnodup
  rw [h.procBuf]
  exact ⟨Ne.symm hnodup.1.2, Ne.symm hnodup.2.1⟩

/-! ### A packet -/

/-- What a packet does to a session: nothing, or what it does to the stream. -/
theorem packet_cases (h : s.strm.Started) (pkt : List UInt8) :
    let out := streamProcess ⟨s.strm, s.mem s.strm.rawBuf⟩ pkt
    s.packet pkt =
      { s with
        strm := out.1.strm
        mem := Function.update s.mem s.strm.rawBuf out.1.raw
        phase := if out.2 = 0 then s.phase else s.format.process } := by
  intro out
  have hrun : (!s.strm.running) = false := by rw [h.running]; rfl
  by_cases hlen : pkt.length = 0
  · have hout : out = (⟨s.strm, s.mem s.strm.rawBuf⟩, 0) := by
      have hshort : pkt.length < pktHdrSize := by rw [hlen]; decide
      simp only [out, streamProcess, if_pos hshort]
    rw [packet, if_pos hlen, hout]
    simp only [Function.update_eq_self, if_true]
  · rw [packet, if_neg hlen, hrun]
    simp only [Bool.false_eq_true, if_false]
    by_cases hsize : out.2 = 0
    · simp only [out] at hsize ⊢
      simp only [hsize, if_true]
    · simp only [out] at hsize ⊢
      simp only [hsize, if_false]

theorem Sound.packet (h : s.Sound) (hidle : s.phase = .idle) (pkt : List UInt8) : (s.packet pkt).Sound := by
  have hset := PacketStream.setup_streamProcess ⟨s.strm, s.mem s.strm.rawBuf⟩ pkt
  rw [packet_cases h.started pkt]
  constructor
  · exact h.started.of_setup hset
  · exact h.nodup
  · exact h.ne_null
  · exact (congrArg PacketStream.usrBuf hset :).trans h.usrBuf
  · exact (congrArg PacketStream.procBuf hset :).trans h.procBuf
  · have hraw : (streamProcess ⟨s.strm, s.mem s.strm.rawBuf⟩ pkt).1.strm.rawBuf = s.strm.rawBuf :=
      (congrArg PacketStream.rawBuf hset :)
    simp only [hraw]
    exact h.rawBuf
  · exact (congrArg PacketStream.splitBufs hset :).trans h.splitBufs
  · exact (congrArg PacketStream.frameSize hset :).trans h.frameSize
  · exact h.fmt
  · intro vw u done hphase
    simp only [hidle] at hphase
    split at hphase
    · cases hphase
    · rcases s.format.process_cases with ⟨hsplit, hproc⟩ | ⟨_, hproc⟩
      · rw [hproc] at hphase
        cases hphase
        exact ⟨hsplit, rfl, by decide⟩
      · rw [hproc] at hphase
        cases hphase

/-! ### The other steps -/

theorem Sound.pixel (h : s.Sound) {vw : ℕ} {u : Unpacker} {done : ℕ} (hphase : s.phase = .converting vw u done) :
    (s.pixel vw u done).Sound := by
  obtain ⟨hsplit, hvw, hdone⟩ := h.converting vw u done hphase
  constructor
  · exact h.started
  · exact h.nodup
  · exact h.ne_null
  · exact h.usrBuf
  · exact h.procBuf
  · exact h.rawBuf
  · exact h.splitBufs
  · exact h.frameSize
  · exact h.fmt
  · intro vw' u' done' hphase'
    simp only [Session.pixel] at hphase'
    split at hphase'
    · next hlt =>
        cases hphase'
        exact ⟨hsplit, hvw, hlt⟩
    · cases hphase'

theorem Sound.called (h : s.Sound) : s.called.Sound := by
  have hnull := h.ne_null
  have hnodup := h.nodup
  have hraw := h.rawBuf
  simp only [bufs, List.nodup_cons, List.mem_cons, List.not_mem_nil, or_false, not_or, not_false_eq_true,
    List.nodup_nil, and_true] at hnull hnodup hraw
  have hstrm : s.called.strm = s.strm.redirect s.depth.buf1 :=
    PacketStream.setbuf_of_running h.started.running (Ne.symm hnull.2.1)
  constructor
  · rw [hstrm]; exact h.started.redirect _
  · simp only [bufs, Session.called, List.nodup_cons, List.mem_cons, List.not_mem_nil, or_false, not_or,
      not_false_eq_true, List.nodup_nil, and_true]
    exact ⟨⟨hnodup.1.2, hnodup.1.1⟩, Ne.symm hnodup.2⟩
  · simp only [bufs, Session.called, List.mem_cons, List.not_mem_nil, or_false, not_or]
    exact ⟨hnull.1, hnull.2.2, hnull.2.1⟩
  · rw [hstrm]; rfl
  · rw [hstrm]; rfl
  · rw [hstrm]
    simp only [bufs, Session.called, PacketStream.redirect, h.splitBufs, List.mem_cons, List.not_mem_nil, or_false,
      not_or]
    split
    · next hunp =>
        rw [if_pos hunp] at hraw
        exact ⟨hraw.1, hraw.2.2, hraw.2.1⟩
    · rfl
  · rw [hstrm]; exact h.splitBufs
  · rw [hstrm]; exact h.frameSize
  · exact h.fmt
  · intro vw u done hphase; cases hphase

theorem Sound.fetched (h : s.Sound) : s.fetched.Sound := by
  have hnull := h.ne_null
  have hnodup := h.nodup
  have hraw := h.rawBuf
  simp only [bufs, List.nodup_cons, List.mem_cons, List.not_mem_nil, or_false, not_or, not_false_eq_true,
    List.nodup_nil, and_true] at hnull hnodup hraw
  constructor
  · exact h.started
  · simp only [bufs, Session.fetched, List.nodup_cons, List.mem_cons, List.not_mem_nil, or_false, not_or,
      not_false_eq_true, List.nodup_nil, and_true]
    exact ⟨⟨Ne.symm hnodup.1.1, hnodup.2⟩, hnodup.1.2⟩
  · simp only [bufs, Session.fetched, List.mem_cons, List.not_mem_nil, or_false, not_or]
    exact ⟨hnull.2.1, hnull.1, hnull.2.2⟩
  · exact h.usrBuf
  · exact h.procBuf
  · simp only [bufs, Session.fetched, List.mem_cons, List.not_mem_nil, or_false, not_or]
    split
    · next hunp =>
        rw [if_pos hunp] at hraw
        exact ⟨hraw.2.1, hraw.1, hraw.2.2⟩
    · next hunp =>
        rw [if_neg hunp] at hraw
        exact hraw
  · exact h.splitBufs
  · exact h.frameSize
  · exact h.fmt
  · exact h.converting

/-! ### A change of the format -/

theorem changeDepthFormat_eq (s : Session) (fmt : DepthFormat) (blocks : Blocks) :
    s.changeDepthFormat fmt blocks =
      { s with
        strm := ({ s.strm.stopDepth.1 with usrBuf := blocks.buf2 : PacketStream }.startDepth
          blocks.lib blocks.raw fmt).1
        depth := allocBufferRingDepth fmt blocks
        format := fmt } := by
  have hstop := s.strm.stopDepth_running
  simp [changeDepthFormat, setDepthFormat, PacketStream.setbuf, hstop, allocBufferRingDepth]

end Session

/-- The buffers of a stream that is started with a buffer of the client. -/
theorem PacketStream.init_bufs {strm : PacketStream} (husr : strm.usrBuf ≠ 0) (rlen plen : ℕ) (lib raw : Ptr) :
    let strm' := strm.init rlen plen lib raw
    strm'.usrBuf = strm.usrBuf ∧ strm'.procBuf = strm.usrBuf ∧ strm'.splitBufs = decide (rlen ≠ 0) ∧
      (strm'.rawBuf = if rlen ≠ 0 then raw else strm.usrBuf) ∧ strm'.frameSize = if rlen ≠ 0 then rlen else plen := by
  by_cases hrlen : rlen = 0
  · simp only [init, husr, hrlen, ne_eq, not_false_eq_true, if_true, not_true, if_false, decide_false]
    split
    · exact ⟨rfl, rfl, rfl, rfl, rfl⟩
    · exact ⟨rfl, rfl, rfl, rfl, rfl⟩
  · simp only [init, husr, hrlen, ne_eq, not_false_eq_true, if_true, if_false, decide_true]
    split
    · exact ⟨rfl, rfl, rfl, rfl, rfl⟩
    · exact ⟨rfl, rfl, rfl, rfl, rfl⟩

theorem PacketStream.startDepth_bufs {strm : PacketStream} (hrun : strm.running = false) (husr : strm.usrBuf ≠ 0)
    (lib raw : Ptr) (fmt : DepthFormat) :
    let strm' := (strm.startDepth lib raw fmt).1
    strm'.usrBuf = strm.usrBuf ∧ strm'.procBuf = strm.usrBuf ∧ strm'.splitBufs = fmt.unpacked ∧
      (strm'.rawBuf = if fmt.unpacked then raw else strm.usrBuf) ∧ strm'.frameSize = fmt.frameBytes := by
  have hrun' : ¬ strm.running = true := by simp [hrun]
  let strm' : PacketStream := { strm with pktSize := depthPktDSize, flag := 0x70, variableLength := false }
  have husr' : strm'.usrBuf ≠ 0 := husr
  rw [startDepth, if_neg hrun']
  cases fmt with
  | bits11 => exact init_bufs husr' depthPacked11Size depthSize lib raw
  | bits10 => exact init_bufs husr' depthPacked10Size depthSize lib raw
  | packed11 => exact init_bufs husr' 0 depthPacked11Size lib raw
  | packed10 => exact init_bufs husr' 0 depthPacked11Size lib raw

theorem PacketStream.startDepth_sizes {strm : PacketStream} (hrun : strm.running = false) (lib raw : Ptr)
    (fmt : DepthFormat) :
    (strm.startDepth lib raw fmt).1.pktSize = depthPktDSize ∧
      (strm.startDepth lib raw fmt).1.pktsPerFrame = (fmt.frameBytes + depthPktDSize - 1) / depthPktDSize := by
  have hrun' : ¬ strm.running = true := by simp [hrun]
  rw [startDepth, if_neg hrun']
  cases fmt with
  | bits11 => exact ⟨init_pktSize _ _ _ _ _, init_pktsPerFrame _ _ _ _ _⟩
  | bits10 => exact ⟨init_pktSize _ _ _ _ _, init_pktsPerFrame _ _ _ _ _⟩
  | packed11 => exact ⟨init_pktSize _ _ _ _ _, init_pktsPerFrame _ _ _ _ _⟩
  | packed10 => exact ⟨init_pktSize _ _ _ _ _, init_pktsPerFrame _ _ _ _ _⟩

theorem PacketStream.init_synced (strm : PacketStream) (rlen plen : ℕ) (lib raw : Ptr) :
    (strm.init rlen plen lib raw).synced = false := by
  simp only [init]
  split_ifs <;> rfl

theorem PacketStream.startDepth_synced {strm : PacketStream} (hrun : strm.running = false) (lib raw : Ptr)
    (fmt : DepthFormat) : (strm.startDepth lib raw fmt).1.synced = false := by
  have hrun' : ¬ strm.running = true := by simp [hrun]
  rw [startDepth, if_neg hrun']
  cases fmt with
  | bits11 => exact init_synced _ _ _ _ _
  | bits10 => exact init_synced _ _ _ _ _
  | packed11 => exact init_synced _ _ _ _ _
  | packed10 => exact init_synced _ _ _ _ _

namespace Session

theorem Sound.changeDepthFormat (hidle : s.phase = .idle) (fmt : DepthFormat) (blocks : Blocks) :
    (s.changeDepthFormat fmt blocks).Sound := by
  have hnodup := blocks.nodup
  have hnull := blocks.ne_null
  simp only [List.nodup_cons, List.mem_cons, List.not_mem_nil, or_false, not_or, not_false_eq_true, List.nodup_nil,
    and_true] at hnodup hnull
  have hrun := s.strm.stopDepth_usrBuf_running blocks.buf2
  obtain ⟨husr, hproc, hsplit, hraw, hsize⟩ :=
    PacketStream.startDepth_bufs hrun blocks.buf2_ne_zero blocks.lib blocks.raw fmt
  rw [changeDepthFormat_eq]
  constructor
  · exact PacketStream.startDepth_started hrun blocks.lib blocks.raw fmt
  · simp only [bufs, allocBufferRingDepth, List.nodup_cons, List.mem_cons, List.not_mem_nil, or_false, not_or,
      not_false_eq_true, List.nodup_nil, and_true]
    exact ⟨⟨hnodup.1.1, hnodup.1.2.1⟩, hnodup.2.1.1⟩
  · simp only [bufs, allocBufferRingDepth, List.mem_cons, List.not_mem_nil, or_false, not_or]
    exact ⟨hnull.1, hnull.2.1, hnull.2.2.1⟩
  · exact husr
  · exact hproc
  · simp only [hraw, bufs, allocBufferRingDepth, List.mem_cons, List.not_mem_nil, or_false, not_or]
    split
    · exact ⟨Ne.symm hnodup.1.2.2.2, Ne.symm hnodup.2.1.2.2, Ne.symm hnodup.2.2.1.2⟩
    · rfl
  · exact hsplit
  · exact hsize
  · rfl
  · intro vw u done hphase
    rw [show s.phase = .converting vw u done from hphase] at hidle
    cases hidle

theorem changeDepthFormat_synced (s : Session) (fmt : DepthFormat) (blocks : Blocks) :
    (s.changeDepthFormat fmt blocks).strm.synced = false := by
  have hrun := s.strm.stopDepth_usrBuf_running blocks.buf2
  rw [changeDepthFormat_eq]
  exact PacketStream.startDepth_synced hrun _ _ _

theorem changeDepthFormat_rawBuf (s : Session) (fmt : DepthFormat) (blocks : Blocks) :
    (s.changeDepthFormat fmt blocks).strm.rawBuf = if fmt.unpacked then blocks.raw else blocks.buf2 := by
  have hrun := s.strm.stopDepth_usrBuf_running blocks.buf2
  rw [changeDepthFormat_eq]
  exact (PacketStream.startDepth_bufs hrun blocks.buf2_ne_zero blocks.lib blocks.raw fmt).2.2.2.1

theorem changeDepthFormat_sizes (s : Session) (fmt : DepthFormat) (blocks : Blocks) :
    (s.changeDepthFormat fmt blocks).strm.pktSize = depthPktDSize ∧
      (s.changeDepthFormat fmt blocks).strm.pktsPerFrame = (fmt.frameBytes + depthPktDSize - 1) / depthPktDSize := by
  have hrun := s.strm.stopDepth_usrBuf_running blocks.buf2
  rw [changeDepthFormat_eq]
  exact PacketStream.startDepth_sizes hrun blocks.lib blocks.raw fmt

theorem changeDepthFormat_format (s : Session) (fmt : DepthFormat) (blocks : Blocks) :
    (s.changeDepthFormat fmt blocks).format = fmt := by
  rw [changeDepthFormat_eq]

theorem changeDepthFormat_phase (s : Session) (fmt : DepthFormat) (blocks : Blocks) :
    (s.changeDepthFormat fmt blocks).phase = s.phase := by
  rw [changeDepthFormat_eq]

/-- Every step of either side keeps the session sound. -/
theorem Sound.step (h : s.Sound) (hstep : s.step e = some s') : s'.Sound := by
  obtain ⟨pkt, rfl, hidle, rfl⟩ | ⟨vw, u, done, rfl, hphase, rfl⟩ | ⟨rfl, _, _, rfl⟩ | ⟨rfl, _, rfl⟩ |
    ⟨fmt, blocks, rfl, hidle, rfl⟩ := step_cases hstep
  · exact h.packet hidle pkt
  · exact h.pixel hphase
  · exact h.called
  · exact h.fetched
  · split
    · exact Sound.changeDepthFormat hidle fmt blocks
    · exact h

theorem Sound.exec {evs : List Event} (h : s.Sound) (hexec : Machine.exec Session.step s evs = some s') : s'.Sound :=
  Machine.invariant _ (fun _ => True) (fun _ _ _ h _ hstep => h.step hstep) h (fun _ _ => trivial) hexec

end Session

end CarBoundary

import CarBoundary.Camera.Lemmas.Tracking
import CarBoundary.Sync.Lemmas.Ready

/-!
# The stream behind the ring

For a format that is unpacked, the packets are put together in a block of the driver's own, so that exchanging the
buffers does not disturb them. The session does to the packets what `streamRun` does, however its other steps fall
between them, and hands out a conversion of each frame that `streamFrames` lists (`Linked`).
-/

namespace CarBoundary

/-! ## Where the frames go does not matter -/

namespace PacketStream

variable {s s' : PacketStream} {p : Ptr}

theorem sync_redirect (s : PacketStream) (p : Ptr) (hdr : PktHdr) :
    (s.redirect p).sync hdr = (s.sync hdr).map fun s => s.redirect p := by
  have hsynced : (s.redirect p).synced = s.synced := rfl
  have hsof : (s.redirect p).sof = s.sof := rfl
  simp only [sync, hsynced, hsof]
  by_cases hsync : s.synced = true
  · simp only [if_pos hsync, Option.map_some]
  · by_cases hflag : hdr.flag ≠ s.sof
    · simp only [if_neg hsync, if_pos hflag, Option.map_none]
    · simp only [if_neg hsync, if_neg hflag, Option.map_some]
      rfl

theorem handleLost_redirect (s : PacketStream) (p : Ptr) (hdr : PktHdr) :
    (s.redirect p).handleLost hdr = (s.handleLost hdr).map fun out => (out.1.redirect p, out.2) := by
  have hseq' : (s.redirect p).seq = s.seq := rfl
  have hvar' : (s.redirect p).variableLength = s.variableLength := rfl
  have hpkts' : (s.redirect p).pktsPerFrame = s.pktsPerFrame := rfl
  have hnum' : (s.redirect p).pktNum = s.pktNum := rfl
  simp only [handleLost, hseq', hvar', hpkts', hnum']
  by_cases hseq : s.seq ≠ hdr.seq
  · by_cases hmany : (hdr.seq - s.seq).toNat > 5 ∨ s.variableLength = true
    · simp only [if_pos hseq, if_pos hmany, Option.map_none]
    · by_cases hleft : (s.pktsPerFrame : ℤ) - s.pktNum ≤ (hdr.seq - s.seq).toNat
      · simp only [if_pos hseq, if_neg hmany, if_pos hleft, Option.map_some]
        rfl
      · simp only [if_pos hseq, if_neg hmany, if_neg hleft, Option.map_some]
        rfl
  · simp only [if_neg hseq, Option.map_some]

theorem place_redirect (s : PacketStream) (p : Ptr) (hdr : PktHdr) (data : List UInt8) (got : ℕ) (raw : Bytes) :
    place hdr data (s.redirect p) got raw =
      (⟨(place hdr data s got raw).1.strm.redirect p, (place hdr data s got raw).1.raw⟩,
        (place hdr data s got raw).2) := by
  have hverdict : (s.redirect p).verdict hdr.flag data.length = s.verdict hdr.flag data.length := rfl
  have heof : (s.redirect p).eof = s.eof := rfl
  cases hv : s.verdict hdr.flag data.length with
  | resync => simp only [place, hverdict, hv]; rfl
  | drop => simp only [place, hverdict, hv]
  | copy =>
      simp only [place, hverdict, hv, heof]
      split
      · rfl
      · rfl

theorem streamProcess_redirect (asm : Assembly) (p : Ptr) (pkt : List UInt8) :
    streamProcess ⟨asm.strm.redirect p, asm.raw⟩ pkt =
      (⟨(streamProcess asm pkt).1.strm.redirect p, (streamProcess asm pkt).1.raw⟩, (streamProcess asm pkt).2) := by
  simp only [streamProcess]
  by_cases hlen : pkt.length < pktHdrSize
  · simp only [hlen, if_true]
  · simp only [hlen, if_false]
    by_cases hmagic : (PktHdr.read pkt).magic0 ≠ 0x52 ∨ (PktHdr.read pkt).magic1 ≠ 0x42
    · simp only [hmagic, if_true]
    · simp only [hmagic, if_false, sync_redirect]
      cases asm.strm.sync (PktHdr.read pkt) with
      | none => rfl
      | some s =>
          simp only [Option.map_some, handleLost_redirect]
          cases s.handleLost (PktHdr.read pkt) with
          | none => rfl
          | some out => simp only [Option.map_some, place_redirect]

end PacketStream

/-! ## The relation -/

/-- The picture is what the conversion makes of a frame. -/
def Converted (vw : ℕ) (pic : Picture) (asm : Assembly) : Prop :=
  pic.timestamp = asm.strm.timestamp ∧ ∃ dst, pic.bytes = convertPackedTo16bit asm.raw vw framePix dst

/-- The frame that the driver is about to hand out. -/
def Session.pending (s : Session) (asm : Assembly) : List Assembly :=
  match s.phase with
  | .idle => []
  | .converting _ _ _ => [asm]
  | .calling => [asm]

/-- The session has seen the packets `pkts` and handed out the pictures `pics` since the stream was `asm0`. -/
structure Linked (fmt : DepthFormat) (asm0 : Assembly) (pkts : List (List UInt8)) (pics : List Picture) (s : Session) :
    Prop where
  unpacked : fmt.unpacked = true
  format : s.format = fmt
  strm : s.strm = (streamRun asm0 pkts).strm.redirect s.depth.buf2
  raw : s.mem s.strm.rawBuf = (streamRun asm0 pkts).raw
  frames : ∃ frames, List.Forall₂ (Converted fmt.width) pics frames ∧
    streamFrames asm0 pkts = frames ++ s.pending (streamRun asm0 pkts)
  converting : ∀ vw u done, s.phase = .converting vw u done → ∃ dst,
    (⟨u, done, s.mem s.strm.procBuf⟩ : Conversion) =
      (Conversion.step16 (streamRun asm0 pkts).raw vw)^[done] (.start dst)
  calling : s.phase = .calling → ∃ dst,
    s.mem s.strm.procBuf = convertPackedTo16bit (streamRun asm0 pkts).raw fmt.width framePix dst

/-- The packets of an event. -/
def Event.pkts : Event → List (List UInt8)
  | .packet pkt => [pkt]
  | _ => []

def Event.isSetup : Event → Bool
  | .setup _ _ => true
  | _ => false

theorem Event.isSetup_of_driver {e : Event} (h : e.ofDriver = true) : e.isSetup = false := by
  cases e with
  | setup fmt blocks => cases h
  | _ => rfl

/-- The slot is cleared by a change of the format only. -/
theorem Session.ne_clear_of_not_setup {evs : List Event} (hevs : ∀ e ∈ evs, e.isSetup = false) (s : Session) :
    ∀ mail ∈ Machine.trace Session.step Session.emit s evs, mail ≠ .clear := by
  refine Machine.forall_trace (fun e he s mail hmail => ?_) s
  cases e with
  | packet pkt => cases hmail
  | pixel => cases hmail
  | callback =>
      rw [List.mem_singleton.mp hmail]
      simp
  | get =>
      rw [Session.emit] at hmail
      split at hmail
      · rw [List.mem_singleton.mp hmail]
        simp
      · cases hmail
  | setup fmt blocks => exact absurd (hevs _ he) (by simp [Event.isSetup])

variable {fmt : DepthFormat} {asm0 : Assembly} {pkts : List (List UInt8)} {pics : List Picture} {s s' : Session}
  {e : Event}

theorem Linked.start (h : s.Sound) (hunp : s.format.unpacked = true) (hidle : s.phase = .idle) :
    Linked s.format ⟨s.strm, s.mem s.strm.rawBuf⟩ [] [] s := by
  constructor
  · exact hunp
  · rfl
  · have hstrm : s.strm.redirect s.depth.buf2 = s.strm := by
      have husr := h.usrBuf
      have hproc := h.procBuf
      have hsplit := h.splitBufs.trans hunp
      cases hs : s.strm
      simp only [hs] at husr hproc hsplit
      simp only [PacketStream.redirect, husr, hproc, hsplit, if_true]
    exact hstrm.symm
  · rfl
  · refine ⟨[], .nil, ?_⟩
    simp only [streamFrames, Session.pending, hidle, List.append_nil]
  · intro vw u done hphase
    rw [hidle] at hphase
    cases hphase
  · intro hphase
    rw [hidle] at hphase
    cases hphase

theorem Linked.packet (hs : s.Sound) (h : Linked fmt asm0 pkts pics s) (hidle : s.phase = .idle) (pkt : List UInt8) :
    Linked fmt asm0 (pkts ++ [pkt]) pics (s.packet pkt) := by
  have hraw := h.raw
  obtain ⟨frames, hconv, hframes⟩ := h.frames
  have hprocess : streamProcess ⟨s.strm, s.mem s.strm.rawBuf⟩ pkt =
      (⟨(streamProcess (streamRun asm0 pkts) pkt).1.strm.redirect s.depth.buf2,
        (streamProcess (streamRun asm0 pkts) pkt).1.raw⟩, (streamProcess (streamRun asm0 pkts) pkt).2) := by
    rw [hraw, h.strm]
    exact PacketStream.streamProcess_redirect (streamRun asm0 pkts) s.depth.buf2 pkt
  have hset := PacketStream.setup_streamProcess ⟨s.strm, s.mem s.strm.rawBuf⟩ pkt
  have hrawBuf : (streamProcess ⟨s.strm, s.mem s.strm.rawBuf⟩ pkt).1.strm.rawBuf = s.strm.rawBuf :=
    (congrArg PacketStream.rawBuf hset :)
  have hrun : streamRun asm0 (pkts ++ [pkt]) = (streamProcess (streamRun asm0 pkts) pkt).1 := by
    rw [streamRun_append]; rfl
  have hlist : streamFrames asm0 (pkts ++ [pkt]) = frames ++
      if (streamProcess (streamRun asm0 pkts) pkt).2 = 0 then []
      else [(streamProcess (streamRun asm0 pkts) pkt).1] := by
    rw [streamFrames_append, hframes, Session.pending, hidle, List.append_nil, streamFrames, streamFrames]
  rw [Session.packet_cases hs.started pkt]
  constructor
  · exact h.unpacked
  · exact h.format
  · simp only [hprocess, hrun]
  · simp only [hrawBuf, Function.update_self]
    rw [hprocess, hrun]
  · refine ⟨frames, hconv, ?_⟩
    rw [hlist, hrun]
    simp only [Session.pending, hprocess, hidle]
    rcases s.format.process_cases with ⟨_, hproc⟩ | ⟨hpacked, _⟩
    · rw [hproc]
      split
      · rfl
      · rfl
    · rw [h.format, h.unpacked] at hpacked
      cases hpacked
  · intro vw u done hphase
    simp only [hprocess, hidle] at hphase
    split at hphase
    · cases hphase
    · rcases s.format.process_cases with ⟨_, hproc⟩ | ⟨hpacked, _⟩
      · rw [hproc] at hphase
        cases hphase
        exact ⟨_, rfl⟩
      · rw [h.format, h.unpacked] at hpacked
        cases hpacked
  · intro hphase
    simp only [hprocess, hidle] at hphase
    split at hphase
    · cases hphase
    · rcases s.format.process_cases with ⟨_, hproc⟩ | ⟨hpacked, _⟩
      · rw [hproc] at hphase
        cases hphase
      · rw [h.format, h.unpacked] at hpacked
        cases hpacked

theorem Linked.pixel (hs : s.Sound) (h : Linked fmt asm0 pkts pics s) {vw : ℕ} {u : Unpacker} {done : ℕ}
    (hphase : s.phase = .converting vw u done) : Linked fmt asm0 pkts pics (s.pixel vw u done) := by
  obtain ⟨_, hvw, hdone⟩ := hs.converting vw u done hphase
  obtain ⟨dst, hdst⟩ := h.converting vw u done hphase
  obtain ⟨frames, hconv, hframes⟩ := h.frames
  have hraw := h.raw
  have hne : s.strm.rawBuf ≠ s.strm.procBuf := by
    have hnot := hs.rawBuf
    rw [h.format, if_pos h.unpacked] at hnot
    rw [hs.procBuf]
    intro heq
    exact hnot (by rw [heq]; simp [Session.bufs])
  have hnext : (⟨u.next (s.mem s.strm.rawBuf) vw, done + 1, (s.pixel vw u done).mem s.strm.procBuf⟩ : Conversion) =
      (Conversion.step16 (streamRun asm0 pkts).raw vw)^[done + 1] (.start dst) := by
    rw [Function.iterate_succ_apply', ← hdst, hraw]
    simp only [Session.pixel, Function.update_self, Conversion.step16, hraw]
  constructor
  · exact h.unpacked
  · exact h.format
  · exact h.strm
  · exact (Session.mem_pixel s vw u done hne).trans hraw
  · refine ⟨frames, hconv, ?_⟩
    rw [hframes]
    simp only [Session.pending, hphase, Session.pixel]
    split
    · next heq => split at heq <;> cases heq
    · rfl
    · rfl
  · intro vw' u' done' hphase'
    simp only [Session.pixel] at hphase'
    split at hphase'
    · cases hphase'
      exact ⟨dst, hnext⟩
    · cases hphase'
  · intro hphase'
    simp only [Session.pixel] at hphase'
    split at hphase'
    · cases hphase'
    · have hlast : done + 1 = framePix := by omega
      refine ⟨dst, ?_⟩
      rw [hlast, hvw, h.format] at hnext
      have hmem := congrArg Conversion.dst hnext
      rw [convertPackedTo16bit, ← hmem, hvw, h.format]
      rfl

theorem Linked.called (hs : s.Sound) (h : Linked fmt asm0 pkts pics s) (hphase : s.phase = .calling) :
    Linked fmt asm0 pkts (pics ++ [⟨s.mem s.strm.procBuf, s.strm.timestamp⟩]) s.called := by
  have hnull := hs.ne_null
  simp only [Session.bufs, List.mem_cons, List.not_mem_nil, or_false, not_or] at hnull
  have hstrm : s.called.strm = s.strm.redirect s.depth.buf1 :=
    PacketStream.setbuf_of_running hs.started.running (Ne.symm hnull.2.1)
  have hsplit : s.strm.splitBufs = true := by rw [hs.splitBufs, h.format, h.unpacked]
  obtain ⟨frames, hconv, hframes⟩ := h.frames
  obtain ⟨dst, hdst⟩ := h.calling hphase
  constructor
  · exact h.unpacked
  · exact h.format
  · rw [hstrm, h.strm]
    simp only [PacketStream.redirect, Session.called]
    split
    · rfl
    · rfl
  · rw [hstrm]
    simp only [PacketStream.redirect, hsplit, if_true]
    exact h.raw
  · refine ⟨frames ++ [streamRun asm0 pkts], List.rel_append hconv (.cons ⟨?_, dst, hdst⟩ .nil), ?_⟩
    · exact (congrArg PacketStream.timestamp h.strm :)
    · rw [hframes, Session.pending, hphase]
      exact (List.append_nil _).symm
  · intro vw u done hphase'; cases hphase'
  · intro hphase'; cases hphase'

theorem Linked.fetched (h : Linked fmt asm0 pkts pics s) : Linked fmt asm0 pkts pics s.fetched :=
  ⟨h.unpacked, h.format, h.strm, h.raw, h.frames, h.converting, h.calling⟩

open Mailbox in
theorem Linked.step (hs : s.Sound) (h : Linked fmt asm0 pkts pics s) (he : e.isSetup = false)
    (hstep : s.step e = some s') :
    Linked fmt asm0 (pkts ++ e.pkts) (pics ++ posts (s.emit e)) s' := by
  obtain ⟨pkt, rfl, hidle, rfl⟩ | ⟨vw, u, done, rfl, hphase, rfl⟩ | ⟨rfl, hphase, _, rfl⟩ | ⟨rfl, hvalid, rfl⟩ |
    ⟨fmt, blocks, rfl, _, rfl⟩ := Session.step_cases hstep
  · simp only [Session.emit, posts_nil, List.append_nil]
    exact h.packet hs hidle pkt
  · simp only [Session.emit, Event.pkts, posts_nil, List.append_nil]
    exact h.pixel hs hphase
  · simp only [Session.emit, Event.pkts, posts_post, posts_nil, List.append_nil]
    exact h.called hs hphase
  · rw [Session.emit_get hvalid]
    simp only [Event.pkts, posts_take, posts_nil, List.append_nil]
    exact h.fetched
  · cases he

open Mailbox in
/-- However the threads take their turns, the pictures are those of the frames of the stream. -/
theorem Linked.exec {evs : List Event} (hs : s.Sound) (h : Linked fmt asm0 pkts pics s)
    (hevs : ∀ e ∈ evs, e.isSetup = false) (hexec : Machine.exec Session.step s evs = some s') :
    Linked fmt asm0 (pkts ++ evs.flatMap Event.pkts)
      (pics ++ posts (Machine.trace Session.step Session.emit s evs)) s' := by
  induction evs generalizing s pkts pics with
  | nil =>
      cases hexec
      simpa only [List.flatMap_nil, List.append_nil, Machine.trace, posts_nil] using h
  | cons e evs ih =>
      obtain ⟨t, hstep, hrest⟩ := Machine.exec_cons_eq_some.mp hexec
      have hnext := ih (hs.step hstep) (h.step hs (hevs e List.mem_cons_self) hstep)
        (fun e' he' => hevs e' (List.mem_cons_of_mem _ he')) hrest
      rw [Machine.trace_cons hstep, List.flatMap_cons, posts_append, ← List.append_assoc, ← List.append_assoc]
      exact hnext

end CarBoundary

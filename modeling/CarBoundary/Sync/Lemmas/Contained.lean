import CarBoundary.Camera.Lemmas.Stream
import CarBoundary.Camera.Lemmas.Unpack
import CarBoundary.Sync.Lemmas.Linked

/-!
# Where the driver writes

The packets of a format fill a frame, and the conversion of a frame fills a buffer of the ring. Nothing else is
written as long as the format stays the same, whatever the packets are.
-/

namespace CarBoundary

/-- The bytes of a buffer of the ring that the driver writes to. -/
def DepthFormat.reach (fmt : DepthFormat) : ℕ := if fmt.unpacked then depthSize else fmt.frameBytes

variable {s0 s s' : Session} {e : Event}

/-- The byte lies behind what the driver writes to in a session that began as `s0`. -/
def Session.Beyond (s0 : Session) (p : Ptr) (a : ℕ) : Prop :=
  (p ∈ s0.bufs → s0.format.reach ≤ a) ∧ (p = s0.strm.rawBuf → s0.format.frameBytes ≤ a)

structure Contained (s0 s : Session) : Prop where
  inFrame : s.strm.InFrame
  format : s.format = s0.format
  bufs : ∀ p, p ∈ s.bufs ↔ p ∈ s0.bufs
  rawBuf : s0.format.unpacked = true → s.strm.rawBuf = s0.strm.rawBuf
  mem : ∀ p a, s0.Beyond p a → s.mem p a = s0.mem p a

theorem Contained.refl (h : s0.strm.synced = false) : Contained s0 s0 where
  inFrame hsync := by rw [h] at hsync; cases hsync
  format := rfl
  bufs _ := Iff.rfl
  rawBuf _ := rfl
  mem _ _ _ := rfl

theorem Contained.packet (hs : s.Sound) (h : Contained s0 s) (pkt : List UInt8) : Contained s0 (s.packet pkt) := by
  have hset := PacketStream.setup_streamProcess ⟨s.strm, s.mem s.strm.rawBuf⟩ pkt
  have hraw : (streamProcess ⟨s.strm, s.mem s.strm.rawBuf⟩ pkt).1.strm.rawBuf = s.strm.rawBuf :=
    (congrArg PacketStream.rawBuf hset :)
  have hsafe : Safe ⟨s.strm, s.mem s.strm.rawBuf⟩ (streamProcess ⟨s.strm, s.mem s.strm.rawBuf⟩ pkt) :=
    Safe.streamProcess hs.started.sized h.inFrame pkt
  rw [Session.packet_cases hs.started pkt]
  constructor
  · exact hsafe.inFrame
  · exact h.format
  · exact h.bufs
  · exact fun hunp => hraw.trans (h.rawBuf hunp)
  · intro p a hbeyond
    by_cases hp : p = s.strm.rawBuf
    · -- the packets go to a block of their own, or to the last buffer of the ring
      have hframe : s0.format.frameBytes ≤ a := by
        have hplace := hs.rawBuf
        rw [h.format] at hplace
        cases hunp : s0.format.unpacked with
        | true => exact hbeyond.2 (hp.trans (h.rawBuf hunp))
        | false =>
            rw [hunp, if_neg Bool.false_ne_true] at hplace
            have hmem : p ∈ s.bufs := by rw [hp, hplace]; simp [Session.bufs]
            have hreach := hbeyond.1 ((h.bufs p).mp hmem)
            rwa [DepthFormat.reach, hunp, if_neg Bool.false_ne_true] at hreach
      subst hp
      simp only [Function.update_self]
      rw [hsafe.beyond a]
      · exact h.mem _ a hbeyond
      · change s.strm.frameSize ≤ a
        rw [hs.frameSize, h.format]
        exact hframe
    · simp only [Function.update_of_ne hp]
      exact h.mem p a hbeyond

theorem Contained.pixel (hs : s.Sound) (h : Contained s0 s) {vw : ℕ} {u : Unpacker} {done : ℕ}
    (hphase : s.phase = .converting vw u done) : Contained s0 (s.pixel vw u done) := by
  obtain ⟨hunp, _, hdone⟩ := hs.converting vw u done hphase
  constructor
  · exact h.inFrame
  · exact h.format
  · exact h.bufs
  · exact h.rawBuf
  · intro p a hbeyond
    by_cases hp : p = s.strm.procBuf
    · have hmem : p ∈ s.bufs := by rw [hp, hs.procBuf]; simp [Session.bufs]
      have hreach := hbeyond.1 ((h.bufs p).mp hmem)
      rw [DepthFormat.reach, ← h.format, hunp, if_pos rfl] at hreach
      have hlast : 2 * (done + 1) ≤ a := by
        have hsize : depthSize = 2 * framePix := Nat.mul_comm _ _
        omega
      subst hp
      simp only [Session.pixel, Function.update_self]
      rw [store16_of_le hlast]
      exact h.mem _ a hbeyond
    · rw [Session.mem_pixel s vw u done hp]
      exact h.mem p a hbeyond

theorem Contained.called (hs : s.Sound) (h : Contained s0 s) : Contained s0 s.called := by
  have hnull := hs.ne_null
  simp only [Session.bufs, List.mem_cons, List.not_mem_nil, or_false, not_or] at hnull
  have hstrm : s.called.strm = s.strm.redirect s.depth.buf1 :=
    PacketStream.setbuf_of_running hs.started.running (Ne.symm hnull.2.1)
  constructor
  · rw [hstrm]; exact h.inFrame
  · exact h.format
  · intro p
    rw [← h.bufs p]
    simp only [Session.bufs, Session.called, List.mem_cons, List.not_mem_nil, or_false]
    tauto
  · intro hunp
    have hsplit : s.strm.splitBufs = true := by rw [hs.splitBufs, h.format, hunp]
    rw [hstrm]
    simp only [PacketStream.redirect, hsplit, if_true]
    exact h.rawBuf hunp
  · exact h.mem

theorem Contained.fetched (h : Contained s0 s) : Contained s0 s.fetched := by
  refine ⟨h.inFrame, h.format, fun p => ?_, h.rawBuf, h.mem⟩
  rw [← h.bufs p]
  simp only [Session.bufs, Session.fetched, List.mem_cons, List.not_mem_nil, or_false]
  tauto

theorem Contained.step (hs : s.Sound) (h : Contained s0 s) (he : e.isSetup = false) (hstep : s.step e = some s') :
    Contained s0 s' := by
  obtain ⟨pkt, rfl, _, rfl⟩ | ⟨vw, u, done, rfl, hphase, rfl⟩ | ⟨rfl, _, _, rfl⟩ | ⟨rfl, _, rfl⟩ |
    ⟨fmt, blocks, rfl, _, rfl⟩ := Session.step_cases hstep
  · exact h.packet hs pkt
  · exact h.pixel hs hphase
  · exact h.called hs
  · exact h.fetched
  · cases he

theorem Contained.exec {evs : List Event} (hs : s.Sound) (h : Contained s0 s) (hevs : ∀ e ∈ evs, e.isSetup = false)
    (hexec : Machine.exec Session.step s evs = some s') : Contained s0 s' := by
  have hkept (t : Session) (e : Event) (t' : Session) (ht : t.Sound ∧ Contained s0 t) (he : e.isSetup = false)
      (hstep : t.step e = some t') : t'.Sound ∧ Contained s0 t' :=
    ⟨ht.1.step hstep, ht.2.step ht.1 he hstep⟩
  exact (Machine.invariant _ _ hkept ⟨hs, h⟩ hevs hexec).2

end CarBoundary

import CarBoundary.Camera.Stream
import Mathlib.Tactic.Linarith

/-!
# What a packet does to a stream

The members of a stream fall into those that the start of the stream sets (`setup`) and those that packets
change. A packet is at most copied to the place that `offset` gives, and that place lies within the frame
(`InFrame`), whatever the bytes of the packets are.
-/

namespace CarBoundary

/-! ## Memory -/

theorem memcpy_of_lt {offset a : ℕ} {data : List UInt8} {dst : Bytes} (h : a < offset) :
    memcpy offset data dst a = dst a := by
  simp [memcpy, Nat.not_le.mpr h]

theorem memcpy_of_le {offset a : ℕ} {data : List UInt8} {dst : Bytes} (h : offset + data.length ≤ a) :
    memcpy offset data dst a = dst a := by
  simp [memcpy, Nat.not_lt.mpr h]

theorem memcpy_add {offset k : ℕ} {data : List UInt8} {dst : Bytes} (h : k < data.length) :
    memcpy offset data dst (offset + k) = data.getD k 0 := by
  simp [memcpy, h]

namespace PacketStream

variable {s s' : PacketStream} {hdr : PktHdr} {got : ℕ}

/-! ## What packets leave alone -/

/-- The stream with everything wiped out that packets change. -/
def setup (s : PacketStream) : PacketStream :=
  { s with
    synced := false, seq := 0, gotPkts := 0, pktNum := 0, validPkts := 0, validFrames := 0, lastTimestamp := 0,
    timestamp := 0 }

@[simp]
theorem setup_unsync (s : PacketStream) : { s with synced := false : PacketStream }.setup = s.setup := rfl

@[simp]
theorem setup_advance (s : PacketStream) (hdr : PktHdr) : (s.advance hdr).setup = s.setup := rfl

@[simp]
theorem setup_finishFrame (s : PacketStream) : s.finishFrame.setup = s.setup := rfl

theorem setup_sync (h : s.sync hdr = some s') : s'.setup = s.setup := by
  simp only [sync] at h
  split at h
  · cases h; rfl
  · split at h
    · cases h
    · cases h; rfl

theorem setup_handleLost (h : s.handleLost hdr = some (s', got)) : s'.setup = s.setup := by
  simp only [handleLost] at h
  split at h
  · split at h
    · cases h
    · split at h
      · cases h; rfl
      · cases h; rfl
  · cases h; rfl

theorem setup_place (data : List UInt8) (s : PacketStream) (got : ℕ) (raw : Bytes) :
    (place hdr data s got raw).1.strm.setup = s.setup := by
  simp only [place]
  split
  · rfl
  · rfl
  · split
    · rfl
    · rfl

theorem setup_streamProcess (asm : Assembly) (pkt : List UInt8) :
    (streamProcess asm pkt).1.strm.setup = asm.strm.setup := by
  simp only [streamProcess]
  split
  · rfl
  · split
    · rfl
    · split
      · rfl
      · next s hs =>
          have hsync : s.setup = asm.strm.setup := setup_sync hs
          split
          · exact hsync
          · next s' got hl => rw [setup_place, setup_handleLost hl, hsync]

theorem setup_streamRun (asm : Assembly) (pkts : List (List UInt8)) :
    (streamRun asm pkts).strm.setup = asm.strm.setup := by
  induction pkts generalizing asm with
  | nil => rfl
  | cons pkt pkts ih => exact (ih _).trans (setup_streamProcess asm pkt)

/-! ## Sizes -/

/-- The frame is made of packets of one size and a last one that may be smaller. -/
structure Sized (s : PacketStream) : Prop where
  pktsPerFrame_pos : 0 < s.pktsPerFrame
  lastPktSize_le : s.lastPktSize ≤ s.pktSize
  frameSize_eq : s.frameSize = (s.pktsPerFrame - 1) * s.pktSize + s.lastPktSize

theorem Sized.of_setup (h : s.Sized) (hs : s'.setup = s.setup) : s'.Sized := by
  have hp : s'.pktsPerFrame = s.pktsPerFrame := (congrArg pktsPerFrame hs :)
  have hk : s'.pktSize = s.pktSize := (congrArg pktSize hs :)
  have hl : s'.lastPktSize = s.lastPktSize := (congrArg lastPktSize hs :)
  have hf : s'.frameSize = s.frameSize := (congrArg frameSize hs :)
  exact ⟨hp ▸ h.pktsPerFrame_pos, hk ▸ hl ▸ h.lastPktSize_le, by rw [hp, hk, hl, hf]; exact h.frameSize_eq⟩

/-- The computation of `pkts_per_frame` and `last_pkt_size`. -/
theorem frame_split {frame size : ℕ} (hsize : 0 < size) (hframe : 0 < frame) :
    frame = ((frame + size - 1) / size - 1) * size + (if frame % size = 0 then size else frame % size) := by
  have hdm := Nat.div_add_mod frame size
  by_cases h0 : frame % size = 0
  · have hpos : 0 < frame / size := Nat.div_pos (Nat.le_of_dvd hframe (Nat.dvd_of_mod_eq_zero h0)) hsize
    have hq : (frame + size - 1) / size = frame / size := by
      rw [show frame + size - 1 = size - 1 + size * (frame / size) by omega, Nat.add_mul_div_left _ _ hsize,
        Nat.div_eq_of_lt (by omega), zero_add]
    have hle : size ≤ frame / size * size := Nat.le_mul_of_pos_left _ hpos
    rw [hq, if_pos h0, Nat.sub_mul, Nat.one_mul, Nat.sub_add_cancel hle, Nat.div_mul_cancel (Nat.dvd_of_mod_eq_zero h0)]
  · have hlt := Nat.mod_lt frame hsize
    have hq : (frame + size - 1) / size = frame / size + 1 := by
      rw [show frame + size - 1 = frame % size - 1 + size * (frame / size + 1) by rw [Nat.mul_add]; omega,
        Nat.add_mul_div_left _ _ hsize, Nat.div_eq_of_lt (by omega), zero_add]
    rw [hq, if_neg h0, Nat.add_sub_cancel, Nat.mul_comm, hdm]

theorem init_pktSize (s : PacketStream) (rlen plen : ℕ) (newLib newRaw : Ptr) :
    (s.init rlen plen newLib newRaw).pktSize = s.pktSize := by
  simp only [init]
  split_ifs <;> rfl

theorem init_frameSize (s : PacketStream) (rlen plen : ℕ) (newLib newRaw : Ptr) :
    (s.init rlen plen newLib newRaw).frameSize = if rlen = 0 then plen else rlen := by
  simp only [init]
  split_ifs <;> rfl

theorem init_lastPktSize (s : PacketStream) (rlen plen : ℕ) (newLib newRaw : Ptr) :
    (s.init rlen plen newLib newRaw).lastPktSize =
      if (if rlen = 0 then plen else rlen) % s.pktSize = 0 then s.pktSize
      else (if rlen = 0 then plen else rlen) % s.pktSize := by
  simp only [init]
  split_ifs <;> simp_all

theorem init_pktsPerFrame (s : PacketStream) (rlen plen : ℕ) (newLib newRaw : Ptr) :
    (s.init rlen plen newLib newRaw).pktsPerFrame =
      ((if rlen = 0 then plen else rlen) + s.pktSize - 1) / s.pktSize := by
  simp only [init]
  split_ifs <;> rfl

/-- `stream_init` gives the sizes of a frame, whatever the packet size and the frame size are. -/
theorem Sized.init {rlen plen : ℕ} (newLib newRaw : Ptr) (hp : 0 < s.pktSize)
    (hl : 0 < if rlen = 0 then plen else rlen) :
    (s.init rlen plen newLib newRaw).Sized := by
  constructor
  · rw [init_pktsPerFrame]
    exact Nat.div_pos (by omega) hp
  · rw [init_lastPktSize, init_pktSize]
    split_ifs
    · exact le_rfl
    · exact (Nat.mod_lt _ hp).le
    · exact le_rfl
    · exact (Nat.mod_lt _ hp).le
  · rw [init_frameSize, init_pktsPerFrame, init_pktSize, init_lastPktSize]
    exact frame_split hp hl

/-- The three flags of a stream differ from each other. -/
structure FlagsApart (s : PacketStream) : Prop where
  sof_ne_mof : s.sof ≠ s.mof
  sof_ne_eof : s.sof ≠ s.eof
  mof_ne_eof : s.mof ≠ s.eof

theorem FlagsApart.of_setup (h : s.FlagsApart) (hs : s'.setup = s.setup) : s'.FlagsApart := by
  have hf : s'.flag = s.flag := (congrArg flag hs :)
  constructor
  · simpa [sof, mof, hf] using h.sof_ne_mof
  · simpa [sof, eof, hf] using h.sof_ne_eof
  · simpa [mof, eof, hf] using h.mof_ne_eof

/-! ## Places -/

/-- A synchronised stream is somewhere in the frame, and has got no more packets than it is on. -/
def InFrame (s : PacketStream) : Prop := s.synced = true → s.gotPkts ≤ s.pktNum ∧ s.pktNum ≤ s.pktsPerFrame

theorem InFrame.sync (h : s.InFrame) (hs : s.sync hdr = some s') : s'.synced = true ∧ s'.InFrame := by
  simp only [PacketStream.sync] at hs
  split at hs
  · next hsync => cases hs; exact ⟨hsync, h⟩
  · split at hs
    · cases hs
    · cases hs; exact ⟨rfl, fun _ => ⟨le_rfl, Nat.zero_le _⟩⟩

/-- A frame is reported with its size, and with no more packets than it has. -/
def Reports (s : PacketStream) (got : ℕ) : Prop := got = 0 ∨ got = s.frameSize ∧ s.validPkts ≤ s.pktsPerFrame

theorem InFrame.handleLost (h : s.InFrame) (hsync : s.synced = true) (hl : s.handleLost hdr = some (s', got)) :
    s'.synced = true ∧ s'.gotPkts ≤ s'.pktNum ∧ s'.Reports got := by
  have hframe := h hsync
  simp only [PacketStream.handleLost] at hl
  split at hl
  · split at hl
    · cases hl
    · split at hl
      · cases hl
        exact ⟨hsync, Nat.zero_le _, Or.inr ⟨rfl, hframe.1.trans hframe.2⟩⟩
      · cases hl
        exact ⟨hsync, hframe.1.trans (Nat.le_add_right _ _), Or.inl rfl⟩
  · cases hl; exact ⟨hsync, hframe.1, Or.inl rfl⟩

theorem Sized.pktNum_lt (hs : s.Sized) {flag : UInt8} (h : s.flagFits flag = true) : s.pktNum < s.pktsPerFrame := by
  have hpos := hs.pktsPerFrame_pos
  simp only [flagFits] at h
  split at h
  · simp only [Bool.or_eq_true, Bool.and_eq_true, decide_eq_true_eq] at h
    omega
  · simp only [Bool.or_eq_true, Bool.and_eq_true, decide_eq_true_eq] at h
    omega

theorem flagFits_of_verdict {flag : UInt8} {datalen : ℕ} (h : s.verdict flag datalen ≠ .resync) :
    s.flagFits flag = true := by
  by_contra hf
  simp [verdict, hf] at h

theorem datalen_le_of_verdict {flag : UInt8} {datalen : ℕ} (h : s.verdict flag datalen = .copy) :
    datalen ≤ s.expectedPktSize := by
  simp only [verdict] at h
  split at h
  · cases h
  · split at h
    · split at h
      · cases h
      · omega
    · split at h
      · cases h
      · omega

/-- The place of a packet ends where the next one begins, and the last one where the frame ends. -/
theorem Sized.offset_add_le (hs : s.Sized) (h : s.pktNum < s.pktsPerFrame) :
    s.offset + s.expectedPktSize ≤ s.frameSize := by
  obtain ⟨_, hlast, hsize⟩ := hs
  by_cases hend : s.pktNum + 1 = s.pktsPerFrame
  · simp only [offset, expectedPktSize, hend, if_true, hsize]
    rw [show s.pktsPerFrame - 1 = s.pktNum by omega]
  · have hnext : (s.pktNum + 1) * s.pktSize ≤ (s.pktsPerFrame - 1) * s.pktSize :=
      Nat.mul_le_mul_right _ (by omega)
    simp only [offset, expectedPktSize, hend, if_false, hsize]
    rw [Nat.add_mul, Nat.one_mul] at hnext
    omega

theorem Sized.endSize_le (hs : s.Sized) {flag : UInt8} {datalen : ℕ} (h : s.verdict flag datalen = .copy) :
    s.endSize datalen ≤ s.frameSize := by
  have hnum := hs.pktNum_lt (flagFits_of_verdict (by rw [h]; decide))
  have hplace := hs.offset_add_le hnum
  have hlen := datalen_le_of_verdict h
  have hexp : s.lastPktSize ≤ s.expectedPktSize := by
    simp only [expectedPktSize]
    split
    · exact le_rfl
    · exact hs.lastPktSize_le
  simp only [endSize]
  split
  · omega
  · omega

/-- In a stream of packets of fixed length, the last packet of a frame completes it. -/
theorem Sized.endSize_eq (hs : s.Sized) (hflags : s.FlagsApart) (hfix : s.variableLength = false) {datalen : ℕ}
    (h : s.flagFits s.eof = true) : s.endSize datalen = s.frameSize := by
  have hend : s.pktNum + 1 = s.pktsPerFrame := by
    simp only [flagFits, hfix, Bool.not_false, if_true, Bool.or_eq_true, Bool.and_eq_true, decide_eq_true_eq,
      beq_iff_eq] at h
    rcases h with (⟨_, h⟩ | ⟨h, _⟩) | ⟨_, h⟩
    · exact absurd h.symm hflags.sof_ne_eof
    · exact h
    · exact absurd h.symm hflags.mof_ne_eof
  rw [endSize, hs.frameSize_eq, offset, hfix, show s.pktsPerFrame - 1 = s.pktNum by omega]
  rfl

end PacketStream

/-! ## Safety of one packet -/

/-- What holds of the outcome of a packet, whatever its bytes are. -/
structure Safe (asm : Assembly) (out : Assembly × ℕ) : Prop where
  inFrame : out.1.strm.InFrame
  beyond : ∀ a ≥ asm.strm.frameSize, out.1.raw a = asm.raw a
  size_le : out.2 ≤ asm.strm.frameSize
  size_eq : asm.strm.variableLength = false → asm.strm.FlagsApart → out.2 = 0 ∨ out.2 = asm.strm.frameSize
  validPkts_le : out.2 ≠ 0 → out.1.strm.validPkts ≤ asm.strm.pktsPerFrame

open PacketStream in
theorem Safe.place {s : PacketStream} {got : ℕ} (hs : s.Sized) (hgot : s.gotPkts ≤ s.pktNum)
    (hrep : s.Reports got) (hdr : PktHdr) (data : List UInt8) (raw : Bytes) :
    Safe ⟨s, raw⟩ (place hdr data s got raw) := by
  have hsize : got ≤ s.frameSize := by
    rcases hrep with rfl | ⟨rfl, _⟩
    · exact Nat.zero_le _
    · exact le_rfl
  have hcases : got = 0 ∨ got = s.frameSize := hrep.imp_right And.left
  have hvalid (h : got ≠ 0) : s.validPkts ≤ s.pktsPerFrame := by
    rcases hrep with h0 | ⟨_, hv⟩
    · exact absurd h0 h
    · exact hv
  cases hv : s.verdict hdr.flag data.length with
  | resync =>
      simp only [CarBoundary.place, hv]
      exact ⟨fun h => (nomatch h), fun _ _ => rfl, hsize, fun _ _ => hcases, hvalid⟩
  | drop =>
      have hnum := hs.pktNum_lt (flagFits_of_verdict (by rw [hv]; decide))
      simp only [CarBoundary.place, hv]
      exact ⟨fun _ => ⟨hgot, hnum.le⟩, fun _ _ => rfl, hsize, fun _ _ => hcases, hvalid⟩
  | copy =>
      have hcopy : s.verdict hdr.flag data.length ≠ .resync := by rw [hv]; decide
      have hfits := flagFits_of_verdict hcopy
      have hnum := hs.pktNum_lt hfits
      have hbeyond : ∀ a ≥ s.frameSize, memcpy s.offset data raw a = raw a := by
        intro a ha
        have := hs.offset_add_le hnum
        have := datalen_le_of_verdict hv
        exact memcpy_of_le (by omega)
      simp only [CarBoundary.place, hv]
      split
      · next heof =>
          refine ⟨fun _ => ⟨le_rfl, Nat.zero_le _⟩, hbeyond, hs.endSize_le hv, fun hfix hflags => ?_, fun _ => ?_⟩
          · exact Or.inr (hs.endSize_eq hflags hfix (heof ▸ hfits))
          · simp only [finishFrame, advance]; omega
      · refine ⟨fun _ => ?_, hbeyond, hsize, fun _ _ => hcases, hvalid⟩
        simp only [advance]; omega

open PacketStream in
theorem Safe.streamProcess {asm : Assembly} (hs : asm.strm.Sized) (h : asm.strm.InFrame) (pkt : List UInt8) :
    Safe asm (streamProcess asm pkt) := by
  have hstay : Safe asm (asm, 0) :=
    ⟨h, fun _ _ => rfl, Nat.zero_le _, fun _ _ => Or.inl rfl, fun h => absurd rfl h⟩
  simp only [CarBoundary.streamProcess]
  split
  · exact hstay
  · split
    · exact hstay
    · split
      · exact hstay
      · next s hsync =>
          obtain ⟨hsynced, hframe⟩ := h.sync hsync
          split
          · exact ⟨fun h => (nomatch h), fun _ _ => rfl, Nat.zero_le _, fun _ _ => Or.inl rfl, fun h => absurd rfl h⟩
          · next s' got hlost =>
              obtain ⟨_, hgot, hrep⟩ := hframe.handleLost hsynced hlost
              have hset : s'.setup = asm.strm.setup := (setup_handleLost hlost).trans (setup_sync hsync)
              obtain ⟨h1, h2, h3, h4, h5⟩ :=
                Safe.place (hs.of_setup hset) hgot hrep (PktHdr.read pkt) (pkt.drop pktHdrSize) asm.raw
              have hsize : s'.frameSize = asm.strm.frameSize := (congrArg frameSize hset :)
              have hnum : s'.pktsPerFrame = asm.strm.pktsPerFrame := (congrArg pktsPerFrame hset :)
              have hvar : s'.variableLength = asm.strm.variableLength := (congrArg variableLength hset :)
              simp only [hsize, hnum, hvar] at h2 h3 h4 h5
              exact ⟨h1, h2, h3, fun hfix hflags => h4 hfix (hflags.of_setup hset), h5⟩

end CarBoundary

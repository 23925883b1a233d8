import CarBoundary.Camera.Lemmas.Stream
import CarBoundary.Camera.Start

/-!
# Streams that have been started

What the formats have in common: the packets have a fixed length, the flags differ, and a frame has more packets
than a gap that is put up with.
-/

namespace CarBoundary.PacketStream

variable {s s' : PacketStream}

structure Started (s : PacketStream) : Prop where
  running : s.running = true
  fixed : s.variableLength = false
  sized : s.Sized
  flags : s.FlagsApart
  long : 5 < s.pktsPerFrame
  frameSize_pos : 0 < s.frameSize

theorem Started.of_setup (h : s.Started) (hs : s'.setup = s.setup) : s'.Started where
  running := (congrArg PacketStream.running hs :).trans h.running
  fixed := (congrArg variableLength hs :).trans h.fixed
  sized := h.sized.of_setup hs
  flags := h.flags.of_setup hs
  long := by
    have hp : s'.pktsPerFrame = s.pktsPerFrame := (congrArg pktsPerFrame hs :)
    exact hp ▸ h.long
  frameSize_pos := by
    have hf : s'.frameSize = s.frameSize := (congrArg frameSize hs :)
    exact hf ▸ h.frameSize_pos

/-- `stream_init` for a frame of more than five packets, after which the stream runs. -/
theorem Started.init {rlen plen : ℕ} (size : ℕ) (newLib newRaw : Ptr) (hfix : s.variableLength = false)
    (hflags : s.FlagsApart) (hsize : s.pktSize = size) (hp : 0 < size)
    (hl : 5 * size < if rlen = 0 then plen else rlen) :
    { s.init rlen plen newLib newRaw with running := true : PacketStream }.Started := by
  subst hsize
  have hsized : (s.init rlen plen newLib newRaw).Sized := Sized.init newLib newRaw hp (by omega)
  have hflag : (s.init rlen plen newLib newRaw).flag = s.flag := by
    simp only [PacketStream.init]
    split_ifs <;> rfl
  have hvar : (s.init rlen plen newLib newRaw).variableLength = s.variableLength := by
    simp only [PacketStream.init]
    split_ifs <;> rfl
  constructor
  · rfl
  · exact hvar.trans hfix
  · exact ⟨hsized.pktsPerFrame_pos, hsized.lastPktSize_le, hsized.frameSize_eq⟩
  · constructor
    · simpa [sof, mof, hflag] using hflags.sof_ne_mof
    · simpa [sof, eof, hflag] using hflags.sof_ne_eof
    · simpa [mof, eof, hflag] using hflags.mof_ne_eof
  · change 5 < (s.init rlen plen newLib newRaw).pktsPerFrame
    rw [init_pktsPerFrame, Nat.lt_div_iff_mul_lt hp]
    omega
  · change 0 < (s.init rlen plen newLib newRaw).frameSize
    rw [init_frameSize]
    omega

theorem flagsApart_depth (h : s.flag = 0x70) : s.FlagsApart := by
  constructor
  · rw [sof, mof, h]; decide
  · rw [sof, eof, h]; decide
  · rw [mof, eof, h]; decide

theorem flagsApart_video (h : s.flag = 0x80) : s.FlagsApart := by
  constructor
  · rw [sof, mof, h]; decide
  · rw [sof, eof, h]; decide
  · rw [mof, eof, h]; decide

theorem startDepth_started (h : s.running = false) (newLib newRaw : Ptr) (fmt : DepthFormat) :
    (s.startDepth newLib newRaw fmt).1.Started := by
  have hrun : ¬ s.running = true := by simp [h]
  rw [startDepth, if_neg hrun]
  cases fmt with
  | bits11 => exact Started.init depthPktDSize newLib newRaw rfl (flagsApart_depth rfl) rfl (by decide) (by decide)
  | bits10 => exact Started.init depthPktDSize newLib newRaw rfl (flagsApart_depth rfl) rfl (by decide) (by decide)
  | packed11 => exact Started.init depthPktDSize newLib newRaw rfl (flagsApart_depth rfl) rfl (by decide) (by decide)
  | packed10 => exact Started.init depthPktDSize newLib newRaw rfl (flagsApart_depth rfl) rfl (by decide) (by decide)

theorem startVideo_started (h : s.running = false) (newLib newRaw : Ptr) (fmt : VideoFormat) :
    (s.startVideo newLib newRaw fmt).1.Started := by
  have hrun : ¬ s.running = true := by simp [h]
  rw [startVideo, if_neg hrun]
  cases fmt with
  | rgb => exact Started.init videoPktDSize newLib newRaw rfl (flagsApart_video rfl) rfl (by decide) (by decide)
  | bayer => exact Started.init videoPktDSize newLib newRaw rfl (flagsApart_video rfl) rfl (by decide) (by decide)
  | ir8 => exact Started.init videoPktDSize newLib newRaw rfl (flagsApart_video rfl) rfl (by decide) (by decide)
  | ir10 => exact Started.init videoPktDSize newLib newRaw rfl (flagsApart_video rfl) rfl (by decide) (by decide)
  | irPacked10 => exact Started.init videoPktDSize newLib newRaw rfl (flagsApart_video rfl) rfl (by decide) (by decide)
  | yuvRgb => exact Started.init videoPktDSize newLib newRaw rfl (flagsApart_video rfl) rfl (by decide) (by decide)
  | yuvRaw => exact Started.init videoPktDSize newLib newRaw rfl (flagsApart_video rfl) rfl (by decide) (by decide)

end CarBoundary.PacketStream

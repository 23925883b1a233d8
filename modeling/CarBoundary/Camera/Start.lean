import CarBoundary.Camera.Stream

/-!
# Starting and stopping a stream

The part of `freenect_start_depth`, `freenect_stop_depth` and `freenect_start_video` that is about the stream, and
the sizes that `libfreenect.h` gives for the formats.
-/

namespace CarBoundary

/-- `FREENECT_FRAME_PIX`. -/
def framePix : ℕ := 480 * 640

/-- `FREENECT_IR_FRAME_PIX`. -/
def irFramePix : ℕ := 488 * 640

/-- `DEPTH_PKTDSIZE`. -/
def depthPktDSize : ℕ := 1760 - 12

/-- `VIDEO_PKTDSIZE`. -/
def videoPktDSize : ℕ := 1920 - 12

/-- `freenect_depth_format`. -/
inductive DepthFormat where
  | bits11
  | bits10
  | packed11
  | packed10
deriving DecidableEq

/-- `FREENECT_DEPTH_11BIT_PACKED_SIZE`. -/
def depthPacked11Size : ℕ := 422400

/-- `FREENECT_DEPTH_10BIT_PACKED_SIZE`. -/
def depthPacked10Size : ℕ := 384000

/-- `FREENECT_DEPTH_11BIT_SIZE` and `FREENECT_DEPTH_10BIT_SIZE`. -/
def depthSize : ℕ := framePix * 2

/-- `freenect_video_format`. -/
inductive VideoFormat where
  | rgb
  | bayer
  | ir8
  | ir10
  | irPacked10
  | yuvRgb
  | yuvRaw
deriving DecidableEq

/-- `FREENECT_VIDEO_RGB_SIZE`. -/
def videoRgbSize : ℕ := framePix * 3

/-- `FREENECT_VIDEO_BAYER_SIZE`. -/
def videoBayerSize : ℕ := framePix

/-- `FREENECT_VIDEO_YUV_RAW_SIZE`. -/
def videoYuvRawSize : ℕ := framePix * 2

/-- `FREENECT_VIDEO_IR_8BIT_SIZE`. -/
def videoIr8Size : ℕ := irFramePix

/-- `FREENECT_VIDEO_IR_10BIT_PACKED_SIZE`. -/
def videoIrPacked10Size : ℕ := 390400

namespace PacketStream

variable (s : PacketStream) (newLib newRaw : Ptr)

/-- `stream_freebufs`. -/
def freebufs : PacketStream := { s with rawBuf := 0, procBuf := 0, libBuf := 0 }

/-- `freenect_start_depth`. The `Bool` says whether the function returns `0`. -/
def startDepth (fmt : DepthFormat) : PacketStream × Bool :=
  if s.running then (s, false)
  else
    let s := { s with pktSize := depthPktDSize, flag := 0x70, variableLength := false }
    let s := match fmt with
      | .bits11 => s.init depthPacked11Size depthSize newLib newRaw
      | .bits10 => s.init depthPacked10Size depthSize newLib newRaw
      | .packed11 => s.init 0 depthPacked11Size newLib newRaw
      | .packed10 => s.init 0 depthPacked11Size newLib newRaw
    ({ s with running := true }, true)

/-- `freenect_stop_depth`. -/
def stopDepth : PacketStream × Bool :=
  if !s.running then (s, false) else ({ s with running := false }.freebufs, true)

/-- `freenect_start_video`. -/
def startVideo (fmt : VideoFormat) : PacketStream × Bool :=
  if s.running then (s, false)
  else
    let s := { s with pktSize := videoPktDSize, flag := 0x80, variableLength := false }
    let s := match fmt with
      | .rgb => s.init videoBayerSize videoRgbSize newLib newRaw
      | .bayer => s.init 0 videoBayerSize newLib newRaw
      | .ir8 => s.init videoIrPacked10Size videoIr8Size newLib newRaw
      | .ir10 => s.init videoIrPacked10Size videoBayerSize newLib newRaw
      | .irPacked10 => s.init 0 videoIrPacked10Size newLib newRaw
      | .yuvRgb => s.init videoYuvRawSize videoRgbSize newLib newRaw
      | .yuvRaw => s.init 0 videoYuvRawSize newLib newRaw
    ({ s with running := true }, true)

end PacketStream

end CarBoundary

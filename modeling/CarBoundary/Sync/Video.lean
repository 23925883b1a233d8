import CarBoundary.Camera.Bayer
import CarBoundary.Camera.Uyvy
import CarBoundary.Sync.Ring

/-!
# Video streams

`video_process` of `cameras.c`, and the ring of video frames in `libfreenect_sync.c`. A packet is one step, with the
conversion and the callback that it may lead to.
-/

namespace CarBoundary

namespace VideoFormat

/-- The `sz` of `alloc_buffer_ring_video`, unless the format is invalid there. For `FREENECT_VIDEO_IR_10BIT` it is the
number of the format itself. -/
def ringSize : VideoFormat → Option ℕ
  | .rgb => some videoRgbSize
  | .bayer => some videoBayerSize
  | .ir8 => some videoIr8Size
  | .ir10 => some 3
  | .irPacked10 => some videoIrPacked10Size
  | .yuvRgb => none
  | .yuvRaw => none

/-- The `switch` of `video_process`. -/
def convert (fmt : VideoFormat) (raw proc : Bytes) : Bytes :=
  match fmt with
  | .rgb => convertBayerToRgb raw proc
  | .bayer => proc
  | .ir10 => convertPackedTo16bit raw 10 irFramePix proc
  | .irPacked10 => proc
  | .ir8 => convertPackedTo8bit raw 10 irFramePix proc
  | .yuvRgb => convertUyvyToRgb raw proc
  | .yuvRaw => proc

/-- The number of bytes in a frame as the packets bring it. -/
def frameBytes : VideoFormat → ℕ
  | .rgb => videoBayerSize
  | .bayer => videoBayerSize
  | .ir8 => videoIrPacked10Size
  | .ir10 => videoIrPacked10Size
  | .irPacked10 => videoIrPacked10Size
  | .yuvRgb => videoYuvRawSize
  | .yuvRaw => videoYuvRawSize

end VideoFormat

/-- `freenect_stop_video`. -/
def PacketStream.stopVideo (s : PacketStream) : PacketStream × Bool :=
  if !s.running then (s, false) else ({ s with running := false }.freebufs, true)

/-- A device with its video ring: `dev->video`, `dev->video_format` and `kinect->video`, whose format is `fmt`. -/
structure VideoSession where
  strm : PacketStream
  format : VideoFormat
  video : BufferRing
  fmt : Option VideoFormat
  mem : Ptr → Bytes

namespace VideoSession

/-- `alloc_kinect`. -/
def allocKinect (mem : Ptr → Bytes) (timestamp : UInt32) (valid : Bool) : VideoSession where
  strm := .zero
  format := .rgb
  video := ⟨0, 0, 0, timestamp, valid, none⟩
  fmt := none
  mem := mem

variable (s : VideoSession)

/-- `freenect_set_video_format`. -/
def setVideoFormat (fmt : VideoFormat) : VideoSession := if s.strm.running then s else { s with format := fmt }

/-- `change_video_format`. The `Bool` says whether it returns `0`. -/
def changeVideoFormat (fmt : VideoFormat) (blocks : Blocks) : VideoSession × Bool :=
  let s := { s with strm := s.strm.stopVideo.1, video := ⟨0, 0, 0, 0, false, none⟩, fmt := none }
  match fmt.ringSize with
  | none => (s, false)
  | some _ =>
      let s := { s with video := ⟨blocks.buf0, blocks.buf1, blocks.buf2, 0, false, none⟩, fmt := some fmt }
      let s := s.setVideoFormat fmt
      let s := { s with strm := (s.strm.setbuf s.video.buf2).1 }
      ({ s with strm := (s.strm.startVideo blocks.lib blocks.raw s.format).1 }, true)

/-- The part of `video_process` from the `switch` on, with `video_producer_cb`. There is no result if the assertion of
the callback fails. -/
def report : Option VideoSession :=
  let frame := s.format.convert (s.mem s.strm.rawBuf) (s.mem s.strm.procBuf)
  let s := { s with mem := Function.update s.mem s.strm.procBuf frame }
  (producerCbInner s.strm.procBuf s.strm.timestamp s.video s.strm).map fun out =>
    { s with video := out.1, strm := out.2 }

/-- `video_process`. -/
def packet (pkt : List UInt8) : Option VideoSession :=
  if pkt.length = 0 then some s
  else if !s.strm.running then some s
  else
    let out := streamProcess ⟨s.strm, s.mem s.strm.rawBuf⟩ pkt
    let s := { s with strm := out.1.strm, mem := Function.update s.mem s.strm.rawBuf out.1.raw }
    if out.2 = 0 then some s else s.report

end VideoSession

/-- What can happen while a format is set: a packet arrives, or a client calls `freenect_sync_get_video`. -/
inductive VideoEvent where
  | packet (pkt : List UInt8)
  | get

def VideoSession.step (s : VideoSession) : VideoEvent → Option VideoSession
  | .packet pkt => s.packet pkt
  | .get => (syncGet s.video).map fun out => { s with video := out.1 }

end CarBoundary

import CarBoundary.Camera.Start
import CarBoundary.Camera.Unpack
import CarBoundary.Lib.Machine
import CarBoundary.Lib.Mailbox

/-!
# The buffer ring

`libfreenect_sync.c`: one thread runs `freenect_process_events` and with it `depth_process`, while the clients fetch
frames with `freenect_sync_get_depth`. What a thread does while it holds the lock of the ring is one step, and so is
what it does between two of its accesses to a buffer: a packet, one value of a conversion, a call of the callback.
-/

namespace CarBoundary

/-! ## The ring -/

/-- `buffer_ring_t`. The format is `none` for `-1`. -/
structure BufferRing where
  buf0 : Ptr
  buf1 : Ptr
  buf2 : Ptr
  timestamp : UInt32
  valid : Bool
  fmt : Option DepthFormat

/-- What the calls of `malloc` for a format return. -/
structure Blocks where
  buf0 : Ptr
  buf1 : Ptr
  buf2 : Ptr
  lib : Ptr
  raw : Ptr
  nodup : [buf0, buf1, buf2, lib, raw].Nodup
  ne_null : 0 ∉ [buf0, buf1, buf2, lib, raw]

/-- The `sz` of `alloc_buffer_ring_depth`. -/
def DepthFormat.ringSize : DepthFormat → ℕ
  | .bits11 => depthSize
  | .bits10 => depthSize
  | .packed11 => depthPacked11Size
  | .packed10 => depthPacked10Size

/-- `alloc_buffer_ring_depth`. -/
def allocBufferRingDepth (fmt : DepthFormat) (blocks : Blocks) : BufferRing where
  buf0 := blocks.buf0
  buf1 := blocks.buf1
  buf2 := blocks.buf2
  timestamp := 0
  valid := false
  fmt := some fmt

/-- `producer_cb_inner` with the stream that `set_buffer` is about. There is no result if the assertion fails. -/
def producerCbInner (data : Ptr) (timestamp : UInt32) (buf : BufferRing) (strm : PacketStream) :
    Option (BufferRing × PacketStream) :=
  if data ≠ buf.buf2 then none
  else some ({ buf with buf1 := buf.buf2, buf2 := buf.buf1, timestamp := timestamp, valid := true },
    (strm.setbuf buf.buf1).1)

/-- `sync_get` once it does not wait any more: the ring, `*data` and `*timestamp`. -/
def syncGet (buf : BufferRing) : Option (BufferRing × Ptr × UInt32) :=
  if !buf.valid then none
  else some ({ buf with buf0 := buf.buf1, buf1 := buf.buf0, valid := false }, buf.buf1, buf.timestamp)

/-! ## The threads -/

/-- Where the run loop is in `depth_process`. -/
inductive Phase where
  | idle
  | converting (vw : ℕ) (u : Unpacker) (done : ℕ)
  | calling
deriving DecidableEq

/-- The `switch` of `depth_process`: the conversion of a frame, if there is one. -/
def DepthFormat.process : DepthFormat → Phase
  | .bits11 => .converting 11 .start 0
  | .bits10 => .converting 10 .start 0
  | .packed10 => .calling
  | .packed11 => .calling

/-- A device with its ring: `dev->depth`, `dev->depth_format` and `kinect->depth`. -/
structure Session where
  strm : PacketStream
  format : DepthFormat
  depth : BufferRing
  mem : Ptr → Bytes
  phase : Phase

namespace Session

/-- `alloc_kinect`. The memory that `malloc` returns for the ring is not cleared. -/
def allocKinect (mem : Ptr → Bytes) (timestamp : UInt32) (valid : Bool) : Session where
  strm := .zero
  format := .bits11
  depth := ⟨0, 0, 0, timestamp, valid, none⟩
  mem := mem
  phase := .idle

variable (s : Session)

/-- `depth_process`, up to the `switch`. -/
def packet (pkt : List UInt8) : Session :=
  if pkt.length = 0 then s
  else if !s.strm.running then s
  else
    let out := streamProcess ⟨s.strm, s.mem s.strm.rawBuf⟩ pkt
    let s := { s with strm := out.1.strm, mem := Function.update s.mem s.strm.rawBuf out.1.raw }
    if out.2 = 0 then s else { s with phase := s.format.process }

/-- One round of the outer loop of `convert_packed_to_16bit`. -/
def pixel (vw : ℕ) (u : Unpacker) (done : ℕ) : Session :=
  let u := u.next (s.mem s.strm.rawBuf) vw
  let frame := store16 done (u.value16 vw) (s.mem s.strm.procBuf)
  { s with
    mem := Function.update s.mem s.strm.procBuf frame
    phase := if done + 1 < framePix then .converting vw u (done + 1) else .calling }

/-- `freenect_set_depth_format`. -/
def setDepthFormat (fmt : DepthFormat) : Session := if s.strm.running then s else { s with format := fmt }

/-- `change_depth_format`. -/
def changeDepthFormat (fmt : DepthFormat) (blocks : Blocks) : Session :=
  let s := { s with strm := s.strm.stopDepth.1 }
  let s := { s with depth := allocBufferRingDepth fmt blocks }
  let s := s.setDepthFormat fmt
  let s := { s with strm := (s.strm.setbuf s.depth.buf2).1 }
  { s with strm := (s.strm.startDepth blocks.lib blocks.raw s.format).1 }

end Session

inductive Event where
  | packet (pkt : List UInt8)
  | pixel
  | callback
  | get
  | setup (fmt : DepthFormat) (blocks : Blocks)

/-- A step of one of the threads. `setup` is `setup_kinect` while it holds `runloop_lock`, and the run loop holds that
lock as long as it is in `freenect_process_events`. -/
def Session.step (s : Session) : Event → Option Session
  | .packet pkt =>
      match s.phase with
      | .idle => some (s.packet pkt)
      | _ => none
  | .pixel =>
      match s.phase with
      | .converting vw u done => some (s.pixel vw u done)
      | _ => none
  | .callback =>
      match s.phase with
      | .calling =>
          (producerCbInner s.strm.procBuf s.strm.timestamp s.depth s.strm).map fun out =>
            { s with depth := out.1, strm := out.2, phase := .idle }
      | _ => none
  | .get => (syncGet s.depth).map fun out => { s with depth := out.1 }
  | .setup fmt blocks =>
      match s.phase with
      | .idle => some (if s.depth.fmt ≠ some fmt then s.changeDepthFormat fmt blocks else s)
      | _ => none

/-! ## What goes through the ring -/

/-- A frame with its timestamp. -/
structure Picture where
  bytes : Bytes
  timestamp : UInt32

open Mailbox (Mail)

/-- The pictures that the driver hands to the callback, and those that the clients get. -/
def Session.emit (s : Session) : Event → List (Mail Picture)
  | .callback => [.post ⟨s.mem s.strm.procBuf, s.strm.timestamp⟩]
  | .get =>
      match syncGet s.depth with
      | some (_, data, timestamp) => [.take ⟨s.mem data, timestamp⟩]
      | none => []
  | .setup fmt _ => if s.depth.fmt ≠ some fmt then [.clear] else []
  | _ => []

/-- The picture that is ready for a client. -/
def Session.ready (s : Session) : Option Picture :=
  if s.depth.valid then some ⟨s.mem s.depth.buf1, s.depth.timestamp⟩ else none

end CarBoundary

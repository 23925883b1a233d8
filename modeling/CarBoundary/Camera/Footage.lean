import CarBoundary.Camera.Stream
import CarBoundary.Lib.Bits

/-!
# What the camera sends

The camera numbers its packets. A frame is split into packets of `pkt_size` bytes, the last of which may be
smaller. The header of a packet tells by its flag whether it begins a frame, ends one or lies in between, and it
carries the number of the packet modulo 256 and the timestamp of the frame.
-/

namespace CarBoundary

/-- The frames that a camera sends, with their timestamps. -/
structure Footage where
  bytes : ℕ → Bytes
  stamp : ℕ → UInt32

/-- The bytes that hold values of `vw` bits each, without gaps, the most significant bit first. -/
def pack (vw : ℕ) (values : ℕ → ℕ) : Bytes := fun i => UInt8.ofNat (Bits.regroup vw 8 values i)

namespace PacketStream

variable (s : PacketStream)

/-- The number of data bytes of the packet at a place in the frame. -/
def placeSize (r : ℕ) : ℕ := if r + 1 = s.pktsPerFrame then s.lastPktSize else s.pktSize

def placeFlag (r : ℕ) : UInt8 := if r = 0 then s.sof else if r + 1 = s.pktsPerFrame then s.eof else s.mof

/-- The bytes are the packet of the camera with the number `n`. -/
structure Carries (cam : Footage) (n : ℕ) (pkt : List UInt8) : Prop where
  length : pkt.length = pktHdrSize + s.placeSize (n % s.pktsPerFrame)
  magic : (PktHdr.read pkt).magic0 = 0x52 ∧ (PktHdr.read pkt).magic1 = 0x42
  flag : (PktHdr.read pkt).flag = s.placeFlag (n % s.pktsPerFrame)
  seq : (PktHdr.read pkt).seq = UInt8.ofNat n
  timestamp : (PktHdr.read pkt).timestamp = cam.stamp (n / s.pktsPerFrame)
  data : ∀ k < s.placeSize (n % s.pktsPerFrame),
    (pkt.drop pktHdrSize).getD k 0 = cam.bytes (n / s.pktsPerFrame) (n % s.pktsPerFrame * s.pktSize + k)

/-- The bytes of the camera's packet with the number `n`. -/
def packetOf (cam : Footage) (n : ℕ) : List UInt8 :=
  let r := n % s.pktsPerFrame
  let stamp := cam.stamp (n / s.pktsPerFrame)
  [0x52, 0x42, 0, s.placeFlag r, 0, UInt8.ofNat n, 0, 0, stamp.toUInt8, (stamp >>> 8).toUInt8,
    (stamp >>> 16).toUInt8, (stamp >>> 24).toUInt8] ++
  (List.range (s.placeSize r)).map fun k => cam.bytes (n / s.pktsPerFrame) (r * s.pktSize + k)

end PacketStream

end CarBoundary

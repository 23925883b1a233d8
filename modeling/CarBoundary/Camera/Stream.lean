import Mathlib.Data.Int.Notation
import Mathlib.Data.UInt

/-!
# Packets and frames

`cameras.c`: `packet_stream`, `stream_init`, `stream_setbuf` and `stream_process`, which puts the packets of a
USB endpoint together to frames. A pointer is the number of a block of memory, with `0` for `NULL`; the bytes of
a block are a function of the offset, so that a write past its end is a write like any other.
-/

namespace CarBoundary

abbrev Ptr := ℕ

/-- The bytes from the start of a block on. -/
abbrev Bytes := ℕ → UInt8

/-- `memcpy(dst + offset, data, len)`. -/
def memcpy (offset : ℕ) (data : List UInt8) (dst : Bytes) : Bytes :=
  fun a => if offset ≤ a ∧ a < offset + data.length then data.getD (a - offset) 0 else dst a

/-! ## Headers -/

/-- `struct pkt_hdr`, without the bytes that nothing reads. -/
structure PktHdr where
  magic0 : UInt8
  magic1 : UInt8
  flag : UInt8
  seq : UInt8
  timestamp : UInt32
deriving DecidableEq

/-- `sizeof(struct pkt_hdr)`. -/
def pktHdrSize : ℕ := 12

def le32 (b0 b1 b2 b3 : UInt8) : UInt32 :=
  b0.toUInt32 ||| b1.toUInt32 <<< 8 ||| b2.toUInt32 <<< 16 ||| b3.toUInt32 <<< 24

def PktHdr.read (pkt : List UInt8) : PktHdr where
  magic0 := pkt.getD 0 0
  magic1 := pkt.getD 1 0
  flag := pkt.getD 3 0
  seq := pkt.getD 5 0
  timestamp := le32 (pkt.getD 8 0) (pkt.getD 9 0) (pkt.getD 10 0) (pkt.getD 11 0)

/-! ## The state of a stream -/

/-- `packet_stream`. The `int` members are natural numbers, since none of them ever becomes negative. -/
structure PacketStream where
  running : Bool
  flag : UInt8
  synced : Bool
  seq : UInt8
  gotPkts : ℕ
  pktNum : ℕ
  pktsPerFrame : ℕ
  pktSize : ℕ
  frameSize : ℕ
  lastPktSize : ℕ
  validPkts : ℕ
  validFrames : ℕ
  variableLength : Bool
  lastTimestamp : UInt32
  timestamp : UInt32
  splitBufs : Bool
  libBuf : Ptr
  usrBuf : Ptr
  rawBuf : Ptr
  procBuf : Ptr
deriving DecidableEq

namespace PacketStream

/-- The stream in a device that `freenect_open_device` has just cleared with `memset`. -/
def zero : PacketStream where
  running := false
  flag := 0
  synced := false
  seq := 0
  gotPkts := 0
  pktNum := 0
  pktsPerFrame := 0
  pktSize := 0
  frameSize := 0
  lastPktSize := 0
  validPkts := 0
  validFrames := 0
  variableLength := false
  lastTimestamp := 0
  timestamp := 0
  splitBufs := false
  libBuf := 0
  usrBuf := 0
  rawBuf := 0
  procBuf := 0

variable (s : PacketStream) (hdr : PktHdr)

def sof : UInt8 := s.flag ||| 1

def mof : UInt8 := s.flag ||| 2

def eof : UInt8 := s.flag ||| 5

/-! ## Buffers -/

/-- `stream_init`. The blocks that `malloc` hands out, if it is called, are `newLib` and `newRaw`. -/
def init (rlen plen : ℕ) (newLib newRaw : Ptr) : PacketStream :=
  let s := { s with validFrames := 0, synced := false }
  let s := if s.usrBuf ≠ 0 then { s with libBuf := 0, procBuf := s.usrBuf }
    else { s with libBuf := newLib, procBuf := newLib }
  let s := if rlen = 0 then { s with splitBufs := false, rawBuf := s.procBuf, frameSize := plen }
    else { s with splitBufs := true, rawBuf := newRaw, frameSize := rlen }
  let s := { s with lastPktSize := s.frameSize % s.pktSize }
  let s := if s.lastPktSize = 0 then { s with lastPktSize := s.pktSize } else s
  { s with pktsPerFrame := (s.frameSize + s.pktSize - 1) / s.pktSize }

/-- `stream_setbuf`. The `Bool` says whether the function returns `0`. -/
def setbuf (pbuf : Ptr) : PacketStream × Bool :=
  if !s.running then ({ s with usrBuf := pbuf }, true)
  else if pbuf = 0 ∧ s.libBuf = 0 then (s, false)
  else
    let s := { s with usrBuf := pbuf }
    let s := if pbuf = 0 then { s with procBuf := s.libBuf } else { s with procBuf := pbuf }
    (if s.splitBufs then s else { s with rawBuf := s.procBuf }, true)

/-! ## One packet -/

def restart : PacketStream := { s with synced := true, seq := hdr.seq, pktNum := 0, validPkts := 0, gotPkts := 0 }

/-- The stream after "sync if required, dropping packets until SOF", unless the packet is dropped there. -/
def sync : Option PacketStream :=
  if s.synced then some s
  else if hdr.flag ≠ s.sof then none
  else some (s.restart hdr)

/-- "handle lost packets": the stream and `got_frame_size`, unless too many are lost. -/
def handleLost : Option (PacketStream × ℕ) :=
  if s.seq ≠ hdr.seq then
    let lost := (hdr.seq - s.seq).toNat
    if lost > 5 ∨ s.variableLength then none
    else
      let left : ℤ := s.pktsPerFrame - s.pktNum
      let s := { s with seq := hdr.seq }
      if left ≤ lost then
        some ({ s with
          pktNum := (lost - left).toNat, validPkts := s.gotPkts, gotPkts := 0,
          timestamp := s.lastTimestamp, validFrames := s.validFrames + 1 }, s.frameSize)
      else some ({ s with pktNum := s.pktNum + lost }, 0)
  else some (s, 0)

def expectedPktSize : ℕ := if s.pktNum + 1 = s.pktsPerFrame then s.lastPktSize else s.pktSize

/-- "check the header to make sure it's what we expect". -/
def flagFits (flag : UInt8) : Bool :=
  if !s.variableLength then
    (decide (s.pktNum = 0) && flag == s.sof) || (decide (s.pktNum + 1 = s.pktsPerFrame) && flag == s.eof) ||
      (decide (0 < s.pktNum) && decide (s.pktNum + 1 < s.pktsPerFrame) && flag == s.mof)
  else
    (decide (s.pktNum = 0) && flag == s.sof) ||
      (decide (s.pktNum < s.pktsPerFrame) && (flag == s.eof || flag == s.mof))

/-- What the checks of the header and of the data length lead to. -/
inductive Verdict where
  | copy
  | drop
  | resync
deriving DecidableEq

def verdict (flag : UInt8) (datalen : ℕ) : Verdict :=
  if !s.flagFits flag then .resync
  else if !s.variableLength then
    if datalen > s.expectedPktSize then .drop else .copy
  else if datalen > s.expectedPktSize then .resync
  else if datalen < s.expectedPktSize ∧ flag ≠ s.eof then .resync
  else .copy

/-- The offset in `raw_buf` that the data of the packet is copied to. -/
def offset : ℕ := s.pktNum * s.pktSize

def advance : PacketStream :=
  { s with
    pktNum := s.pktNum + 1, seq := s.seq + 1, gotPkts := s.gotPkts + 1, lastTimestamp := hdr.timestamp }

def finishFrame : PacketStream :=
  { s with
    pktNum := 0, validPkts := s.gotPkts, gotPkts := 0, timestamp := s.lastTimestamp,
    validFrames := s.validFrames + 1 }

/-- The frame size that `stream_process` returns for the packet that ends a frame. -/
def endSize (datalen : ℕ) : ℕ := s.offset + if s.variableLength then datalen else s.lastPktSize

end PacketStream

/-- A stream with the bytes that its `raw_buf` points to. -/
structure Assembly where
  strm : PacketStream
  raw : Bytes

/-- The part of `stream_process` from the check of the header on. -/
def place (hdr : PktHdr) (data : List UInt8) (s : PacketStream) (gotFrameSize : ℕ) (raw : Bytes) : Assembly × ℕ :=
  match s.verdict hdr.flag data.length with
  | .resync => (⟨{ s with synced := false }, raw⟩, gotFrameSize)
  | .drop => (⟨s, raw⟩, gotFrameSize)
  | .copy =>
      let raw := memcpy s.offset data raw
      if hdr.flag = s.eof then (⟨(s.advance hdr).finishFrame, raw⟩, s.endSize data.length)
      else (⟨s.advance hdr, raw⟩, gotFrameSize)

/-- `stream_process`. The number is the frame size it returns, `0` as long as there is no frame to report. -/
def streamProcess (asm : Assembly) (pkt : List UInt8) : Assembly × ℕ :=
  if pkt.length < pktHdrSize then (asm, 0)
  else
    let hdr := PktHdr.read pkt
    if hdr.magic0 ≠ 0x52 ∨ hdr.magic1 ≠ 0x42 then (asm, 0)
    else
      match asm.strm.sync hdr with
      | none => (asm, 0)
      | some s =>
          match s.handleLost hdr with
          | none => (⟨{ s with synced := false }, asm.raw⟩, 0)
          | some (s, gotFrameSize) => place hdr (pkt.drop pktHdrSize) s gotFrameSize asm.raw

/-- The stream after a number of packets. -/
def streamRun (asm : Assembly) (pkts : List (List UInt8)) : Assembly :=
  pkts.foldl (fun asm pkt => (streamProcess asm pkt).1) asm

/-- The stream at each packet for which `stream_process` reports a frame. -/
def streamFrames (asm : Assembly) : List (List UInt8) → List Assembly
  | [] => []
  | pkt :: pkts =>
      let out := streamProcess asm pkt
      if out.2 = 0 then streamFrames out.1 pkts else out.1 :: streamFrames out.1 pkts

end CarBoundary

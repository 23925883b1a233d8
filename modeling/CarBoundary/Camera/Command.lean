import CarBoundary.Camera.Stream
import CarBoundary.Lib.Machine

/-!
# Commands to the camera

`send_cmd` and `write_register` of `cameras.c`. What the control pipe does with a command is listed with it: the result
of the output transfer, and what the input transfers bring.
-/

namespace CarBoundary

/-- `cam_hdr`. -/
structure CamHdr where
  magic0 : UInt8
  magic1 : UInt8
  len : UInt16
  cmd : UInt16
  tag : UInt16
deriving DecidableEq

/-- `sizeof(cam_hdr)`. -/
def camHdrSize : ℕ := 8

def le16 (b0 b1 : UInt8) : UInt16 := b0.toUInt16 ||| b1.toUInt16 <<< 8

def CamHdr.read (buf : Bytes) : CamHdr :=
  ⟨buf 0, buf 1, le16 (buf 2) (buf 3), le16 (buf 4) (buf 5), le16 (buf 6) (buf 7)⟩

/-- The header of a reply passes the checks of `send_cmd`, each of which returns -1. -/
def CamHdr.Fits (rhdr chdr : CamHdr) (actualLen : ℤ) : Prop :=
  (rhdr.magic0 = 0x52 ∧ rhdr.magic1 = 0x42) ∧ rhdr.cmd = chdr.cmd ∧ rhdr.tag = chdr.tag ∧
    (rhdr.len.toNat : ℤ) = actualLen.tdiv 2

instance (rhdr chdr : CamHdr) (actualLen : ℤ) : Decidable (rhdr.Fits chdr actualLen) :=
  inferInstanceAs (Decidable (_ ∧ _))

/-- The result of an input transfer, and what is in `ibuf` after it. -/
structure ControlIn where
  actualLen : ℤ
  ibuf : Bytes

structure Command where
  cmd : UInt16
  cmdbuf : List UInt8
  replyLen : ℕ
  replybuf : Bytes
  out : ℤ
  ins : List ControlIn

/-- What the loop of `send_cmd` ends with. -/
def Command.reply (c : Command) : Option ControlIn := c.ins.find? fun reply => decide (reply.actualLen ≠ 0)

structure CmdResult where
  res : ℤ
  camTag : UInt16
  replybuf : Bytes

/-- `send_cmd`. There is no result as long as the input transfers bring nothing. -/
def sendCmd (camTag : UInt16) (c : Command) : Option CmdResult :=
  if c.cmdbuf.length % 2 = 1 ∨ c.cmdbuf.length > 0x400 - camHdrSize then some ⟨-1, camTag, c.replybuf⟩
  else
    let chdr : CamHdr := ⟨0x47, 0x4d, UInt16.ofNat (c.cmdbuf.length / 2), c.cmd, camTag⟩
    if c.out < 0 then some ⟨c.out, camTag, c.replybuf⟩
    else c.reply.map fun reply =>
      -- the lengths are compared as unsigned numbers, so that a failed transfer is not too short
      if 0 ≤ reply.actualLen ∧ reply.actualLen < (camHdrSize : ℤ) then ⟨c.out, camTag, c.replybuf⟩
      else
        let actualLen := reply.actualLen - (camHdrSize : ℤ)
        if ¬ (CamHdr.read reply.ibuf).Fits chdr actualLen then ⟨-1, camTag, c.replybuf⟩
        else
          let n := if actualLen.toNat > c.replyLen then c.replyLen else actualLen.toNat
          ⟨actualLen, camTag + 1, memcpy 0 ((List.range n).map fun k => reply.ibuf (camHdrSize + k)) c.replybuf⟩

/-- `write_register`, and `cam_tag` after it. -/
def writeRegister (camTag : UInt16) (reg data : UInt16) (replybuf : Bytes) (out : ℤ) (ins : List ControlIn) :
    Option (ℤ × UInt16) :=
  let cmd := [reg.toUInt8, (reg >>> 8).toUInt8, data.toUInt8, (data >>> 8).toUInt8]
  (sendCmd camTag ⟨0x03, cmd, 4, replybuf, out, ins⟩).map fun r => (if r.res < 0 then r.res else 0, r.camTag)

/-! ## Commands in a row -/

/-- A command that has been sent, with the tag that it was sent with. -/
structure Exchange where
  tag : UInt16
  command : Command
  result : CmdResult

def commandStep (camTag : UInt16) (c : Command) : Option UInt16 := (sendCmd camTag c).map CmdResult.camTag

def commandLog (camTag : UInt16) (c : Command) : List Exchange := ((sendCmd camTag c).map (Exchange.mk camTag c)).toList

end CarBoundary

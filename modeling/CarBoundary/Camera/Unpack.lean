import CarBoundary.Camera.Stream
import CarBoundary.Lib.Loop

/-!
# Unpacking

`convert_packed_to_16bit` and `convert_packed_to_8bit` of `cameras.c`. The bytes come in through a 32-bit shift
buffer; one round of the outer loop writes one value. A `uint16_t` in memory is two bytes, the low one first.
-/

namespace CarBoundary

/-! ## Values of two bytes -/

def store16 (k : ℕ) (x : UInt16) (dst : Bytes) : Bytes :=
  fun a => if a = 2 * k then x.toUInt8 else if a = 2 * k + 1 then (x >>> 8).toUInt8 else dst a

def load16 (src : Bytes) (k : ℕ) : UInt16 := (src (2 * k)).toUInt16 ||| (src (2 * k + 1)).toUInt16 <<< 8

/-! ## The shift buffer -/

/-- `raw`, as the number of bytes it has advanced, `buffer` and `bitsIn`. -/
structure Unpacker where
  pos : ℕ
  buffer : UInt32
  bitsIn : ℕ
deriving DecidableEq

namespace Unpacker

def start : Unpacker := ⟨0, 0, 0⟩

/-- The body of the inner loop. -/
def load (raw : Bytes) (u : Unpacker) : Unpacker where
  pos := u.pos + 1
  buffer := u.buffer <<< 8 ||| (raw u.pos).toUInt32
  bitsIn := u.bitsIn + 8

/-- The inner loop. Each round adds to `bitsIn`, so that `vw` rounds are enough. -/
def fill (raw : Bytes) (vw : ℕ) (u : Unpacker) : Unpacker :=
  Loop.run (fun u => decide (u.bitsIn < vw)) (load raw) vw u

/-- The inner loop and `bitsIn -= vw`. -/
def next (raw : Bytes) (vw : ℕ) (u : Unpacker) : Unpacker :=
  let u := u.fill raw vw
  { u with bitsIn := u.bitsIn - vw }

/-- `(buffer >> bitsIn) & mask`, stored in a `uint16_t`. -/
def value16 (vw : ℕ) (u : Unpacker) : UInt16 :=
  let mask : UInt32 := (1 <<< UInt32.ofNat vw) - 1
  (u.buffer >>> UInt32.ofNat u.bitsIn &&& mask).toUInt16

/-- `buffer >> (bitsIn+vw-8)`, stored in a `uint8_t`. -/
def value8 (vw : ℕ) (u : Unpacker) : UInt8 := (u.buffer >>> UInt32.ofNat (u.bitsIn + vw - 8)).toUInt8

end Unpacker

/-! ## The outer loop -/

/-- The state of a conversion: the values written so far, and the buffer they are written to. -/
structure Conversion where
  unpacker : Unpacker
  done : ℕ
  dst : Bytes

namespace Conversion

def start (dst : Bytes) : Conversion := ⟨.start, 0, dst⟩

def step16 (raw : Bytes) (vw : ℕ) (c : Conversion) : Conversion :=
  let u := c.unpacker.next raw vw
  ⟨u, c.done + 1, store16 c.done (u.value16 vw) c.dst⟩

def step8 (raw : Bytes) (vw : ℕ) (c : Conversion) : Conversion :=
  let u := c.unpacker.next raw vw
  ⟨u, c.done + 1, Function.update c.dst c.done (u.value8 vw)⟩

end Conversion

def convertPackedTo16bit (raw : Bytes) (vw len : ℕ) (dst : Bytes) : Bytes :=
  ((Conversion.step16 raw vw)^[len] (.start dst)).dst

def convertPackedTo8bit (raw : Bytes) (vw len : ℕ) (dst : Bytes) : Bytes :=
  ((Conversion.step8 raw vw)^[len] (.start dst)).dst

end CarBoundary

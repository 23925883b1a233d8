import CarBoundary.Lib.Links
import CarBoundary.Lib.Machine
import Mathlib.Data.Int.Notation
import Mathlib.Data.Option.NAry
import Mathlib.Logic.Function.Basic

/-!
# Opening and closing devices

`freenect_open_device`, `freenect_close_device` and `freenect_shutdown` of `core.c` with the search for the subdevices
in `usb_libusb10.c`. A function has no result if it reads a block that is not allocated, takes a step with a handle of
libusb that the handle is not in the state for, or runs out of rounds.
-/

namespace CarBoundary

variable {P H : Type} [DecidableEq P] [DecidableEq H]

/-! ## Handles -/

inductive HandleState where
  | closed
  | opened
  | claimed
deriving DecidableEq

/-- The handles of libusb. -/
abbrev Usb (H : Type) := H → HandleState

namespace Usb

variable (usb : Usb H) (h : H)

def move (old new : HandleState) : Option (Usb H) := if usb h = old then some (Function.update usb h new) else none

/-- `libusb_open`, where it succeeds. -/
def libusbOpen : Option (Usb H) := usb.move h .closed .opened

/-- `libusb_claim_interface`, where it succeeds. -/
def libusbClaimInterface : Option (Usb H) := usb.move h .opened .claimed

/-- `libusb_release_interface`. -/
def libusbReleaseInterface : Option (Usb H) := usb.move h .claimed .opened

/-- `libusb_close`. -/
def libusbClose : Option (Usb H) := usb.move h .opened .closed

/-- Releasing and closing, unless the pointer is `NULL`. -/
def giveBack (usb : Usb H) : Option H → Option (Usb H)
  | none => some usb
  | some h => do (← usb.libusbReleaseInterface h).libusbClose h

end Usb

/-! ## The search for the subdevices -/

/-- `VID_MICROSOFT`. -/
def vidMicrosoft : UInt16 := 0x45e

/-- `PID_NUI_CAMERA`. -/
def pidNuiCamera : UInt16 := 0x02ae

/-- `PID_NUI_MOTOR`. -/
def pidNuiMotor : UInt16 := 0x02b0

/-- An entry of the list of `libusb_get_device_list`, and what the calls about it come to. -/
structure UsbEntry (H : Type) where
  /-- `idVendor` and `idProduct`, or `none` if `libusb_get_device_descriptor` fails. -/
  descriptor : Option (UInt16 × UInt16)
  /-- What `libusb_open` stores if it succeeds. -/
  handle : H
  opens : Bool
  claims : Bool

/-- The camera or the motor: its handle, and how many of its kind have been passed over. -/
structure Subdevice (H : Type) where
  dev : Option H
  nr : ℕ

/-- One of the two blocks of `fnusb_open_subdevices` that search for a subdevice. The `Bool` says whether it leaves the
loop. -/
def Subdevice.visit (sub : Subdevice H) (idProduct : UInt16) (index : ℤ) (entry : UsbEntry H) (desc : UInt16)
    (usb : Usb H) :
    Option (Subdevice H × Usb H × Bool) :=
  if sub.dev = none ∧ desc = idProduct then
    if sub.nr = index then
      if !entry.opens then some ({ sub with dev := none }, usb, true)
      else do
        let usb ← usb.libusbOpen entry.handle
        if !entry.claims then some ({ sub with dev := none }, ← usb.libusbClose entry.handle, true)
        else some ({ sub with dev := some entry.handle }, ← usb.libusbClaimInterface entry.handle, false)
    else some ({ sub with nr := sub.nr + 1 }, usb, false)
  else some (sub, usb, false)

/-- The loop of `fnusb_open_subdevices`. -/
def searchSubdevices (index : ℤ) : List (UsbEntry H) → Subdevice H → Subdevice H → Usb H →
    Option (Subdevice H × Subdevice H × Usb H)
  | [], cam, motor, usb => some (cam, motor, usb)
  | entry :: devs, cam, motor, usb =>
      match entry.descriptor with
      | none => searchSubdevices index devs cam motor usb
      | some (idVendor, idProduct) =>
          if idVendor ≠ vidMicrosoft then searchSubdevices index devs cam motor usb
          else do
            let (cam, usb, stop) ← cam.visit pidNuiCamera index entry idProduct usb
            if stop then return (cam, motor, usb)
            let (motor, usb, stop) ← motor.visit pidNuiMotor index entry idProduct usb
            if stop then return (cam, motor, usb)
            searchSubdevices index devs cam motor usb

/-- `freenect_device`. -/
structure FreenectDevice (P H : Type) where
  next : Option P
  usbCam : Option H
  usbMotor : Option H

/-- `fnusb_open_subdevices`. The list of devices is `none` if `libusb_get_device_list` fails. -/
def fnusbOpenSubdevices (dev : FreenectDevice P H) (index : ℤ) (devs : Option (List (UsbEntry H))) (usb : Usb H) :
    Option (ℤ × FreenectDevice P H × Usb H) :=
  match devs with
  | none => some (-1, { dev with usbCam := none, usbMotor := none }, usb)
  | some devs => do
      let (cam, motor, usb) ← searchSubdevices index devs ⟨none, 0⟩ ⟨none, 0⟩ usb
      let dev := { dev with usbCam := cam.dev, usbMotor := motor.dev }
      if dev.usbCam.isSome && dev.usbMotor.isSome then return (0, dev, usb)
      let usb ← usb.giveBack dev.usbCam
      let usb ← usb.giveBack dev.usbMotor
      return (-1, dev, usb)

/-- `fnusb_close_subdevices`. -/
def fnusbCloseSubdevices (dev : FreenectDevice P H) (usb : Usb H) : Option (ℤ × FreenectDevice P H × Usb H) := do
  let usb ← usb.giveBack dev.usbCam
  let usb ← usb.giveBack dev.usbMotor
  return (0, { dev with usbCam := none, usbMotor := none }, usb)

/-! ## The list of devices -/

/-- `freenect_context`, with the blocks that are allocated for devices. -/
structure FreenectContext (P H : Type) where
  first : Option P
  mem : P → Option (FreenectDevice P H)
  usb : Usb H

namespace FreenectContext

/-- What `freenect_init` leaves. -/
def init : FreenectContext P H := ⟨none, fun _ => none, fun _ => .closed⟩

variable (ctx : FreenectContext P H) (fuel : ℕ)

def next (p : P) : Option (Option P) := (ctx.mem p).map FreenectDevice.next

def store (p : P) (dev : FreenectDevice P H) : FreenectContext P H :=
  { ctx with mem := Function.update ctx.mem p (some dev) }

def setNext (p : P) (q : Option P) : Option (FreenectContext P H) :=
  (ctx.mem p).map fun dev => ctx.store p { dev with next := q }

def free (p : P) : FreenectContext P H := { ctx with mem := Function.update ctx.mem p none }

/-- `freenect_open_device`, with what `malloc` returns. If the result is `0`, then `*dev` is that block. -/
def openDevice (block : Option P) (index : ℤ) (devs : Option (List (UsbEntry H))) : Option (ℤ × FreenectContext P H) :=
  match block with
  | none => some (-1, ctx)
  | some pdev => do
      let (res, dev, usb) ← fnusbOpenSubdevices ⟨none, none, none⟩ index devs ctx.usb
      let ctx := { ctx with usb := usb }.store pdev dev
      if res < 0 then return (res, ctx.free pdev)
      match ctx.first with
      | none => return (0, { ctx with first := some pdev })
      | some first =>
          let prev ← Links.lastNode ctx.next fuel first
          return (0, ← ctx.setNext prev (some pdev))

/-- `freenect_close_device`, once the streams are stopped. -/
def closeDevice (dev : P) : Option (ℤ × FreenectContext P H) := do
  let (res, pdev, usb) ← fnusbCloseSubdevices (← ctx.mem dev) ctx.usb
  let ctx := { ctx with usb := usb }.store dev pdev
  if res < 0 then return (res, ctx)
  let (last, cur) ← Links.seek ctx.next dev fuel none ctx.first
  match cur with
  | none => return (-1, ctx)
  | some cur =>
      let next ← ctx.next cur
      let ctx ← match last with
        | some last => ctx.setNext last next
        | none => some { ctx with first := next }
      return (0, ctx.free dev)

/-- The loop of `freenect_shutdown`, cut off after a number of rounds. -/
def shutdown (fuel : ℕ) : ℕ → FreenectContext P H → Option (FreenectContext P H)
  | 0, _ => none
  | rounds + 1, ctx =>
      match ctx.first with
      | none => some ctx
      | some dev => do shutdown fuel rounds (← ctx.closeDevice fuel dev).2

end FreenectContext

/-- A call of a client. -/
inductive DeviceCall (P H : Type) where
  | openDevice (block : Option P) (index : ℤ) (devs : Option (List (UsbEntry H)))
  | closeDevice (dev : P)

namespace FreenectContext

variable (fuel : ℕ) (ctx : FreenectContext P H)

def call : DeviceCall P H → Option (ℤ × FreenectContext P H)
  | .openDevice block index devs => ctx.openDevice fuel block index devs
  | .closeDevice dev => ctx.closeDevice fuel dev

def step (e : DeviceCall P H) : Option (FreenectContext P H) := (ctx.call fuel e).map Prod.snd

/-- What the call returns. -/
def emit (e : DeviceCall P H) : List ℤ := ((ctx.call fuel e).map Prod.fst).toList

end FreenectContext

/-! ## What the functions are for -/

/-- A device that a client has opened and not closed yet. -/
structure OpenDevice (P H : Type) where
  dev : P
  cam : H
  motor : H
deriving DecidableEq

namespace UsbEntry

def isKind (idProduct : UInt16) (entry : UsbEntry H) : Bool := entry.descriptor == some (vidMicrosoft, idProduct)

def grant (entry : UsbEntry H) : Option H := if entry.opens && entry.claims then some entry.handle else none

/-- The handle of the subdevice with an index among those of its kind, if it can be opened and claimed. -/
def found (idProduct : UInt16) (index : ℤ) (devs : List (UsbEntry H)) : Option H :=
  if index < 0 then none else ((devs.filter (isKind idProduct))[index.toNat]?).bind grant

/-- The camera and the motor with an index. -/
def pair (index : ℤ) (devs : List (UsbEntry H)) : Option (H × H) :=
  Option.map₂ Prod.mk (found pidNuiCamera index devs) (found pidNuiMotor index devs)

end UsbEntry

namespace OpenDevice

def handles (l : List (OpenDevice P H)) : List H := l.flatMap fun d => [d.cam, d.motor]

/-- The handles that libusb would give are new ones. -/
def Fresh (l : List (OpenDevice P H)) (devs : List (UsbEntry H)) : Prop :=
  (devs.map UsbEntry.handle).Nodup ∧ ∀ entry ∈ devs, entry.handle ∉ handles l

instance (l : List (OpenDevice P H)) (devs : List (UsbEntry H)) : Decidable (Fresh l devs) :=
  inferInstanceAs (Decidable (_ ∧ _))

/-- A call as a change of the list of devices that are open. `malloc` and libusb give what is not in use, and a client
closes what is open. -/
def call (l : List (OpenDevice P H)) : DeviceCall P H → Option (ℤ × List (OpenDevice P H))
  | .openDevice block index devs =>
      if (∀ p ∈ block, p ∉ l.map dev) ∧ ∀ ds ∈ devs, Fresh l ds then
        match block, devs.bind (UsbEntry.pair index) with
        | some p, some (cam, motor) => some (0, l ++ [⟨p, cam, motor⟩])
        | _, _ => some (-1, l)
      else none
  | .closeDevice p => if p ∈ l.map dev then some (0, l.filter fun d => d.dev ≠ p) else none

def step (l : List (OpenDevice P H)) (e : DeviceCall P H) : Option (List (OpenDevice P H)) := (call l e).map Prod.snd

def emit (l : List (OpenDevice P H)) (e : DeviceCall P H) : List ℤ := ((call l e).map Prod.fst).toList

end OpenDevice

/-- The context is what the calls make of it when the devices of the list are open. -/
structure FreenectContext.Represents (ctx : FreenectContext P H) (l : List (OpenDevice P H)) : Prop where
  chain : Links.Segment ctx.next ctx.first (l.map OpenDevice.dev) none
  nodup : (l.map OpenDevice.dev).Nodup
  allocated : ∀ p, (ctx.mem p).isSome ↔ p ∈ l.map OpenDevice.dev
  fields : ∀ d ∈ l, ∃ next, ctx.mem d.dev = some ⟨next, some d.cam, some d.motor⟩
  handles : (OpenDevice.handles l).Nodup
  claimed : ∀ h, ctx.usb h = if h ∈ OpenDevice.handles l then .claimed else .closed

end CarBoundary

import CarBoundary.Lib.Machine
import CarBoundary.Lib.Threads

/-!
# Isochronous transfers

`fnusb_start_iso`, `iso_callback` and `fnusb_stop_iso` of `usb_libusb10.c`. The bus library calls back once for each
transfer that has been submitted, in any order, and a submission may fail.
-/

namespace CarBoundary

/-- What has become of a transfer. -/
inductive Transfer where
  /-- Submitted, and not yet called back for. -/
  | flying
  /-- Counted by `dead_xfers`. -/
  | over
  /-- `libusb_submit_transfer` has failed. -/
  | refused
deriving DecidableEq

/-- `fnusb_isoc_stream` with `num_xfers` transfers. -/
structure IsoStream (numXfers : ℕ) where
  xfers : Fin numXfers → Transfer
  dead : Bool
  deadXfers : ℕ
  /-- The transfers and the buffer have been freed. -/
  freed : Bool

inductive IsoEvent (numXfers : ℕ) where
  | callback (i : Fin numXfers) (completed : Bool) (packets : List (List UInt8)) (submitted : Bool)
  | stop
  | finish

namespace IsoStream

variable {numXfers : ℕ}

def submit (submitted : Bool) : Transfer := if submitted then .flying else .refused

/-- `fnusb_start_iso`. -/
def startIso (submitted : Fin numXfers → Bool) : IsoStream numXfers := ⟨fun i => submit (submitted i), false, 0, false⟩

variable (s : IsoStream numXfers)

/-- `iso_callback`. -/
def isoCallback (i : Fin numXfers) (completed submitted : Bool) : IsoStream numXfers :=
  if s.dead then { s with xfers := Function.update s.xfers i .over, deadXfers := s.deadXfers + 1 }
  else if completed then { s with xfers := Function.update s.xfers i (submit submitted) }
  else { s with xfers := Function.update s.xfers i .over, deadXfers := s.deadXfers + 1 }

/-- A step of the bus library, or of `fnusb_stop_iso`: `stop` cancels the transfers, and `finish` is what comes after
the loop that waits for them. -/
def step : IsoEvent numXfers → Option (IsoStream numXfers)
  | .callback i completed _ submitted =>
      if s.xfers i = .flying then some (s.isoCallback i completed submitted) else none
  | .stop => if s.dead then none else some { s with dead := true }
  | .finish => if s.dead ∧ ¬ s.freed ∧ ¬ s.deadXfers < numXfers then some { s with freed := true } else none

/-- The packets that a step hands to the camera. -/
def emit : IsoEvent numXfers → List (List UInt8)
  | .callback _ completed packets _ => if !s.dead && completed then packets else []
  | .stop | .finish => []

end IsoStream

end CarBoundary

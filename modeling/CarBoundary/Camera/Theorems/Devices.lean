import CarBoundary.Camera.Lemmas.Devices

/-!
# Devices that are opened and closed
-/

namespace CarBoundary

variable {P H : Type} [DecidableEq P] [DecidableEq H]

omit [DecidableEq P] in
/-- The search for the subdevices succeeds just if the camera and the motor with the index can be opened and claimed,
and it then holds these two handles. If it fails, it has given back what it had taken. -/
theorem open_takes_the_pair {devs : List (UsbEntry H)} {usb : Usb H} (hnodup : (devs.map UsbEntry.handle).Nodup)
    (hclosed : ∀ entry ∈ devs, usb entry.handle = .closed) (index : ℤ) (dev : FreenectDevice P H) :
    ∃ res dev' usb', fnusbOpenSubdevices dev index (some devs) usb = some (res, dev', usb') ∧
      (res = 0 ↔ (UsbEntry.pair index devs).isSome) ∧
      (∀ cam motor, UsbEntry.pair index devs = some (cam, motor) →
        dev'.usbCam = some cam ∧ dev'.usbMotor = some motor) ∧
      ∀ h, usb' h = if res = 0 ∧ (dev'.usbCam = some h ∨ dev'.usbMotor = some h) then .claimed else usb h := by
  cases hpair : UsbEntry.pair index devs with
  | none =>
      obtain ⟨dev', hopen⟩ := openSubdevices_of_none hnodup hclosed hpair dev
      exact ⟨-1, dev', usb, hopen, by simp, nofun, by simp⟩
  | some pair =>
      obtain ⟨cam, motor⟩ := pair
      refine ⟨_, _, _, (openSubdevices_of_pair hnodup hclosed hpair dev).1, by simp, ?_, fun h => ?_⟩
      · intro _ _ heq
        cases heq
        exact ⟨rfl, rfl⟩
      · rw [Usb.hold_apply, Usb.hold_apply]
        simp only [true_and]
        split_ifs <;> simp_all

/-- Two cameras and two motors, one of which cannot be claimed, and a device whose descriptor cannot be read. -/
def busyBus : List (UsbEntry ℕ) :=
  [⟨some (vidMicrosoft, pidNuiCamera), 0, true, true⟩, ⟨none, 1, true, true⟩,
    ⟨some (vidMicrosoft, pidNuiMotor), 2, true, true⟩,
    ⟨some (vidMicrosoft, pidNuiCamera), 3, true, true⟩, ⟨some (vidMicrosoft, pidNuiMotor), 4, true, false⟩]

theorem open_takes_the_pair_busy :
    ∃ res dev' usb', fnusbOpenSubdevices (⟨none, none, none⟩ : FreenectDevice ℕ ℕ) 1 (some busyBus) (fun _ => .closed) =
      some (res, dev', usb') ∧ res ≠ 0 ∧ ∀ h, usb' h = .closed := by
  let usb : Usb ℕ := fun _ => .closed
  have hclosed : ∀ entry ∈ busyBus, usb entry.handle = .closed := fun _ _ => rfl
  obtain ⟨res, dev', usb', hopen, hres, -, husb⟩ := open_takes_the_pair
    (show (busyBus.map UsbEntry.handle).Nodup by decide) hclosed 1 (⟨none, none, none⟩ : FreenectDevice ℕ ℕ)
  have hne : res ≠ 0 := fun h => absurd (hres.mp h) (by decide)
  exact ⟨res, dev', usb', hopen, hne, fun h => by rw [husb, if_neg fun hand => hne hand.1]⟩

/-- A client that closes only what it has opened sees what it would see of a plain list of devices, whatever is on the
bus at each call and whatever libusb and `malloc` make of it. The code never reads a block that has been freed and never
gives back a handle twice, and at any time the blocks that are allocated and the handles that are held are those of the
devices that are open. -/
theorem device_list_follows_calls {calls : List (DeviceCall P H)} {l : List (OpenDevice P H)} {fuel : ℕ}
    (h : Machine.exec OpenDevice.step [] calls = some l) (hf : calls.length < fuel) :
    ∃ ctx, Machine.exec (FreenectContext.step fuel) .init calls = some ctx ∧
      Machine.trace (FreenectContext.step fuel) (FreenectContext.emit fuel) .init calls =
        Machine.trace OpenDevice.step OpenDevice.emit [] calls ∧ ctx.Represents l := by
  obtain ⟨ctx, hexec, htrace, hctx, -⟩ := FreenectContext.Represents.init.exists_exec h
    (show ([] : List (OpenDevice P H)).length + calls.length < fuel by simpa using hf)
  exact ⟨ctx, hexec, htrace, hctx⟩

/-- Two devices are opened, of which the first one is closed; in between `malloc` and libusb fail once each. -/
def someCalls : List (DeviceCall ℕ ℕ) :=
  [.openDevice (some 7) 0 (some busyBus), .openDevice none 0 none,
    .openDevice (some 8) 0 (some (busyBus.map fun entry => { entry with handle := entry.handle + 10 })),
    .openDevice (some 9) 1 none, .closeDevice 7]

theorem device_list_follows_calls_some :
    ∃ ctx, Machine.exec (FreenectContext.step 6) .init someCalls = some ctx ∧
      Machine.trace (FreenectContext.step 6) (FreenectContext.emit 6) .init someCalls = [0, -1, 0, -1, 0] ∧
      ctx.Represents [⟨8, 10, 12⟩] := by
  have hexec : Machine.exec OpenDevice.step [] someCalls = some [⟨8, 10, 12⟩] := by decide
  have htrace : Machine.trace OpenDevice.step OpenDevice.emit [] someCalls = [0, -1, 0, -1, 0] := by decide
  obtain ⟨ctx, hctx, hemit, hrep⟩ := device_list_follows_calls hexec (show someCalls.length < 6 by decide)
  exact ⟨ctx, hctx, hemit.trans htrace, hrep⟩

/-- After whatever calls, `freenect_shutdown` leaves its loop, and then no block is allocated and no handle is held. -/
theorem shutdown_leaves_nothing {calls : List (DeviceCall P H)} {l : List (OpenDevice P H)} {fuel : ℕ}
    (h : Machine.exec OpenDevice.step [] calls = some l) (hf : calls.length < fuel) :
    ∃ ctx, Machine.exec (FreenectContext.step fuel) .init calls = some ctx ∧
      FreenectContext.shutdown fuel fuel ctx = some .init := by
  obtain ⟨ctx, hexec, -, hctx, hlen⟩ := FreenectContext.Represents.init.exists_exec h
    (show ([] : List (OpenDevice P H)).length + calls.length < fuel by simpa using hf)
  obtain ⟨ctx', hshutdown, hend⟩ := hctx.exists_shutdown hlen hlen
  refine ⟨ctx, hexec, ?_⟩
  rw [hshutdown, hend.eq_init]

theorem shutdown_leaves_nothing_some :
    ∃ ctx, Machine.exec (FreenectContext.step 6) .init someCalls = some ctx ∧
      FreenectContext.shutdown 6 6 ctx = some .init := by
  have hexec : Machine.exec OpenDevice.step [] someCalls = some [⟨8, 10, 12⟩] := by decide
  exact shutdown_leaves_nothing hexec (by decide)

end CarBoundary

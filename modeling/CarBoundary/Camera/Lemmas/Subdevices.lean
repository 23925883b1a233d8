import CarBoundary.Camera.Devices
import Mathlib.Data.List.Nodup

/-!
# Searching for subdevices
-/

namespace CarBoundary

variable {P H : Type}

/-! ## The entries of the list -/

namespace UsbEntry

variable {idProduct : UInt16} {index : ℤ} {entry : UsbEntry H} {devs : List (UsbEntry H)} {h : H}

@[simp]
theorem found_nil : found idProduct index ([] : List (UsbEntry H)) = none := by
  simp [found]

theorem found_cons_of_not (hkind : entry.isKind idProduct = false) :
    found idProduct index (entry :: devs) = found idProduct index devs := by
  simp [found, hkind]

theorem found_cons (hkind : entry.isKind idProduct = true) :
    found idProduct index (entry :: devs) = if index = 0 then entry.grant else found idProduct (index - 1) devs := by
  rw [found, List.filter_cons_of_pos hkind]
  by_cases hneg : index < 0
  · rw [if_pos hneg, if_neg (by omega), found, if_pos (by omega)]
  · obtain ⟨n, rfl⟩ := Int.eq_ofNat_of_zero_le (by omega : 0 ≤ index)
    cases n with
    | zero => simp
    | succ n =>
        have hprev : ((n + 1 : ℕ) : ℤ) - 1 = n := by omega
        rw [if_neg hneg, if_neg (by omega), hprev, found, if_neg (by omega)]
        rfl

theorem eq_handle_of_grant (hgrant : entry.grant = some h) : entry.handle = h := by
  rw [grant] at hgrant
  split_ifs at hgrant
  exact Option.some.inj hgrant

theorem exists_of_found (hfound : found idProduct index devs = some h) :
    ∃ entry ∈ devs, entry.isKind idProduct = true ∧ entry.handle = h := by
  rw [found] at hfound
  split_ifs at hfound
  obtain ⟨entry, hentry, hgrant⟩ := Option.bind_eq_some_iff.mp hfound
  obtain ⟨hmem, hkind⟩ := List.mem_filter.mp (List.mem_of_getElem? hentry)
  exact ⟨entry, hmem, hkind, eq_handle_of_grant hgrant⟩

theorem pair_eq_some {cam motor : H} : pair index devs = some (cam, motor) ↔
    found pidNuiCamera index devs = some cam ∧ found pidNuiMotor index devs = some motor := by
  simp [pair, Option.map₂_eq_some_iff]

end UsbEntry

variable [DecidableEq H]

/-! ## Handles -/

namespace Usb

variable {usb : Usb H} {o : Option H} {k : H}

def hold (usb : Usb H) : Option H → Usb H
  | none => usb
  | some h => Function.update usb h .claimed

@[simp]
theorem hold_none (usb : Usb H) : usb.hold none = usb := rfl

theorem hold_apply (usb : Usb H) (o : Option H) (h : H) : usb.hold o h = if o = some h then .claimed else usb h := by
  cases o with
  | none => rfl
  | some k =>
      by_cases hk : h = k
      · simp [hold, hk]
      · simp [hold, hk, Ne.symm hk]

theorem giveBack_hold (ho : ∀ h ∈ o, usb h = .closed) : (usb.hold o).giveBack o = some usb := by
  cases o with
  | none => rfl
  | some h =>
      have hclosed : Function.update usb h .closed = usb := by
        rw [← ho h rfl, Function.update_eq_self]
      simp [giveBack, hold, libusbReleaseInterface, libusbClose, move, hclosed]

theorem giveBack_of_claimed (h : usb k = .claimed) : usb.giveBack (some k) = some (Function.update usb k .closed) := by
  simp [giveBack, libusbReleaseInterface, libusbClose, move, h]

theorem hold_comm (usb : Usb H) (o o' : Option H) : (usb.hold o).hold o' = (usb.hold o').hold o := by
  funext h
  simp only [hold_apply]
  split_ifs <;> rfl

end Usb

/-! ## The search -/

namespace Subdevice

variable {sub : Subdevice H} {idProduct desc : UInt16} {index : ℤ} {entry : UsbEntry H} {devs : List (UsbEntry H)}
  {usb : Usb H}

/-- What the search will have found when it is through with the list. -/
def ahead (sub : Subdevice H) (idProduct : UInt16) (index : ℤ) (devs : List (UsbEntry H)) : Option H :=
  match sub.dev with
  | none => UsbEntry.found idProduct (index - sub.nr) devs
  | some h => some h

omit [DecidableEq H] in
theorem ahead_cons_of_not (hkind : entry.isKind idProduct = false) :
    sub.ahead idProduct index (entry :: devs) = sub.ahead idProduct index devs := by
  unfold ahead
  rw [UsbEntry.found_cons_of_not hkind]

theorem visit_of_ne (hdesc : desc ≠ idProduct) : sub.visit idProduct index entry desc usb = some (sub, usb, false) := by
  simp [visit, hdesc]

/-- An entry of the right kind is passed over, or it is the one, or it is the one and cannot be had. -/
theorem visit_cases (sub : Subdevice H) (index : ℤ) (hclosed : usb entry.handle = .closed)
    (hentry : entry.descriptor = some (vidMicrosoft, idProduct)) (devs : List (UsbEntry H)) :
    (∃ nr, sub.visit idProduct index entry idProduct usb = some ({ sub with nr := nr }, usb, false) ∧
      sub.ahead idProduct index (entry :: devs) = ({ sub with nr := nr } : Subdevice H).ahead idProduct index devs) ∨
    (sub.dev = none ∧ sub.ahead idProduct index (entry :: devs) = some entry.handle ∧
      sub.visit idProduct index entry idProduct usb =
        some ({ sub with dev := some entry.handle }, usb.hold (some entry.handle), false)) ∨
    (sub.dev = none ∧ sub.ahead idProduct index (entry :: devs) = none ∧
      sub.visit idProduct index entry idProduct usb = some (sub, usb, true)) := by
  have hkind : entry.isKind idProduct = true := by simp [UsbEntry.isKind, hentry]
  obtain ⟨dev, nr⟩ := sub
  cases dev with
  | some h => exact .inl ⟨nr, by simp [visit], rfl⟩
  | none =>
      by_cases hnr : (nr : ℤ) = index
      · have hahead : ahead (⟨none, nr⟩ : Subdevice H) idProduct index (entry :: devs) = entry.grant := by
          simp [ahead, UsbEntry.found_cons hkind, hnr]
        have hundo : Function.update usb entry.handle .closed = usb := by
          rw [← hclosed, Function.update_eq_self]
        rw [hahead]
        cases hopens : entry.opens with
        | false => exact .inr (.inr ⟨rfl, by simp [UsbEntry.grant, hopens], by simp [visit, hnr, hopens]⟩)
        | true =>
            cases hclaims : entry.claims with
            | false =>
                refine .inr (.inr ⟨rfl, by simp [UsbEntry.grant, hclaims], ?_⟩)
                simp [visit, hnr, hopens, hclaims, Usb.libusbOpen, Usb.libusbClose, Usb.move, hclosed, hundo]
            | true =>
                refine .inr (.inl ⟨rfl, by simp [UsbEntry.grant, hopens, hclaims], ?_⟩)
                simp [visit, hnr, hopens, hclaims, Usb.libusbOpen, Usb.libusbClaimInterface, Usb.move, Usb.hold,
                  hclosed]
      · refine .inl ⟨nr + 1, by simp [visit, hnr], ?_⟩
        have hnext : index - (nr : ℤ) - 1 = index - ((nr + 1 : ℕ) : ℤ) := by omega
        simp only [ahead, UsbEntry.found_cons hkind, hnext]
        rw [if_neg (by omega)]

end Subdevice

/-- Between two rounds of the search. -/
structure Searching (base : Usb H) (devs : List (UsbEntry H)) (cam motor : Subdevice H) : Prop where
  nodup : (devs.map UsbEntry.handle).Nodup
  closed : ∀ entry ∈ devs, base entry.handle = .closed
  fresh : ∀ entry ∈ devs, entry.handle ∉ cam.dev ∧ entry.handle ∉ motor.dev
  camClosed : ∀ h ∈ cam.dev, base h = .closed
  motorClosed : ∀ h ∈ motor.dev, base h = .closed
  apart : ∀ h ∈ cam.dev, h ∉ motor.dev

namespace Searching

variable {base : Usb H} {entry : UsbEntry H} {devs : List (UsbEntry H)} {cam motor : Subdevice H} {index : ℤ} {nr : ℕ}

omit [DecidableEq H] in
theorem tail (h : Searching base (entry :: devs) cam motor) : Searching base devs cam motor where
  nodup := h.nodup.of_cons
  closed e he := h.closed e (List.mem_cons_of_mem _ he)
  fresh e he := h.fresh e (List.mem_cons_of_mem _ he)
  camClosed := h.camClosed
  motorClosed := h.motorClosed
  apart := h.apart

omit [DecidableEq H] in
theorem symm (h : Searching base devs cam motor) : Searching base devs motor cam where
  nodup := h.nodup
  closed := h.closed
  fresh e he := (h.fresh e he).symm
  camClosed := h.motorClosed
  motorClosed := h.camClosed
  apart k hk hk' := h.apart k hk' hk

omit [DecidableEq H] in
theorem pass (h : Searching base devs cam motor) (nr : ℕ) : Searching base devs { cam with nr := nr } motor :=
  ⟨h.nodup, h.closed, h.fresh, h.camClosed, h.motorClosed, h.apart⟩

omit [DecidableEq H] in
theorem take (h : Searching base (entry :: devs) cam motor) :
    Searching base devs { cam with dev := some entry.handle } motor := by
  have hne : ∀ e ∈ devs, e.handle ≠ entry.handle := fun e he heq =>
    (List.nodup_cons.mp h.nodup).1 (heq ▸ List.mem_map_of_mem he)
  refine ⟨h.tail.nodup, h.tail.closed, fun e he => ⟨fun heq => ?_, (h.tail.fresh e he).2⟩,
    fun k hk => ?_, h.motorClosed,
    fun k hk => ?_⟩
  · exact hne e he (Option.some.inj heq).symm
  · rw [← Option.some.inj hk]
    exact h.closed entry List.mem_cons_self
  · rw [← Option.some.inj hk]
    exact (h.fresh entry List.mem_cons_self).2

theorem closed_hold (h : Searching base (entry :: devs) cam motor) :
    ((base.hold motor.dev).hold cam.dev) entry.handle = .closed := by
  obtain ⟨hcam, hmotor⟩ := h.fresh entry List.mem_cons_self
  rw [Usb.hold_apply, if_neg (Option.mem_def.not.mp hcam), Usb.hold_apply, if_neg (Option.mem_def.not.mp hmotor)]
  exact h.closed entry List.mem_cons_self

/-- Only what has been found is held, and both are found if both can be. -/
theorem exists_search (h : Searching base devs cam motor) (index : ℤ) :
    ∃ cam' motor', searchSubdevices index devs cam motor ((base.hold motor.dev).hold cam.dev) =
        some (cam', motor', (base.hold motor'.dev).hold cam'.dev) ∧
      Option.map₂ Prod.mk cam'.dev motor'.dev =
        Option.map₂ Prod.mk (cam.ahead pidNuiCamera index devs) (motor.ahead pidNuiMotor index devs) ∧
      Searching base [] cam' motor' := by
  induction devs generalizing cam motor with
  | nil =>
      refine ⟨cam, motor, rfl, ?_, ⟨List.nodup_nil, nofun, nofun, h.camClosed, h.motorClosed, h.apart⟩⟩
      simp only [Subdevice.ahead, UsbEntry.found_nil]
      cases cam.dev <;> cases motor.dev <;> rfl
  | cons entry devs ih =>
      have hstop : Searching base [] cam motor := ⟨List.nodup_nil, nofun, nofun, h.camClosed, h.motorClosed, h.apart⟩
      cases hdesc : entry.descriptor with
      | none =>
          have hkind (idProduct : UInt16) : entry.isKind idProduct = false := by simp [UsbEntry.isKind, hdesc]
          simp only [searchSubdevices, hdesc, Subdevice.ahead_cons_of_not (hkind _)]
          exact ih h.tail
      | some ids =>
          obtain ⟨idVendor, idProduct⟩ := ids
          by_cases hvendor : idVendor = vidMicrosoft
          · subst hvendor
            have hkind {desc : UInt16} (hne : idProduct ≠ desc) : entry.isKind desc = false := by
              simp [UsbEntry.isKind, hdesc, hne]
            simp only [searchSubdevices, hdesc, ne_eq, not_true_eq_false, if_false]
            by_cases hcamera : idProduct = pidNuiCamera
            · subst hcamera
              have hmotor : pidNuiCamera ≠ pidNuiMotor := by decide
              rw [Subdevice.ahead_cons_of_not (hkind hmotor)]
              rcases Subdevice.visit_cases cam index h.closed_hold hdesc devs with
                ⟨nr, hvisit, hahead⟩ | ⟨hnone, hahead, hvisit⟩ | ⟨hnone, hahead, hvisit⟩
              · simp only [hvisit, Subdevice.visit_of_ne hmotor, hahead, Option.bind_eq_bind, Option.bind_some]
                exact ih (h.tail.pass nr)
              · simp only [hvisit, Subdevice.visit_of_ne hmotor, hahead, Option.bind_eq_bind, Option.bind_some]
                rw [hnone, Usb.hold_none]
                exact ih h.take
              · simp only [hvisit, hahead, Option.bind_eq_bind, Option.bind_some]
                exact ⟨cam, motor, rfl, by rw [hnone]; rfl, hstop⟩
            · rw [Subdevice.ahead_cons_of_not (hkind hcamera)]
              simp only [Subdevice.visit_of_ne hcamera, Option.bind_eq_bind, Option.bind_some]
              by_cases hmotor : idProduct = pidNuiMotor
              · subst hmotor
                rcases Subdevice.visit_cases motor index h.closed_hold hdesc devs with
                  ⟨nr, hvisit, hahead⟩ | ⟨hnone, hahead, hvisit⟩ | ⟨hnone, hahead, hvisit⟩
                · simp only [hvisit, hahead, Option.bind_some]
                  exact ih (h.tail.symm.pass nr).symm
                · simp only [hvisit, hahead, Option.bind_some]
                  rw [hnone, Usb.hold_none, Usb.hold_comm]
                  exact ih h.symm.take.symm
                · simp only [hvisit, hahead, Option.bind_some]
                  exact ⟨cam, motor, rfl, by rw [hnone, Option.map₂_none_right, Option.map₂_none_right], hstop⟩
              · rw [Subdevice.ahead_cons_of_not (hkind hmotor)]
                simp only [Subdevice.visit_of_ne hmotor, Option.bind_some]
                exact ih h.tail
          · have hkind (desc : UInt16) : entry.isKind desc = false := by simp [UsbEntry.isKind, hdesc, hvendor]
            simp only [searchSubdevices, hdesc, Subdevice.ahead_cons_of_not (hkind _), ne_eq, hvendor,
              not_false_eq_true, if_true]
            exact ih h.tail

end Searching

/-! ## Subdevices -/

section Subdevices

variable {usb : Usb H} {devs : List (UsbEntry H)} {index : ℤ} {cam motor : H}

theorem exists_searchSubdevices (index : ℤ) (hnodup : (devs.map UsbEntry.handle).Nodup)
    (hclosed : ∀ e ∈ devs, usb e.handle = .closed) :
    ∃ cam motor, searchSubdevices index devs ⟨none, 0⟩ ⟨none, 0⟩ usb =
      some (cam, motor, (usb.hold motor.dev).hold cam.dev) ∧
      Option.map₂ Prod.mk cam.dev motor.dev = UsbEntry.pair index devs ∧ Searching usb [] cam motor := by
  have hstart : Searching usb devs ⟨none, 0⟩ ⟨none, 0⟩ :=
    ⟨hnodup, hclosed, fun _ _ => ⟨nofun, nofun⟩, nofun, nofun, nofun⟩
  obtain ⟨cam, motor, hsearch, hpair, hend⟩ := hstart.exists_search index
  exact ⟨cam, motor, hsearch, by simpa [Subdevice.ahead, UsbEntry.pair] using hpair, hend⟩

theorem openSubdevices_of_pair (hnodup : (devs.map UsbEntry.handle).Nodup)
    (hclosed : ∀ e ∈ devs, usb e.handle = .closed) (hpair : UsbEntry.pair index devs = some (cam, motor))
    (dev : FreenectDevice P H) :
    fnusbOpenSubdevices dev index (some devs) usb = some (0, { dev with usbCam := some cam, usbMotor := some motor },
      (usb.hold (some motor)).hold (some cam)) ∧ cam ≠ motor := by
  obtain ⟨c, m, hsearch, hfound, hend⟩ := exists_searchSubdevices index hnodup hclosed
  obtain ⟨_, _, hc, hm, heq⟩ := Option.map₂_eq_some_iff.mp (hfound.trans hpair)
  obtain ⟨rfl, rfl⟩ := Prod.mk.inj heq
  refine ⟨?_, fun heq => hend.apart _ hc (heq ▸ hm)⟩
  rw [Option.mem_def] at hc hm
  simp [fnusbOpenSubdevices, hsearch, hc, hm]

theorem openSubdevices_of_none (hnodup : (devs.map UsbEntry.handle).Nodup)
    (hclosed : ∀ e ∈ devs, usb e.handle = .closed) (hpair : UsbEntry.pair index devs = none)
    (dev : FreenectDevice P H) :
    ∃ dev', fnusbOpenSubdevices dev index (some devs) usb = some (-1, dev', usb) := by
  obtain ⟨c, m, hsearch, hfound, hend⟩ := exists_searchSubdevices index hnodup hclosed
  have hnone := Option.map₂_eq_none_iff.mp (hfound.trans hpair)
  have hboth : c.dev.isSome = true → m.dev = none := fun hc => hnone.resolve_left (Option.isSome_iff_ne_none.mp hc)
  have hcam : ((usb.hold m.dev).hold c.dev).giveBack c.dev = some (usb.hold m.dev) := by
    refine Usb.giveBack_hold fun h hh => ?_
    rw [Usb.hold_apply, if_neg fun hm : m.dev = some h => hend.apart h hh hm]
    exact hend.camClosed h hh
  refine ⟨{ dev with usbCam := c.dev, usbMotor := m.dev }, ?_⟩
  simpa [fnusbOpenSubdevices, hsearch, hcam, Usb.giveBack_hold hend.motorClosed] using hboth

end Subdevices

end CarBoundary

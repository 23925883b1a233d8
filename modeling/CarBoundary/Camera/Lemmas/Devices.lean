import CarBoundary.Camera.Lemmas.Subdevices

/-!
# The list of devices
-/

namespace CarBoundary

variable {P H : Type}

namespace OpenDevice

@[simp]
theorem handles_cons (d : OpenDevice P H) (l : List (OpenDevice P H)) :
    handles (d :: l) = d.cam :: d.motor :: handles l := rfl

@[simp]
theorem handles_append (l₁ l₂ : List (OpenDevice P H)) : handles (l₁ ++ l₂) = handles l₁ ++ handles l₂ :=
  List.flatMap_append

end OpenDevice

/-! ## The memory -/

namespace FreenectContext

section Memory

variable [DecidableEq P] {ctx : FreenectContext P H} {p q : P} {next : Option P}

/-- The handles of the device in a block. -/
def subdevices (ctx : FreenectContext P H) (p : P) : Option (Option H × Option H) :=
  (ctx.mem p).map fun dev => (dev.usbCam, dev.usbMotor)

theorem next_store (ctx : FreenectContext P H) (p : P) (dev : FreenectDevice P H) (q : P) :
    (ctx.store p dev).next q = if q = p then some dev.next else ctx.next q := by
  by_cases hq : q = p <;> simp [next, store, hq]

theorem next_free_of_ne (hq : q ≠ p) : (ctx.free p).next q = ctx.next q := by
  simp [next, free, hq]

theorem subdevices_free (ctx : FreenectContext P H) (p q : P) :
    (ctx.free p).subdevices q = if q = p then none else ctx.subdevices q := by
  by_cases hq : q = p <;> simp [subdevices, free, hq]

theorem subdevices_store (ctx : FreenectContext P H) (p : P) (dev : FreenectDevice P H) (q : P) :
    (ctx.store p dev).subdevices q = if q = p then some (dev.usbCam, dev.usbMotor) else ctx.subdevices q := by
  by_cases hq : q = p <;> simp [subdevices, store, hq]

theorem free_store (hp : ctx.mem p = none) (dev : FreenectDevice P H) : (ctx.store p dev).free p = ctx := by
  have hmem : Function.update ctx.mem p none = ctx.mem := by
    rw [← hp, Function.update_eq_self]
  simp [store, free, hmem]

/-- A link that can be read can be written, and nothing else changes. -/
theorem exists_setNext (hnext : ctx.next p = some next) (q : Option P) :
    ∃ ctx', ctx.setNext p q = some ctx' ∧ (∀ a, ctx'.next a = if a = p then some q else ctx.next a) ∧
      (∀ a, ctx'.subdevices a = ctx.subdevices a) ∧ ctx'.first = ctx.first ∧ ctx'.usb = ctx.usb := by
  obtain ⟨dev, hmem, -⟩ := Option.map_eq_some_iff.mp hnext
  refine ⟨ctx.store p { dev with next := q }, by simp [setNext, hmem], next_store ctx p _, fun a => ?_, rfl, rfl⟩
  rw [subdevices_store]
  split_ifs with ha
  · rw [ha, subdevices, hmem]
    rfl
  · rfl

/-- The walk of `freenect_open_device` and the assignment after it. -/
theorem exists_linkLast {l : List P} {first : P} {fuel : ℕ} (hchain : Links.Segment ctx.next (some first) l none)
    (hnodup : l.Nodup) (hp : p ∉ l) (hnext : ctx.next p = some none) (hf : l.length < fuel) :
    ∃ ctx', ((Links.lastNode ctx.next fuel first).bind fun prev => ctx.setNext prev (some p)) = some ctx' ∧
      Links.Segment ctx'.next (some first) (l ++ [p]) none ∧ (∀ a, ctx'.subdevices a = ctx.subdevices a) ∧
      ctx'.first = ctx.first ∧ ctx'.usb = ctx.usb := by
  rcases List.eq_nil_or_concat l with rfl | ⟨l₀, b, rfl⟩
  · cases hchain
  · rw [List.concat_eq_append] at hchain hnodup hp hf ⊢
    obtain ⟨r, hl₀, rfl, t, hb, rfl⟩ := Links.segment_append.mp hchain
    have hlast : Links.lastNode ctx.next fuel first = some b := Links.lastNode_eq hl₀ hb (by simp at hf; omega)
    obtain ⟨ctx', hset, hnext', hsub, hfirst, husb⟩ := exists_setNext hb (some p)
    refine ⟨ctx', by rw [hlast, Option.bind_some, hset], hl₀.push (fun a ha => ?_) ?_ ?_, hsub, hfirst, husb⟩
    · rw [hnext', if_neg fun heq : a = b => (List.nodup_append.mp hnodup).2.2 a ha b List.mem_cons_self heq]
    · rw [hnext', if_pos rfl]
    · rw [hnext', if_neg fun heq : p = b => hp (by simp [heq]), hnext]

/-- The assignment of `freenect_close_device` after its walk, and `free`. -/
theorem exists_unlink {l₁ l₂ : List P} (hchain : Links.Segment ctx.next ctx.first (l₁ ++ p :: l₂) none)
    (hnodup : (l₁ ++ p :: l₂).Nodup) (hnext : ctx.next p = some next) :
    ∃ ctx', (l₁.getLast?.elim (some { ctx with first := next }) fun last => ctx.setNext last next) = some ctx' ∧
      Links.Segment (ctx'.free p).next ctx'.first (l₁ ++ l₂) none ∧ (∀ a, ctx'.subdevices a = ctx.subdevices a) ∧
      ctx'.usb = ctx.usb := by
  have hmiddle : p ∉ l₁ ++ l₂ := (List.nodup_middle.mp hnodup).notMem
  rw [List.mem_append, not_or] at hmiddle
  obtain ⟨r, hl₁, rfl, t, ht, hl₂⟩ := Links.segment_append.mp hchain
  obtain rfl : next = t := Option.some.inj (hnext.symm.trans ht)
  rcases List.eq_nil_or_concat l₁ with rfl | ⟨l₀, b, rfl⟩
  · refine ⟨{ ctx with first := next }, rfl, ?_, fun _ => rfl, rfl⟩
    exact hl₂.congr fun a ha => next_free_of_ne fun heq => hmiddle.2 (heq ▸ ha)
  · rw [List.concat_eq_append] at *
    obtain ⟨_, hb⟩ := hl₁.exists_next (List.mem_append_right l₀ List.mem_cons_self)
    obtain ⟨ctx', hset, hnext', hsub, hfirst, husb⟩ := exists_setNext hb next
    have hne : b ≠ p := fun heq => hmiddle.1 (by simp [heq])
    have hstay {a : P} (ha : a ≠ p) (hab : a ≠ b) : (ctx'.free p).next a = ctx.next a := by
      rw [next_free_of_ne ha, hnext', if_neg hab]
    refine ⟨ctx', by rw [List.getLast?_concat, Option.elim_some, hset], ?_, hsub, husb⟩
    rw [hfirst]
    refine hchain.unlink hnext ?_ (fun a ha => ?_) fun a ha => ?_
    · rw [next_free_of_ne hne, hnext', if_pos rfl]
    · exact hstay (fun heq => hmiddle.1 (by simp [← heq, ha]))
        ((List.nodup_append.mp (List.nodup_append.mp hnodup).1).2.2 a ha b List.mem_cons_self)
    · exact hstay (fun heq => hmiddle.2 (heq ▸ ha))
        ((List.nodup_append.mp hnodup).2.2 b (by simp) a (List.mem_cons_of_mem _ ha)).symm

end Memory

/-! ## What a context stands for -/

namespace Represents

variable {ctx : FreenectContext P H} {l : List (OpenDevice P H)} {d : OpenDevice P H} {p : P} [DecidableEq H]

theorem subdevices_eq (h : ctx.Represents l) (hd : d ∈ l) : ctx.subdevices d.dev = some (some d.cam, some d.motor) := by
  obtain ⟨next, hmem⟩ := h.fields d hd
  rw [subdevices, hmem]
  rfl

/-- It is enough to know the links and the handles. -/
theorem of_subdevices (hchain : Links.Segment ctx.next ctx.first (l.map OpenDevice.dev) none)
    (hnodup : (l.map OpenDevice.dev).Nodup) (hnone : ∀ p ∉ l.map OpenDevice.dev, ctx.subdevices p = none)
    (hsome : ∀ d ∈ l, ctx.subdevices d.dev = some (some d.cam, some d.motor)) (hhandles : (OpenDevice.handles l).Nodup)
    (hclaimed : ∀ h, ctx.usb h = if h ∈ OpenDevice.handles l then .claimed else .closed) : ctx.Represents l where
  chain := hchain
  nodup := hnodup
  allocated p := by
    constructor
    · intro hp
      by_contra hnot
      have := hnone p hnot
      simp [subdevices, Option.isSome_iff_ne_none.mp hp] at this
    · intro hp
      obtain ⟨d, hd, rfl⟩ := List.mem_map.mp hp
      obtain ⟨dev, hdev, -⟩ := Option.map_eq_some_iff.mp (hsome d hd)
      rw [hdev]
      rfl
  fields d hd := by
    obtain ⟨dev, hdev, heq⟩ := Option.map_eq_some_iff.mp (hsome d hd)
    obtain ⟨next, cam, motor⟩ := dev
    obtain ⟨rfl, rfl⟩ := Prod.mk.inj heq
    exact ⟨next, hdev⟩
  handles := hhandles
  claimed := hclaimed

theorem subdevices_eq_none (h : ctx.Represents l) (hp : p ∉ l.map OpenDevice.dev) : ctx.subdevices p = none := by
  have hmem : ctx.mem p = none := Option.not_isSome_iff_eq_none.mp fun hsome => hp ((h.allocated p).mp hsome)
  rw [subdevices, hmem]
  rfl

end Represents

section Changes

variable {ctx ctx' : FreenectContext P H} {l l' l₁ l₂ : List (OpenDevice P H)} {d : OpenDevice P H} {p : P}
  {cam motor : H}
  [DecidableEq P] [DecidableEq H]

omit [DecidableEq P] in
theorem Represents.init : (FreenectContext.init : FreenectContext P H).Represents [] :=
  of_subdevices rfl List.nodup_nil (fun _ _ => rfl) (fun _ hd => nomatch hd) List.nodup_nil fun _ => rfl

theorem Represents.push (h : ctx.Represents l) (hp : p ∉ l.map OpenDevice.dev) (hcam : cam ∉ OpenDevice.handles l)
    (hmotor : motor ∉ OpenDevice.handles l) (hne : cam ≠ motor)
    (hchain : Links.Segment ctx'.next ctx'.first (l.map OpenDevice.dev ++ [p]) none)
    (hsub : ∀ q, ctx'.subdevices q = if q = p then some (some cam, some motor) else ctx.subdevices q)
    (husb : ctx'.usb = (ctx.usb.hold (some motor)).hold (some cam)) : ctx'.Represents (l ++ [⟨p, cam, motor⟩]) := by
  have hmap : (l ++ [(⟨p, cam, motor⟩ : OpenDevice P H)]).map OpenDevice.dev = l.map OpenDevice.dev ++ [p] := by simp
  have hall : OpenDevice.handles (l ++ [(⟨p, cam, motor⟩ : OpenDevice P H)]) = OpenDevice.handles l ++ [cam, motor] :=
    OpenDevice.handles_append l _
  refine of_subdevices (hmap ▸ hchain) ?_ (fun q hq => ?_) (fun d hd => ?_) ?_ fun k => ?_
  · rw [hmap]
    exact h.nodup.append (List.nodup_singleton p) (List.disjoint_singleton.mpr hp)
  · rw [hmap, List.mem_append, not_or, List.mem_singleton] at hq
    rw [hsub, if_neg hq.2, h.subdevices_eq_none hq.1]
  · rcases List.mem_append.mp hd with hd | hd
    · rw [hsub, if_neg fun heq : d.dev = p => hp (heq ▸ List.mem_map_of_mem hd), h.subdevices_eq hd]
    · obtain rfl := List.mem_singleton.mp hd
      rw [hsub, if_pos rfl]
  · rw [hall]
    refine h.handles.append (by simpa using hne) fun k hk hnew => ?_
    rcases List.mem_pair.mp hnew with rfl | rfl
    · exact hcam hk
    · exact hmotor hk
  · have hmem : k ∈ OpenDevice.handles l ++ [cam, motor] ↔ k = cam ∨ k = motor ∨ k ∈ OpenDevice.handles l := by
      rw [List.mem_append, List.mem_pair, or_comm, or_assoc]
    rw [husb, Usb.hold_apply, Usb.hold_apply, h.claimed, hall]
    simp only [hmem, Option.some.injEq, eq_comm (b := k)]
    split_ifs <;> simp_all only [or_true, true_or, or_self, not_true_eq_false]

theorem Represents.erase (h : ctx.Represents (l₁ ++ d :: l₂))
    (hchain : Links.Segment ctx'.next ctx'.first ((l₁ ++ l₂).map OpenDevice.dev) none)
    (hsub : ∀ q, ctx'.subdevices q = if q = d.dev then none else ctx.subdevices q)
    (husb : ctx'.usb = Function.update (Function.update ctx.usb d.cam .closed) d.motor .closed) :
    ctx'.Represents (l₁ ++ l₂) := by
  have hperm : (l₁ ++ d :: l₂).Perm (d :: (l₁ ++ l₂)) := List.perm_middle
  have hdevs : d.dev ∉ (l₁ ++ l₂).map OpenDevice.dev ∧ ((l₁ ++ l₂).map OpenDevice.dev).Nodup :=
    List.nodup_cons.mp ((hperm.map OpenDevice.dev).nodup_iff.mp h.nodup)
  have hhandles : (OpenDevice.handles (l₁ ++ d :: l₂)).Perm (d.cam :: d.motor :: OpenDevice.handles (l₁ ++ l₂)) :=
    hperm.flatMap_right _
  obtain ⟨hcam, hrest⟩ := List.nodup_cons.mp (hhandles.nodup_iff.mp h.handles)
  obtain ⟨hmotor, hrest⟩ := List.nodup_cons.mp hrest
  rw [List.mem_cons, not_or] at hcam
  refine of_subdevices hchain hdevs.2 (fun q hq => ?_) (fun e he => ?_) hrest fun k => ?_
  · rw [hsub]
    split_ifs with hqd
    · rfl
    · refine h.subdevices_eq_none fun hmem => ?_
      rcases List.mem_cons.mp (((hperm.map OpenDevice.dev).mem_iff).mp hmem) with hmem | hmem
      · exact hqd hmem
      · exact hq hmem
  · rw [hsub, if_neg fun heq : e.dev = d.dev => hdevs.1 (heq ▸ List.mem_map_of_mem he)]
    exact h.subdevices_eq (hperm.mem_iff.mpr (List.mem_cons_of_mem d he))
  · rw [husb, Function.update_apply, Function.update_apply, h.claimed]
    simp only [hhandles.mem_iff, List.mem_cons]
    split_ifs <;> simp_all only [or_self, or_true, not_true_eq_false]

/-! ## Opening -/

variable {fuel : ℕ} {index : ℤ} {devs : List (UsbEntry H)} {call : DeviceCall P H} {res : ℤ}

omit [DecidableEq P] in
theorem Represents.closed_of_fresh (h : ctx.Represents l) (hfresh : OpenDevice.Fresh l devs) :
    ∀ entry ∈ devs, ctx.usb entry.handle = .closed := fun entry hentry => by
  rw [h.claimed, if_neg (hfresh.2 entry hentry)]

theorem Represents.exists_openDevice (h : ctx.Represents l) (hp : p ∉ l.map OpenDevice.dev)
    (hfresh : OpenDevice.Fresh l devs) (hpair : UsbEntry.pair index devs = some (cam, motor)) (hf : l.length < fuel) :
    ∃ ctx', ctx.openDevice fuel (some p) index (some devs) = some (0, ctx') ∧
      ctx'.Represents (l ++ [⟨p, cam, motor⟩]) := by
  obtain ⟨hopen, hne⟩ :=
    openSubdevices_of_pair hfresh.1 (h.closed_of_fresh hfresh) hpair (⟨none, none, none⟩ : FreenectDevice P H)
  have hmem {k : H} {idProduct : UInt16} (hk : UsbEntry.found idProduct index devs = some k) :
      k ∉ OpenDevice.handles l := by
    obtain ⟨entry, hentry, -, rfl⟩ := UsbEntry.exists_of_found hk
    exact hfresh.2 entry hentry
  obtain ⟨hcam, hmotor⟩ := UsbEntry.pair_eq_some.mp hpair
  -- the new block, which no link leads to yet
  let mid := { ctx with usb := (ctx.usb.hold (some motor)).hold (some cam) }.store p ⟨none, some cam, some motor⟩
  have hnext (q : P) : mid.next q = if q = p then some none else ctx.next q := next_store _ p _ q
  have hsub (q : P) : mid.subdevices q = if q = p then some (some cam, some motor) else ctx.subdevices q :=
    subdevices_store _ p _ q
  have hchain : Links.Segment mid.next ctx.first (l.map OpenDevice.dev) none :=
    h.chain.congr fun q hq => by rw [hnext, if_neg fun heq : q = p => hp (heq ▸ hq)]
  cases hfirst : ctx.first with
  | none =>
      refine ⟨{ mid with first := some p }, by simp [FreenectContext.openDevice, hopen, mid, store, hfirst], ?_⟩
      rw [hfirst] at hchain
      refine h.push hp (hmem hcam) (hmem hmotor) hne ?_ hsub rfl
      rw [hchain.eq_nil]
      exact ⟨rfl, none, (hnext p).trans (if_pos rfl), rfl⟩
  | some first =>
      rw [hfirst] at hchain
      obtain ⟨ctx', hlink, hchain', hsub', hfirst', husb'⟩ := exists_linkLast hchain h.nodup hp
        ((hnext p).trans (if_pos rfl)) (show (l.map OpenDevice.dev).length < fuel by simpa using hf)
      have hrun : ctx.openDevice fuel (some p) index (some devs) =
          ((Links.lastNode mid.next fuel first).bind fun prev => mid.setNext prev (some p)).bind fun ctx' =>
            some (0, ctx') := by
        rw [Option.bind_assoc]
        simp [FreenectContext.openDevice, hopen, show ({ ctx with usb := _ }.store p _).first = _ from hfirst]
        rfl
      refine ⟨ctx', by rw [hrun, hlink, Option.bind_some], ?_⟩
      refine h.push hp (hmem hcam) (hmem hmotor) hne ?_ (fun q => (hsub' q).trans (hsub q)) husb'
      rw [hfirst', show mid.first = _ from hfirst]
      exact hchain'

/-! ## Closing -/

omit [DecidableEq P] in
theorem Represents.closeSubdevices (h : ctx.Represents l) (hd : d ∈ l) (next : Option P) :
    fnusbCloseSubdevices ⟨next, some d.cam, some d.motor⟩ ctx.usb =
      some (0, ⟨next, none, none⟩, Function.update (Function.update ctx.usb d.cam .closed) d.motor .closed) := by
  have hheld {k : H} (hk : k ∈ [d.cam, d.motor]) : ctx.usb k = .claimed := by
    rw [h.claimed, if_pos (show k ∈ OpenDevice.handles l from List.mem_flatMap.mpr ⟨d, hd, hk⟩)]
  have hne : d.motor ≠ d.cam := by
    have hnodup : [d.cam, d.motor].Nodup := (List.nodup_flatMap.mp h.handles).1 d hd
    simpa [eq_comm] using hnodup
  have hmotor : Function.update ctx.usb d.cam .closed d.motor = .claimed := by
    rw [Function.update_of_ne hne, hheld (by simp)]
  simp [fnusbCloseSubdevices, Usb.giveBack_of_claimed (hheld (k := d.cam) (by simp)), Usb.giveBack_of_claimed hmotor]

theorem Represents.exists_closeDevice (h : ctx.Represents (l₁ ++ d :: l₂)) (hf : l₁.length < fuel) :
    ∃ ctx', ctx.closeDevice fuel d.dev = some (0, ctx') ∧ ctx'.Represents (l₁ ++ l₂) := by
  have hd : d ∈ l₁ ++ d :: l₂ := List.mem_append_right _ List.mem_cons_self
  obtain ⟨next, hmem⟩ := h.fields d hd
  have hclose := h.closeSubdevices hd next
  have hmap : (l₁ ++ d :: l₂).map OpenDevice.dev = l₁.map OpenDevice.dev ++ d.dev :: l₂.map OpenDevice.dev := by simp
  have hnodup : (l₁.map OpenDevice.dev ++ d.dev :: l₂.map OpenDevice.dev).Nodup := hmap ▸ h.nodup
  -- the block without its handles, which the links still lead to
  let mid := { ctx with usb := Function.update (Function.update ctx.usb d.cam .closed) d.motor .closed }.store
    d.dev ⟨next, none, none⟩
  have hctx : ctx.next d.dev = some next := by rw [FreenectContext.next, hmem]; rfl
  have hnext : mid.next = ctx.next := by
    funext q
    rw [next_store]
    split_ifs with hq
    · rw [hq, hctx]
    · rfl
  have hchain : Links.Segment mid.next mid.first (l₁.map OpenDevice.dev ++ d.dev :: l₂.map OpenDevice.dev) none := by
    rw [hnext, ← hmap]
    exact h.chain
  have hseek : Links.seek mid.next d.dev fuel none ctx.first = some ((l₁.map OpenDevice.dev).getLast?, some d.dev) := by
    obtain ⟨_, hl₁, rfl, _⟩ := Links.segment_append.mp hchain
    have hnot : d.dev ∉ l₁.map OpenDevice.dev := fun hin =>
      (List.nodup_append.mp hnodup).2.2 _ hin _ List.mem_cons_self rfl
    exact (Links.seek_eq hl₁ hnot (by simpa using hf) none).trans (by rw [Option.or_none])
  have hrun : ctx.closeDevice fuel d.dev =
      ((l₁.map OpenDevice.dev).getLast?.elim (some { mid with first := next }) fun last => mid.setNext last next).bind
        fun ctx' => some (0, ctx'.free d.dev) := by
    simp only [FreenectContext.closeDevice, hmem, Option.bind_eq_bind, Option.bind_some, hclose]
    rw [if_neg (by decide)]
    change (Links.seek mid.next d.dev fuel none ctx.first).bind _ = _
    rw [hseek, Option.bind_some]
    change (mid.next d.dev).bind _ = _
    rw [hnext, hctx, Option.bind_some]
    cases (l₁.map OpenDevice.dev).getLast? <;> rfl
  obtain ⟨ctx', hunlink, hchain', hsub, husb⟩ := exists_unlink hchain hnodup (by rw [hnext, hctx])
  refine ⟨ctx'.free d.dev, by rw [hrun, hunlink, Option.bind_some], h.erase ?_ (fun q => ?_) husb⟩
  · rw [List.map_append]
    exact hchain'
  · rw [subdevices_free, hsub, subdevices_store]
    split_ifs <;> rfl

/-! ## Calls and runs -/

theorem Represents.exists_call (h : ctx.Represents l) (hcall : OpenDevice.call l call = some (res, l'))
    (hf : l.length < fuel) :
    ∃ ctx', ctx.call fuel call = some (res, ctx') ∧ ctx'.Represents l' := by
  cases call with
  | openDevice block index devs =>
      dsimp only [OpenDevice.call] at hcall
      split_ifs at hcall with hfresh
      cases block with
      | none =>
          cases hcall
          exact ⟨ctx, rfl, h⟩
      | some p =>
          have hp := hfresh.1 p rfl
          have hfree (dev : FreenectDevice P H) : (ctx.store p dev).free p = ctx :=
            free_store (Option.not_isSome_iff_eq_none.mp fun hsome => hp ((h.allocated p).mp hsome)) dev
          cases devs with
          | none =>
              cases hcall
              exact ⟨ctx, by simp [FreenectContext.call, openDevice, fnusbOpenSubdevices, hfree], h⟩
          | some devs =>
              have hnew := hfresh.2 devs rfl
              cases hpair : UsbEntry.pair index devs with
              | none =>
                  obtain ⟨dev, hopen⟩ := openSubdevices_of_none hnew.1 (h.closed_of_fresh hnew) hpair
                    (⟨none, none, none⟩ : FreenectDevice P H)
                  simp only [Option.bind_some, hpair] at hcall
                  cases hcall
                  exact ⟨ctx, by simp [FreenectContext.call, openDevice, hopen, hfree], h⟩
              | some pair =>
                  simp only [Option.bind_some, hpair] at hcall
                  cases hcall
                  exact h.exists_openDevice hp hnew hpair hf
  | closeDevice p =>
      dsimp only [OpenDevice.call] at hcall
      split_ifs at hcall with hp
      cases hcall
      obtain ⟨d, hd, rfl⟩ := List.mem_map.mp hp
      obtain ⟨l₁, l₂, rfl⟩ := List.append_of_mem hd
      have hothers : (l₁ ++ d :: l₂).filter (fun e => e.dev ≠ d.dev) = l₁ ++ l₂ := by
        have hnodup := h.nodup
        rw [List.map_append, List.map_cons, List.nodup_middle, List.nodup_cons, ← List.map_append] at hnodup
        have hne : ∀ e ∈ l₁ ++ l₂, e.dev ≠ d.dev := fun e he heq => hnodup.1 (heq ▸ List.mem_map_of_mem he)
        rw [List.filter_append, List.filter_cons_of_neg (by simp), ← List.filter_append, List.filter_eq_self]
        exact fun e he => decide_eq_true (hne e he)
      rw [hothers]
      exact h.exists_closeDevice (by simp at hf; omega)

theorem length_call_le (hcall : OpenDevice.call l call = some (res, l')) : l'.length ≤ l.length + 1 := by
  cases call with
  | openDevice block index devs =>
      dsimp only [OpenDevice.call] at hcall
      split_ifs at hcall
      split at hcall <;> cases hcall <;> simp
  | closeDevice p =>
      dsimp only [OpenDevice.call] at hcall
      split_ifs at hcall
      cases hcall
      exact Nat.le_succ_of_le (List.length_filter_le _ l)

theorem Represents.exists_step (h : ctx.Represents l) (hstep : OpenDevice.step l call = some l')
    (hf : l.length < fuel) :
    ∃ ctx', ctx.step fuel call = some ctx' ∧ ctx.emit fuel call = OpenDevice.emit l call ∧ ctx'.Represents l' ∧
      l'.length ≤ l.length + 1 := by
  obtain ⟨⟨res, l''⟩, hcall, rfl⟩ := Option.map_eq_some_iff.mp hstep
  obtain ⟨ctx', hcall', hnext⟩ := h.exists_call hcall hf
  exact ⟨ctx', by simp [FreenectContext.step, hcall'], by simp [FreenectContext.emit, OpenDevice.emit, hcall, hcall'],
    hnext, length_call_le hcall⟩

/-- If there are rounds for all the devices that may still be opened, the code follows the list. -/
theorem Represents.exists_exec {calls : List (DeviceCall P H)} (h : ctx.Represents l)
    (hexec : Machine.exec OpenDevice.step l calls = some l') (hf : l.length + calls.length < fuel) :
    ∃ ctx', Machine.exec (FreenectContext.step fuel) ctx calls = some ctx' ∧
      Machine.trace (FreenectContext.step fuel) (FreenectContext.emit fuel) ctx calls =
        Machine.trace OpenDevice.step OpenDevice.emit l calls ∧ ctx'.Represents l' ∧ l'.length < fuel := by
  let R (n : ℕ) (ctx : FreenectContext P H) (l : List (OpenDevice P H)) : Prop := ctx.Represents l ∧ l.length + n < fuel
  have hstep (n : ℕ) (ctx : FreenectContext P H) (l : List (OpenDevice P H)) (call : DeviceCall P H)
    (l' : List (OpenDevice P H))
      (hR : R (n + 1) ctx l) (hcall : OpenDevice.step l call = some l') :
      ∃ ctx', ctx.step fuel call = some ctx' ∧ ctx.emit fuel call = OpenDevice.emit l call ∧ R n ctx' l' := by
    obtain ⟨hrep, hlen⟩ := hR
    obtain ⟨ctx', hstep, hemit, hnext, hle⟩ := hrep.exists_step hcall (show l.length < fuel by omega)
    exact ⟨ctx', hstep, hemit, hnext, by omega⟩
  exact Machine.refinement hstep ⟨h, hf⟩ hexec

omit [DecidableEq P] in
theorem Represents.first_eq (h : ctx.Represents (d :: l)) : ctx.first = some d.dev := h.chain.1

omit [DecidableEq P] in
theorem Represents.eq_init (h : ctx.Represents []) : ctx = FreenectContext.init := by
  obtain ⟨first, mem, usb⟩ := ctx
  have hfirst : first = none := h.chain
  have hmem : mem = fun _ => none := funext fun p =>
    Option.not_isSome_iff_eq_none.mp fun hp => nomatch (h.allocated p).mp hp
  have husb : usb = fun _ => .closed := funext h.claimed
  rw [hfirst, hmem, husb, FreenectContext.init]

theorem Represents.exists_shutdown {rounds : ℕ} (h : ctx.Represents l) (hf : l.length < fuel) (hr : l.length < rounds) :
    ∃ ctx', shutdown fuel rounds ctx = some ctx' ∧ ctx'.Represents [] := by
  induction l generalizing ctx rounds with
  | nil =>
      obtain ⟨rounds, rfl⟩ := Nat.exists_eq_add_of_lt hr
      have hfirst : ctx.first = none := h.chain
      exact ⟨ctx, by simp [shutdown, hfirst], h⟩
  | cons d l ih =>
      cases rounds with
      | zero => cases hr
      | succ rounds =>
          have hfront : ctx.Represents ([] ++ d :: l) := h
          obtain ⟨mid, hclose, hmid⟩ := hfront.exists_closeDevice (Nat.zero_lt_of_lt hf)
          obtain ⟨ctx', hrest, hend⟩ := ih hmid (Nat.lt_of_succ_lt hf) (Nat.lt_of_succ_lt_succ hr)
          exact ⟨ctx', by simp [shutdown, h.first_eq, hclose, hrest], hend⟩

end Changes

end FreenectContext

end CarBoundary

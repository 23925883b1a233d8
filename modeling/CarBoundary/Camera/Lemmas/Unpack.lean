import CarBoundary.Camera.Footage
import CarBoundary.Camera.Unpack

/-!
# The shift buffer as a window

The buffer is a window of 32 bits that slides over the string of bits of the packed bytes. After a value has been
taken, fewer than eight bits are left over, so that a value and what is left over always fit into the buffer.
-/

namespace CarBoundary

variable {raw dst : Bytes} {vw k : ℕ} {u : Unpacker}

/-! ## Values of two bytes -/

theorem load16_store16 (k : ℕ) (x : UInt16) (dst : Bytes) : load16 (store16 k x dst) k = x := by
  have hx := x.toNat_lt
  have hlow : x.toNat % 256 < 2 ^ 8 := Nat.mod_lt _ (by decide)
  have hhigh : (x.toNat >>> 8 % 256) <<< 8 % 65536 = (x.toNat / 256) <<< 8 := by
    rw [Nat.shiftLeft_eq, Nat.shiftLeft_eq, Nat.shiftRight_eq_div_pow]
    omega
  simp only [load16, store16, if_true, Nat.succ_ne_self, if_false]
  refine UInt16.toNat_inj.mp ?_
  simp only [UInt16.toNat_or, UInt8.toNat_toUInt16, UInt16.toNat_toUInt8, UInt16.toNat_shiftLeft,
    UInt16.toNat_shiftRight, UInt16.toNat_ofNat, Nat.reducePow, Nat.reduceMod]
  rw [hhigh, Nat.lor_comm, ← Nat.shiftLeft_add_eq_or_of_lt hlow, Nat.shiftLeft_eq]
  omega

theorem load16_store16_of_ne {j : ℕ} (h : j ≠ k) (x : UInt16) (dst : Bytes) :
    load16 (store16 k x dst) j = load16 dst j := by
  have h1 : 2 * j ≠ 2 * k := by omega
  have h2 : 2 * j ≠ 2 * k + 1 := by omega
  have h3 : 2 * j + 1 ≠ 2 * k := by omega
  have h4 : 2 * j + 1 ≠ 2 * k + 1 := by omega
  simp only [load16, store16, h1, h2, h3, h4, if_false]

theorem store16_of_le {a : ℕ} (h : 2 * (k + 1) ≤ a) (x : UInt16) (dst : Bytes) : store16 k x dst a = dst a := by
  have h1 : a ≠ 2 * k := by omega
  have h2 : a ≠ 2 * k + 1 := by omega
  simp only [store16, h1, h2, if_false]

/-- The bytes as numbers. -/
def Bytes.nat (raw : Bytes) (i : ℕ) : ℕ := (raw i).toNat

theorem Bytes.nat_lt (raw : Bytes) (i : ℕ) : raw.nat i < 2 ^ 8 := (raw i).toNat_lt

namespace Unpacker

/-! ## The shift buffer -/

/-- After `used` bits have been handed out, the rest of the bits read so far is in the buffer. -/
structure Ready (raw : Bytes) (used : ℕ) (u : Unpacker) : Prop where
  bits : 8 * u.pos = used + u.bitsIn
  window : Bits.Window raw.nat 32 u.pos u.buffer.toNat

theorem Ready.start (raw : Bytes) : Ready raw 0 start := ⟨rfl, Bits.Window.zero _ _ _⟩

theorem Ready.load {used : ℕ} (h : Ready raw used u) : Ready raw used (u.load raw) := by
  constructor
  · have := h.bits
    simp only [Unpacker.load]
    omega
  · have hpush := h.window.push (raw.nat_lt u.pos)
    have hbyte : raw.nat u.pos % 2 ^ 32 = raw.nat u.pos :=
      Nat.mod_eq_of_lt ((raw.nat_lt u.pos).trans_le (Nat.pow_le_pow_right (by decide) (by decide)))
    rw [Nat.or_mod_two_pow, hbyte] at hpush
    simp only [Unpacker.load]
    rw [UInt32.toNat_or, UInt32.toNat_shiftLeft, UInt8.toNat_toUInt32]
    exact hpush

/-- The inner loop leaves with the bits of a value, and with fewer than eight more. -/
theorem Ready.fill {used : ℕ} (h : Ready raw used u) (hbits : u.bitsIn < 8) (vw : ℕ) :
    Ready raw used (u.fill raw vw) ∧ vw ≤ (u.fill raw vw).bitsIn ∧ (u.fill raw vw).bitsIn < vw + 8 := by
  have hrun : ∀ fuel (u : Unpacker), Ready raw used u → u.bitsIn < vw + 8 → vw ≤ u.bitsIn + 8 * fuel →
      let u' := Loop.run (fun u => decide (u.bitsIn < vw)) (Unpacker.load raw) fuel u
      Ready raw used u' ∧ vw ≤ u'.bitsIn ∧ u'.bitsIn < vw + 8 := by
    intro fuel
    induction fuel with
    | zero => exact fun u h hlt hle => ⟨h, hle, hlt⟩
    | succ fuel ih =>
        intro u h hlt hle
        by_cases hguard : u.bitsIn < vw
        · have hload : (u.load raw).bitsIn = u.bitsIn + 8 := rfl
          simp only [Loop.run, hguard, decide_true, if_true]
          exact ih _ h.load (by omega) (by omega)
        · simp only [Loop.run, hguard, decide_false, Bool.false_eq_true, if_false]
          exact ⟨h, by omega, hlt⟩
  exact hrun vw u h (by omega) (by omega)

theorem Ready.next {used : ℕ} (h : Ready raw used u) (hbits : u.bitsIn < 8) (vw : ℕ) :
    Ready raw (used + vw) (u.next raw vw) ∧ (u.next raw vw).bitsIn < 8 := by
  obtain ⟨⟨hfill, hwindow⟩, hle, hlt⟩ := h.fill hbits vw
  have hrest : (u.next raw vw).bitsIn = (u.fill raw vw).bitsIn - vw := rfl
  have hpos : (u.next raw vw).pos = (u.fill raw vw).pos := rfl
  exact ⟨⟨by omega, hwindow⟩, by omega⟩

/-- The shift buffer after a number of values. -/
theorem Ready.iterate (raw : Bytes) (vw k : ℕ) :
    Ready raw (k * vw) ((Unpacker.next raw vw)^[k] Unpacker.start) ∧
      ((Unpacker.next raw vw)^[k] Unpacker.start).bitsIn < 8 := by
  induction k with
  | zero =>
      rw [Nat.zero_mul]
      exact ⟨Ready.start raw, Nat.zero_lt_succ 7⟩
  | succ k ih =>
      rw [Function.iterate_succ_apply', Nat.succ_mul]
      exact ih.1.next ih.2 vw

/-- The bytes that have been read are those that the values lie in. -/
theorem pos_iterate (raw : Bytes) (vw k : ℕ) :
    ((Unpacker.next raw vw)^[k] Unpacker.start).pos = (k * vw + 7) / 8 := by
  obtain ⟨⟨hbits, _⟩, hlt⟩ := Ready.iterate raw vw k
  omega

/-! ## The bytes that are read -/

theorem pos_le_run (raw : Bytes) (vw fuel : ℕ) (u : Unpacker) :
    u.pos ≤ (Loop.run (fun u => decide (u.bitsIn < vw)) (Unpacker.load raw) fuel u).pos := by
  induction fuel generalizing u with
  | zero => exact le_rfl
  | succ fuel ih =>
      simp only [Loop.run]
      split
      · exact (Nat.le_succ u.pos).trans (ih (u.load raw))
      · exact le_rfl

theorem fill_congr {raw' : Bytes} (h : ∀ i < (u.fill raw vw).pos, raw' i = raw i) : u.fill raw' vw = u.fill raw vw := by
  have hrun : ∀ fuel (u : Unpacker),
      (∀ i < (Loop.run (fun u => decide (u.bitsIn < vw)) (Unpacker.load raw) fuel u).pos, raw' i = raw i) →
      Loop.run (fun u => decide (u.bitsIn < vw)) (Unpacker.load raw') fuel u =
        Loop.run (fun u => decide (u.bitsIn < vw)) (Unpacker.load raw) fuel u := by
    intro fuel
    induction fuel with
    | zero => exact fun _ _ => rfl
    | succ fuel ih =>
        intro u h
        simp only [Loop.run] at h ⊢
        split
        · next hguard =>
            rw [if_pos hguard] at h
            have hread : u.load raw' = u.load raw := by
              simp only [Unpacker.load]
              rw [h u.pos (pos_le_run raw vw fuel (u.load raw))]
            rw [hread]
            exact ih _ h
        · rfl
  exact hrun vw u h

theorem iterate_congr {raw' : Bytes} (h : ∀ i < (k * vw + 7) / 8, raw' i = raw i) :
    (Unpacker.next raw' vw)^[k] Unpacker.start = (Unpacker.next raw vw)^[k] Unpacker.start := by
  induction k with
  | zero => rfl
  | succ k ih =>
      have hmono : (k * vw + 7) / 8 ≤ ((k + 1) * vw + 7) / 8 :=
        Nat.div_le_div_right (Nat.add_le_add_right (Nat.mul_le_mul_right vw (Nat.le_succ k)) 7)
      have hpos := pos_iterate raw vw (k + 1)
      rw [Function.iterate_succ_apply'] at hpos
      rw [Function.iterate_succ_apply', Function.iterate_succ_apply', ih fun i hi => h i (hi.trans_le hmono)]
      simp only [Unpacker.next]
      rw [fill_congr fun i hi => h i (hi.trans_eq hpos)]

/-! ## Values -/

theorem toNat_mask (h : vw ≤ 16) : ((1 <<< UInt32.ofNat vw : UInt32) - 1).toNat = 2 ^ vw - 1 := by
  have hshift : (1 <<< UInt32.ofNat vw : UInt32).toNat = 2 ^ vw := by
    rw [UInt32.toNat_shiftLeft, UInt32.toNat_ofNat', UInt32.toNat_one, Nat.shiftLeft_eq, Nat.one_mul]
    have hpow : 2 ^ vw < 2 ^ 32 := Nat.pow_lt_pow_right (by decide) (by omega)
    rw [show vw % 2 ^ 32 % 32 = vw by omega, Nat.mod_eq_of_lt hpow]
  rw [UInt32.toNat_sub_of_le, hshift, UInt32.toNat_one]
  rw [UInt32.le_iff_toNat_le, hshift]
  exact Nat.one_le_two_pow

/-- The value that the buffer holds after the first `k` values and one more. -/
theorem Ready.field (h : Ready raw ((k + 1) * vw) u) (hbits : u.bitsIn < 8) (hvw : vw ≤ 16) :
    u.buffer.toNat >>> u.bitsIn % 2 ^ vw = Bits.regroup 8 vw raw.nat k := by
  have hpos : 8 * u.pos = k * vw + vw + u.bitsIn := by
    rw [← Nat.succ_mul]
    exact h.bits
  exact h.window.field hpos (by omega)

theorem Ready.value16 (h : Ready raw ((k + 1) * vw) u) (hbits : u.bitsIn < 8) (hvw : vw ≤ 16) :
    (u.value16 vw).toNat = Bits.regroup 8 vw raw.nat k := by
  have hfield := h.field hbits hvw
  have hlt : Bits.regroup 8 vw raw.nat k < 2 ^ 16 :=
    (Bits.regroup_lt 8 vw raw.nat k).trans_le (Nat.pow_le_pow_right (by decide) hvw)
  have hshift : (u.buffer >>> UInt32.ofNat u.bitsIn).toNat = u.buffer.toNat >>> u.bitsIn := by
    rw [UInt32.toNat_shiftRight, UInt32.toNat_ofNat', show u.bitsIn % 2 ^ 32 % 32 = u.bitsIn by omega]
  rw [Unpacker.value16, UInt32.toNat_toUInt16, UInt32.toNat_and, toNat_mask hvw, hshift, Nat.and_two_pow_sub_one_eq_mod,
    hfield, Nat.mod_eq_of_lt hlt]

/-- Without the mask, the eight bits that are stored are the high bits of the value. -/
theorem Ready.value8 (h : Ready raw ((k + 1) * vw) u) (hbits : u.bitsIn < 8) (hle : 8 ≤ vw) (hvw : vw ≤ 16) :
    (u.value8 vw).toNat = Bits.regroup 8 vw raw.nat k >>> (vw - 8) := by
  have hfield := h.field hbits hvw
  have hshift : (u.buffer >>> UInt32.ofNat (u.bitsIn + vw - 8)).toNat = u.buffer.toNat >>> (u.bitsIn + (vw - 8)) := by
    rw [UInt32.toNat_shiftRight, UInt32.toNat_ofNat',
      show (u.bitsIn + vw - 8) % 2 ^ 32 % 32 = u.bitsIn + (vw - 8) by omega]
  have hsplit : 2 ^ vw = 2 ^ (vw - 8) * 2 ^ 8 := by rw [← Nat.pow_add, Nat.sub_add_cancel hle]
  rw [Unpacker.value8, UInt32.toNat_toUInt8, hshift, Nat.shiftRight_add, ← hfield, Nat.shiftRight_eq_div_pow _ (vw - 8),
    Nat.shiftRight_eq_div_pow _ (vw - 8), hsplit, Nat.mod_mul_right_div_self]

end Unpacker

/-! ## The outer loop -/

namespace Conversion

/-- The values and the shift buffer after a number of rounds. -/
theorem iterate_step16 (raw dst : Bytes) (vw k : ℕ) :
    let c := (step16 raw vw)^[k] (start dst)
    c.unpacker = (Unpacker.next raw vw)^[k] Unpacker.start ∧ c.done = k ∧
      (∀ j < k, load16 c.dst j = ((Unpacker.next raw vw)^[j + 1] Unpacker.start).value16 vw) ∧
      ∀ a ≥ 2 * k, c.dst a = dst a := by
  induction k with
  | zero => exact ⟨rfl, rfl, fun j hj => absurd hj (Nat.not_lt_zero j), fun _ _ => rfl⟩
  | succ k ih =>
      obtain ⟨hunp, hdone, hvalues, hbeyond⟩ := ih
      simp only [Function.iterate_succ_apply']
      refine ⟨?_, ?_, fun j hj => ?_, fun a ha => ?_⟩
      · simp only [step16, hunp]
      · simp only [step16, hdone]
      · simp only [step16, hunp, hdone]
        rcases Nat.lt_succ_iff_lt_or_eq.mp hj with hlt | rfl
        · rw [load16_store16_of_ne hlt.ne, hvalues j hlt, Function.iterate_succ_apply']
        · rw [load16_store16]
      · simp only [step16, hdone]
        rw [store16_of_le ha, hbeyond a (by omega)]

theorem iterate_step8 (raw dst : Bytes) (vw k : ℕ) :
    let c := (step8 raw vw)^[k] (start dst)
    c.unpacker = (Unpacker.next raw vw)^[k] Unpacker.start ∧ c.done = k ∧
      (∀ j < k, c.dst j = ((Unpacker.next raw vw)^[j + 1] Unpacker.start).value8 vw) ∧
      ∀ a ≥ k, c.dst a = dst a := by
  induction k with
  | zero => exact ⟨rfl, rfl, fun j hj => absurd hj (Nat.not_lt_zero j), fun _ _ => rfl⟩
  | succ k ih =>
      obtain ⟨hunp, hdone, hvalues, hbeyond⟩ := ih
      simp only [Function.iterate_succ_apply']
      refine ⟨?_, ?_, fun j hj => ?_, fun a ha => ?_⟩
      · simp only [step8, hunp]
      · simp only [step8, hdone]
      · simp only [step8, hunp, hdone]
        rcases Nat.lt_succ_iff_lt_or_eq.mp hj with hlt | rfl
        · rw [Function.update_of_ne hlt.ne, hvalues j hlt, Function.iterate_succ_apply']
        · rw [Function.update_self]
      · simp only [step8, hdone]
        rw [Function.update_of_ne (by omega), hbeyond a (by omega)]

end Conversion

theorem load16_convertPackedTo16bit (raw dst : Bytes) {len : ℕ} (hvw : vw ≤ 16) (hk : k < len) :
    (load16 (convertPackedTo16bit raw vw len dst) k).toNat = Bits.regroup 8 vw raw.nat k := by
  obtain ⟨hready, hbits⟩ := Unpacker.Ready.iterate raw vw (k + 1)
  obtain ⟨_, _, hvalues, _⟩ := Conversion.iterate_step16 raw dst vw len
  rw [convertPackedTo16bit, hvalues k hk]
  exact hready.value16 hbits hvw

theorem convertPackedTo8bit_apply (raw dst : Bytes) {len : ℕ} (hle : 8 ≤ vw) (hvw : vw ≤ 16) (hk : k < len) :
    (convertPackedTo8bit raw vw len dst k).toNat = Bits.regroup 8 vw raw.nat k >>> (vw - 8) := by
  obtain ⟨hready, hbits⟩ := Unpacker.Ready.iterate raw vw (k + 1)
  obtain ⟨_, _, hvalues, _⟩ := Conversion.iterate_step8 raw dst vw len
  rw [convertPackedTo8bit, hvalues k hk]
  exact hready.value8 hbits hle hvw

theorem convertPackedTo16bit_of_le (raw dst : Bytes) (vw : ℕ) {len a : ℕ} (h : 2 * len ≤ a) :
    convertPackedTo16bit raw vw len dst a = dst a := by
  obtain ⟨_, _, _, hbeyond⟩ := Conversion.iterate_step16 raw dst vw len
  exact hbeyond a h

theorem convertPackedTo8bit_of_le (raw dst : Bytes) (vw : ℕ) {len a : ℕ} (h : len ≤ a) :
    convertPackedTo8bit raw vw len dst a = dst a := by
  obtain ⟨_, _, _, hbeyond⟩ := Conversion.iterate_step8 raw dst vw len
  exact hbeyond a h

namespace Conversion

/-- A conversion depends on the bytes that it reads. -/
theorem iterate_congr {raw' : Bytes} (step : Unpacker → ℕ → Bytes → Bytes) {len : ℕ}
    (h : ∀ i < (len * vw + 7) / 8, raw' i = raw i) :
    let round (raw : Bytes) (c : Conversion) : Conversion :=
      ⟨c.unpacker.next raw vw, c.done + 1, step (c.unpacker.next raw vw) c.done c.dst⟩
    (round raw')^[len] (start dst) = (round raw)^[len] (start dst) := by
  intro round
  have hunp (raw : Bytes) (k : ℕ) :
      ((round raw)^[k] (start dst)).unpacker = (Unpacker.next raw vw)^[k] Unpacker.start := by
    induction k with
    | zero => rfl
    | succ k ih => rw [Function.iterate_succ_apply', Function.iterate_succ_apply', ← ih]
  have hrun : ∀ k ≤ len, (round raw')^[k] (start dst) = (round raw)^[k] (start dst) := by
    intro k
    induction k with
    | zero => exact fun _ => rfl
    | succ k ih =>
        intro hk
        have hle := Nat.div_le_div_right (c := 8) (Nat.add_le_add_right (Nat.mul_le_mul_right vw hk) 7)
        have hnext : (Unpacker.next raw' vw)^[k + 1] Unpacker.start = (Unpacker.next raw vw)^[k + 1] Unpacker.start :=
          Unpacker.iterate_congr fun i hi => h i (hi.trans_le hle)
        have hsame := ih (Nat.le_of_succ_le hk)
        rw [Function.iterate_succ_apply', Function.iterate_succ_apply', ← hunp raw k, ← hunp raw' k, hsame] at hnext
        rw [Function.iterate_succ_apply', Function.iterate_succ_apply', hsame]
        simp only [round, hnext]
  exact hrun len le_rfl

end Conversion

theorem convertPackedTo16bit_congr {raw' : Bytes} {len : ℕ} (h : ∀ i < (len * vw + 7) / 8, raw' i = raw i) :
    convertPackedTo16bit raw' vw len dst = convertPackedTo16bit raw vw len dst :=
  congrArg Conversion.dst (Conversion.iterate_congr (fun u k dst => store16 k (u.value16 vw) dst) h)

theorem convertPackedTo8bit_congr {raw' : Bytes} {len : ℕ} (h : ∀ i < (len * vw + 7) / 8, raw' i = raw i) :
    convertPackedTo8bit raw' vw len dst = convertPackedTo8bit raw vw len dst :=
  congrArg Conversion.dst (Conversion.iterate_congr (fun u k dst => Function.update dst k (u.value8 vw)) h)

/-- What a camera packs, cut back. -/
theorem regroup_pack {values : ℕ → ℕ} {len : ℕ} (h : ∀ i < (len * vw + 7) / 8, raw i = pack vw values i)
    (hk : k < len) (hv : values k < 2 ^ vw) : Bits.regroup 8 vw raw.nat k = values k := by
  have hsame : ∀ i < (len * vw + 7) / 8, raw.nat i = Bits.regroup vw 8 values i := by
    intro i hi
    rw [Bytes.nat, h i hi, pack, UInt8.toNat_ofNat', Nat.mod_eq_of_lt (Bits.regroup_lt vw 8 values i)]
  have hcovered : (k + 1) * vw ≤ (len * vw + 7) / 8 * 8 := by
    have := Nat.mul_le_mul_right vw (Nat.succ_le_of_lt hk)
    rw [Nat.succ_eq_add_one] at this
    omega
  rw [Bits.regroup_congr (by decide) hsame hcovered, Bits.regroup_regroup (by decide) hv]

end CarBoundary

import CarBoundary.Camera.Lemmas.Unpack

/-!
# What unpacking does to the bits

To unpack is to cut the string of bits of the packed bytes into fields of `vw` bits: whatever the width, the number
of values and the bytes are. What a camera packs is therefore what comes out.
-/

namespace CarBoundary

variable {vw len : ℕ}

/-- The values are the fields of the string of bits. Nothing is written behind them, and no byte is read but those
that the fields lie in. -/
theorem unpacking_cuts_the_bits (hvw : vw ≤ 16) (raw dst : Bytes) (len : ℕ) :
    let out := convertPackedTo16bit raw vw len dst
    (∀ k < len, (load16 out k).toNat = Bits.regroup 8 vw raw.nat k) ∧ (∀ a ≥ 2 * len, out a = dst a) ∧
      ∀ raw' : Bytes, (∀ i < (len * vw + 7) / 8, raw' i = raw i) → convertPackedTo16bit raw' vw len dst = out := by
  refine ⟨fun k hk => ?_, fun a ha => ?_, fun raw' h => ?_⟩
  · exact load16_convertPackedTo16bit raw dst hvw hk
  · exact convertPackedTo16bit_of_le raw dst vw ha
  · exact convertPackedTo16bit_congr h

theorem unpacking_cuts_the_bits_depth :
    let out := convertPackedTo16bit (pack 11 fun k => k) 11 3 fun _ => 0
    (∀ k < 3, (load16 out k).toNat = Bits.regroup 8 11 (pack 11 fun k => k).nat k) ∧ (∀ a ≥ 2 * 3, out a = 0) ∧
      ∀ raw' : Bytes, (∀ i < (3 * 11 + 7) / 8, raw' i = pack 11 (fun k => k) i) →
        convertPackedTo16bit raw' 11 3 (fun _ => 0) = out :=
  unpacking_cuts_the_bits (by decide) _ _ 3

/-- The byte path keeps the eight high bits of each field of the bit string. -/
theorem bytes_are_the_high_bits (hle : 8 ≤ vw) (hvw : vw ≤ 16) (raw dst : Bytes) (len : ℕ) :
    let out := convertPackedTo8bit raw vw len dst
    (∀ k < len, (out k).toNat = Bits.regroup 8 vw raw.nat k >>> (vw - 8)) ∧
      (∀ a ≥ len, out a = dst a) ∧
      ∀ raw' : Bytes, (∀ i < (len * vw + 7) / 8, raw' i = raw i) → convertPackedTo8bit raw' vw len dst = out := by
  refine ⟨fun k hk => ?_, fun a ha => ?_, fun raw' h => ?_⟩
  · exact convertPackedTo8bit_apply raw dst hle hvw hk
  · exact convertPackedTo8bit_of_le raw dst vw ha
  · exact convertPackedTo8bit_congr h

theorem bytes_are_the_high_bits_infrared :
    let out := convertPackedTo8bit (pack 10 fun k => k) 10 4 fun _ => 0
    (∀ k < 4, (out k).toNat = Bits.regroup 8 10 (pack 10 fun k => k).nat k >>> (10 - 8)) ∧
      (∀ a ≥ 4, out a = 0) ∧
      ∀ raw' : Bytes, (∀ i < (4 * 10 + 7) / 8, raw' i = pack 10 (fun k => k) i) →
        convertPackedTo8bit raw' 10 4 (fun _ => 0) = out :=
  bytes_are_the_high_bits (by decide) (by decide) _ _ 4

/-- Round trip: values that are packed into bytes come out again. -/
theorem unpack_pack {raw : Bytes} {values : ℕ → ℕ} (hvw : vw ≤ 16)
    (h : ∀ i < (len * vw + 7) / 8, raw i = pack vw values i) (hv : ∀ k < len, values k < 2 ^ vw) (dst : Bytes) :
    ∀ k < len, (load16 (convertPackedTo16bit raw vw len dst) k).toNat = values k := by
  intro k hk
  rw [load16_convertPackedTo16bit raw dst hvw hk, regroup_pack h hk (hv k hk)]

theorem unpack_pack_depth :
    (∀ k < 640 * 480, k % 2048 < 2 ^ 11) ∧ ∀ k < 640 * 480,
      (load16 (convertPackedTo16bit (pack 11 fun k => k % 2048) 11 (640 * 480) fun _ => 0) k).toNat = k % 2048 := by
  have hv : ∀ k < 640 * 480, k % 2048 < 2 ^ 11 := fun k _ => Nat.mod_lt k (by decide)
  exact ⟨hv, unpack_pack (by decide) (fun _ _ => rfl) hv _⟩

end CarBoundary

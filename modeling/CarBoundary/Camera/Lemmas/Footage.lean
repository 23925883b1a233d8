import CarBoundary.Camera.Footage

/-!
# The packets of a camera

What `packetOf` gives is read back by `stream_process` as it was meant.
-/

namespace CarBoundary

/-- The bytes of a number, put together again. -/
theorem le32_bytes (x : UInt32) :
    le32 x.toUInt8 (x >>> 8).toUInt8 (x >>> 16).toUInt8 (x >>> 24).toUInt8 = x := by
  have hx := x.toNat_lt
  have hshift (k : ℕ) : x.toNat >>> k = x.toNat / 2 ^ k := Nat.shiftRight_eq_div_pow _ _
  have h0 : x.toNat % 256 < 2 ^ 8 := Nat.mod_lt _ (by decide)
  have h1 : (x.toNat / 256 % 256) <<< 8 + x.toNat % 256 < 2 ^ 16 := by rw [Nat.shiftLeft_eq]; omega
  have h2 : (x.toNat / 65536 % 256) <<< 16 + ((x.toNat / 256 % 256) <<< 8 + x.toNat % 256) < 2 ^ 24 := by
    rw [Nat.shiftLeft_eq, Nat.shiftLeft_eq]; omega
  have hsmall (k n : ℕ) (hk : k ≤ 24) : (n % 256) <<< k % 4294967296 = (n % 256) <<< k := by
    have hpow : 2 ^ k ≤ 2 ^ 24 := Nat.pow_le_pow_right (by decide) hk
    rw [Nat.shiftLeft_eq]
    refine Nat.mod_eq_of_lt ((Nat.mul_le_mul_left _ hpow).trans_lt ?_)
    have := Nat.mod_lt n (show 0 < 256 by decide)
    omega
  refine UInt32.toNat_inj.mp ?_
  simp only [le32, UInt32.toNat_or, UInt32.toNat_shiftLeft, UInt8.toNat_toUInt32, UInt32.toNat_toUInt8,
    UInt32.toNat_shiftRight, UInt32.toNat_ofNat, Nat.reducePow, Nat.reduceMod, hshift,
    hsmall _ _ (show 8 ≤ 24 by decide),
    hsmall _ _ (show 16 ≤ 24 by decide), hsmall _ _ (show 24 ≤ 24 by decide)]
  rw [Nat.lor_comm (x.toNat % 256), ← Nat.shiftLeft_add_eq_or_of_lt h0, Nat.lor_comm _ ((x.toNat / 65536 % 256) <<< 16),
    ← Nat.shiftLeft_add_eq_or_of_lt h1, Nat.lor_comm _ ((x.toNat / 16777216 % 256) <<< 24),
    ← Nat.shiftLeft_add_eq_or_of_lt h2, Nat.shiftLeft_eq, Nat.shiftLeft_eq, Nat.shiftLeft_eq]
  omega

namespace PacketStream

theorem carries_packetOf (s : PacketStream) (cam : Footage) (n : ℕ) : s.Carries cam n (s.packetOf cam n) := by
  constructor
  · simp [packetOf, pktHdrSize]
    omega
  · exact ⟨rfl, rfl⟩
  · rfl
  · rfl
  · exact le32_bytes _
  · intro k hk
    simp [packetOf, pktHdrSize, List.getD, hk]

/-- The camera's packets with the given numbers. -/
def packetsOf (s : PacketStream) (cam : Footage) (ns : List ℕ) : List (List UInt8) := ns.map (s.packetOf cam)

theorem carries_packetsOf (s : PacketStream) (cam : Footage) (ns : List ℕ) :
    List.Forall₂ (s.Carries cam) ns (s.packetsOf cam ns) := by
  rw [packetsOf, List.forall₂_map_right_iff, List.forall₂_same]
  exact fun n _ => s.carries_packetOf cam n

end PacketStream

end CarBoundary

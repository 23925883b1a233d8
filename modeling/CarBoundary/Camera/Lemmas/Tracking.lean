import CarBoundary.Camera.Footage
import CarBoundary.Camera.Lemmas.Start
import CarBoundary.Lib.Receiver

/-!
# The stream as a receiver

`stream_process` knows the packets only by their headers: eight bits of the number and the flag. On the packets
that a camera sends it does what the receiver of `Lib/Receiver` does with their numbers, as long as fewer than
256 packets are lost in a row (`Tracks`).
-/

namespace CarBoundary

open Receiver (Report)

/-! ## Sequence numbers -/

theorem lost_eq {m n : ℕ} (hle : m ≤ n) (hn : n ≤ m + 255) : (UInt8.ofNat n - UInt8.ofNat m).toNat = n - m := by
  rw [UInt8.toNat_sub, UInt8.toNat_ofNat', UInt8.toNat_ofNat']
  omega

theorem seq_eq_iff {m n : ℕ} (hle : m ≤ n) (hn : n ≤ m + 255) : UInt8.ofNat m = UInt8.ofNat n ↔ m = n := by
  constructor
  · intro h
    have hlost := lost_eq hle hn
    rw [h, UInt8.sub_self] at hlost
    have : n - m = 0 := hlost.symm
    omega
  · rintro rfl; rfl

namespace PacketStream

variable {s : PacketStream} {hdr : PktHdr} {cam : Footage} {pkt : List UInt8} {m n : ℕ}

/-! ## Lost packets -/

/-- The number of the place after a short gap, in the same frame or in the next one. -/
theorem mod_of_near {p : ℕ} (hp : 5 < p) (hle : m ≤ n) (hn : n ≤ m + 5) :
    n / p = m / p ∧ n % p = m % p + (n - m) ∧ m % p + (n - m) < p ∨
      n / p = m / p + 1 ∧ n % p + p = m % p + (n - m) ∧ n % p < 5 := by
  have hpos : 0 < p := by omega
  have hm := Nat.div_add_mod m p
  have hlt := Nat.mod_lt m hpos
  by_cases h : m % p + (n - m) < p
  · have hsum : m % p + (n - m) + p * (m / p) = n := by omega
    obtain ⟨hdiv, hmod⟩ := (Nat.div_mod_unique hpos).mpr ⟨hsum, h⟩
    exact Or.inl ⟨hdiv, hmod, h⟩
  · have hsum : m % p + (n - m) - p + p * (m / p + 1) = n := by rw [Nat.mul_add]; omega
    obtain ⟨hdiv, hmod⟩ := (Nat.div_mod_unique hpos).mpr ⟨hsum, by omega⟩
    exact Or.inr ⟨hdiv, by omega, by omega⟩

theorem handleLost_same (hfix : s.variableLength = false) (hp : 5 < s.pktsPerFrame)
    (hnum : s.pktNum = m % s.pktsPerFrame) (hseq : s.seq = UInt8.ofNat m) (hhdr : hdr.seq = UInt8.ofNat n) (hle : m ≤ n)
    (hn : n ≤ m + 5)
    (hq : n / s.pktsPerFrame = m / s.pktsPerFrame) :
    s.handleLost hdr = some ({ s with seq := hdr.seq, pktNum := n % s.pktsPerFrame }, 0) := by
  obtain ⟨_, hmod, hlt⟩ | ⟨hdiv, _, _⟩ := mod_of_near hp hle hn
  · by_cases hmn : m = n
    · subst hmn
      have hsame : s.seq = hdr.seq := by rw [hseq, hhdr]
      rw [handleLost, if_neg (not_not.mpr hsame), ← hnum, ← hsame]
    · have hne : s.seq ≠ hdr.seq := by
        rw [hseq, hhdr]
        exact fun h => hmn ((seq_eq_iff hle (by omega)).mp h)
      have hlost : (hdr.seq - s.seq).toNat = n - m := by rw [hseq, hhdr]; exact lost_eq hle (by omega)
      have hfew : ¬ (n - m > 5 ∨ s.variableLength = true) := by rw [hfix]; simp; omega
      have hleft : ¬ ((s.pktsPerFrame : ℤ) - (s.pktNum : ℤ) ≤ ((n - m : ℕ) : ℤ)) := by rw [hnum]; omega
      simp only [handleLost, if_pos hne, hlost, if_neg hfew, if_neg hleft]
      rw [hnum, hmod]
  · omega

theorem handleLost_cross (hfix : s.variableLength = false) (hp : 5 < s.pktsPerFrame)
    (hnum : s.pktNum = m % s.pktsPerFrame) (hseq : s.seq = UInt8.ofNat m) (hhdr : hdr.seq = UInt8.ofNat n) (hle : m ≤ n)
    (hn : n ≤ m + 5)
    (hq : m / s.pktsPerFrame < n / s.pktsPerFrame) :
    s.handleLost hdr =
      some ({ s with
        seq := hdr.seq, pktNum := n % s.pktsPerFrame, validPkts := s.gotPkts, gotPkts := 0,
        timestamp := s.lastTimestamp, validFrames := s.validFrames + 1 }, s.frameSize) := by
  obtain ⟨hdiv, _, _⟩ | ⟨_, hmod, _⟩ := mod_of_near hp hle hn
  · omega
  · have hmn : m ≠ n := by rintro rfl; exact absurd hq (Nat.lt_irrefl _)
    have hne : s.seq ≠ hdr.seq := by
      rw [hseq, hhdr]
      exact fun h => hmn ((seq_eq_iff hle (by omega)).mp h)
    have hlost : (hdr.seq - s.seq).toNat = n - m := by rw [hseq, hhdr]; exact lost_eq hle (by omega)
    have hfew : ¬ (n - m > 5 ∨ s.variableLength = true) := by rw [hfix]; simp; omega
    have hleft : (s.pktsPerFrame : ℤ) - (s.pktNum : ℤ) ≤ ((n - m : ℕ) : ℤ) := by rw [hnum]; omega
    have hnext : (((n - m : ℕ) : ℤ) - ((s.pktsPerFrame : ℤ) - (s.pktNum : ℤ))).toNat = n % s.pktsPerFrame := by
      rw [hnum]; omega
    simp only [handleLost, if_pos hne, hlost, if_neg hfew, if_pos hleft, hnext]

theorem handleLost_gap (hseq : s.seq = UInt8.ofNat m) (hhdr : hdr.seq = UInt8.ofNat n) (hgap : m + 5 < n)
    (hn : n ≤ m + 255) : s.handleLost hdr = none := by
  have hne : s.seq ≠ hdr.seq := by
    rw [hseq, hhdr]
    intro h
    have := (seq_eq_iff (by omega) hn).mp h
    omega
  have hlost : (hdr.seq - s.seq).toNat = n - m := by rw [hseq, hhdr]; exact lost_eq (by omega) hn
  have hmany : n - m > 5 ∨ s.variableLength = true := Or.inl (by omega)
  simp only [handleLost, if_pos hne, hlost, if_pos hmany]

/-! ## Placing a packet of the camera -/

theorem Started.placeFlag_eq_eof_iff (hs : s.Started) (r : ℕ) : s.placeFlag r = s.eof ↔ r + 1 = s.pktsPerFrame := by
  have hlong := hs.long
  simp only [placeFlag]
  split
  · next h => exact ⟨fun h' => absurd h' hs.flags.sof_ne_eof, fun h' => by omega⟩
  · split
    · next h => exact ⟨fun _ => h, fun _ => rfl⟩
    · next h => exact ⟨fun h' => absurd h' hs.flags.mof_ne_eof, fun h' => absurd h' h⟩

theorem Started.verdict_copy (hs : s.Started) {r : ℕ} (hr : r < s.pktsPerFrame) (hnum : s.pktNum = r) :
    s.verdict (s.placeFlag r) (s.placeSize r) = .copy := by
  have hlong := hs.long
  have hfits : s.flagFits (s.placeFlag r) = true := by
    by_cases h0 : r = 0
    · simp [flagFits, hs.fixed, placeFlag, hnum, h0]
    · by_cases hend : r + 1 = s.pktsPerFrame
      · simp [flagFits, hs.fixed, placeFlag, hnum, h0, hend]
      · simp [flagFits, hs.fixed, placeFlag, hnum, h0, hend]
        omega
  have hsize : s.placeSize r = s.expectedPktSize := by simp only [placeSize, expectedPktSize, hnum]
  simp [verdict, hfits, hs.fixed, hsize]

theorem Started.endSize (hs : s.Started) (hnum : s.pktNum + 1 = s.pktsPerFrame) (datalen : ℕ) :
    s.endSize datalen = s.frameSize := by
  rw [PacketStream.endSize, hs.sized.frameSize_eq, offset, hs.fixed, show s.pktsPerFrame - 1 = s.pktNum by omega]
  rfl

theorem Carries.data_length (hc : s.Carries cam n pkt) :
    (pkt.drop pktHdrSize).length = s.placeSize (n % s.pktsPerFrame) := by
  rw [List.length_drop, hc.length, Nat.add_sub_cancel_left]

theorem Started.place_eq (hs : s.Started) (hc : s.Carries cam n pkt) (hnum : s.pktNum = n % s.pktsPerFrame) (got : ℕ)
    (raw : Bytes) :
    place (PktHdr.read pkt) (pkt.drop pktHdrSize) s got raw =
      if (n + 1) % s.pktsPerFrame = 0 then
        (⟨(s.advance (PktHdr.read pkt)).finishFrame, memcpy s.offset (pkt.drop pktHdrSize) raw⟩, s.frameSize)
      else (⟨s.advance (PktHdr.read pkt), memcpy s.offset (pkt.drop pktHdrSize) raw⟩, got) := by
  have hpos : 0 < s.pktsPerFrame := by have := hs.long; omega
  have hr := Nat.mod_lt n hpos
  have hend : (n + 1) % s.pktsPerFrame = 0 ↔ n % s.pktsPerFrame + 1 = s.pktsPerFrame := by
    rw [Nat.add_mod_eq_ite]
    have hone : 1 % s.pktsPerFrame = 1 := Nat.mod_eq_of_lt (by have := hs.long; omega)
    rw [hone]
    split <;> omega
  have hverdict := hs.verdict_copy hr hnum
  simp only [place, hc.data_length, hc.flag, hverdict, hs.placeFlag_eq_eof_iff, hend]
  split
  · next h => rw [hs.endSize (hnum ▸ h)]
  · rfl

end PacketStream

/-! ## The relation -/

/-- The byte that a place of a frame holds if `item` is the packet that is held there. -/
def Footage.byteOf (cam : Footage) (period : ℕ) (raw0 : Bytes) (item : Option ℕ) (a : ℕ) : UInt8 :=
  match item with
  | none => raw0 a
  | some n => cam.bytes (n / period) a

/-- The members of the stream say what the receiver expects, and `raw_buf` holds what the receiver holds. -/
structure Tracks (cam : Footage) (raw0 : Bytes) (asm : Assembly) (rx : Receiver.State) : Prop where
  synced : asm.strm.synced = rx.next.isSome
  pktNum : ∀ m, rx.next = some m → asm.strm.pktNum = m % asm.strm.pktsPerFrame
  seq : ∀ m, rx.next = some m → asm.strm.seq = UInt8.ofNat m
  gotPkts : ∀ m, rx.next = some m → asm.strm.gotPkts = rx.got
  lastTimestamp : ∀ m, rx.next = some m →
    0 < m ∧ asm.strm.lastTimestamp = cam.stamp ((m - 1) / asm.strm.pktsPerFrame)
  bytes : ∀ r < asm.strm.pktsPerFrame, ∀ k < asm.strm.placeSize r,
    asm.raw (r * asm.strm.pktSize + k) =
      cam.byteOf asm.strm.pktsPerFrame raw0 (rx.held r) (r * asm.strm.pktSize + k)

/-- What `stream_process` returns, and what it leaves in the stream, for a report of the receiver. -/
def Reported (cam : Footage) (out : Assembly × ℕ) : Option Report → Prop
  | none => out.2 = 0
  | some rep =>
      out.2 = out.1.strm.frameSize ∧ out.1.strm.timestamp = cam.stamp rep.frame ∧ out.1.strm.validPkts = rep.items

section

variable {cam : Footage} {raw0 raw : Bytes} {asm : Assembly} {rx : Receiver.State} {s : PacketStream}
  {pkt : List UInt8} {got n : ℕ}

open PacketStream

/-- A packet that is copied changes the bytes of its own place only. -/
theorem bytes_memcpy (hs : s.Started) (hc : s.Carries cam n pkt) (hnum : s.pktNum = n % s.pktsPerFrame)
    (hbytes : ∀ r < s.pktsPerFrame, ∀ k < s.placeSize r,
      raw (r * s.pktSize + k) = cam.byteOf s.pktsPerFrame raw0 (rx.held r) (r * s.pktSize + k)) (g r k : ℕ)
    (hr : r < s.pktsPerFrame) (hk : k < s.placeSize r) :
    memcpy s.offset (pkt.drop pktHdrSize) raw (r * s.pktSize + k) =
      cam.byteOf s.pktsPerFrame raw0 ((Receiver.take s.pktsPerFrame rx g n).held r) (r * s.pktSize + k) := by
  have hsize (i : ℕ) : s.placeSize i ≤ s.pktSize := by
    simp only [placeSize]
    split
    · exact hs.sized.lastPktSize_le
    · exact le_rfl
  have hmul {i j : ℕ} (h : i < j) : i * s.pktSize + s.pktSize ≤ j * s.pktSize := by
    rw [← Nat.succ_mul]
    exact Nat.mul_le_mul_right _ h
  have hlen := hc.data_length
  have hle := hsize (n % s.pktsPerFrame)
  have hk' := hk.trans_le (hsize r)
  rcases lt_trichotomy r (n % s.pktsPerFrame) with hlt | rfl | hgt
  · have hout : r * s.pktSize + k < s.offset := by
      have := hmul hlt
      rw [offset, hnum]; omega
    rw [memcpy_of_lt hout, hbytes r hr k hk, Receiver.take_held_of_ne hlt.ne]
  · have hin : memcpy s.offset (pkt.drop pktHdrSize) raw (s.offset + k) = (pkt.drop pktHdrSize).getD k 0 :=
      memcpy_add (by rw [hlen]; exact hk)
    rw [offset, hnum] at hin
    rw [offset, hnum, hin, Receiver.take_held_self]
    exact hc.data k hk
  · have hout : s.offset + (pkt.drop pktHdrSize).length ≤ r * s.pktSize + k := by
      have := hmul hgt
      rw [offset, hnum, hlen]; omega
    rw [memcpy_of_le hout, hbytes r hr k hk, Receiver.take_held_of_ne hgt.ne']

theorem seq_succ (n : ℕ) : UInt8.ofNat n + 1 = UInt8.ofNat (n + 1) := by
  rw [UInt8.ofNat_add]; rfl

/-- Placing a packet of the camera in a stream that is at its place. -/
theorem Tracks.place (hs : s.Started) (hc : s.Carries cam n pkt) (hsync : s.synced = true)
    (hnum : s.pktNum = n % s.pktsPerFrame) (hseq : s.seq = UInt8.ofNat n)
    (hbytes : ∀ r < s.pktsPerFrame, ∀ k < s.placeSize r,
      raw (r * s.pktSize + k) = cam.byteOf s.pktsPerFrame raw0 (rx.held r) (r * s.pktSize + k)) :
    Tracks cam raw0 (place (PktHdr.read pkt) (pkt.drop pktHdrSize) s got raw).1
      (Receiver.take s.pktsPerFrame rx s.gotPkts n) := by
  have hpos : 0 < s.pktsPerFrame := by have := hs.long; omega
  have hmod := hs.place_eq hc hnum got raw
  have hbytes' := bytes_memcpy hs hc hnum hbytes s.gotPkts
  by_cases hend : (n + 1) % s.pktsPerFrame = 0
  · rw [if_pos hend] at hmod
    rw [hmod]
    constructor
    · exact hsync
    · intro m hm; cases hm; exact hend.symm
    · intro m hm; cases hm; exact (congrArg (· + 1) hseq).trans (seq_succ n)
    · intro m hm; cases hm; simp [advance, finishFrame, Receiver.take, hend]
    · intro m hm; cases hm; exact ⟨Nat.succ_pos n, hc.timestamp⟩
    · intro r hr k hk; exact hbytes' r k hr hk
  · rw [if_neg hend] at hmod
    rw [hmod]
    have hnext : n % s.pktsPerFrame + 1 = (n + 1) % s.pktsPerFrame := by
      have hlt := Nat.mod_lt n hpos
      have hsum := Nat.div_add_mod n s.pktsPerFrame
      have hne : n % s.pktsPerFrame + 1 ≠ s.pktsPerFrame := by
        intro h
        refine hend (Nat.dvd_iff_mod_eq_zero.mp ⟨n / s.pktsPerFrame + 1, ?_⟩)
        rw [Nat.mul_add, Nat.mul_one]; omega
      exact ((Nat.div_mod_unique hpos).mpr ⟨by omega, by omega⟩ : _ = n / s.pktsPerFrame ∧ _).2.symm
    constructor
    · exact hsync
    · intro m hm; cases hm; exact (congrArg (· + 1) hnum).trans hnext
    · intro m hm; cases hm; exact (congrArg (· + 1) hseq).trans (seq_succ n)
    · intro m hm; cases hm; simp [advance, Receiver.take, hend]
    · intro m hm; cases hm; exact ⟨Nat.succ_pos n, hc.timestamp⟩
    · intro r hr k hk; exact hbytes' r k hr hk

theorem PacketStream.Carries.of_setup {s' : PacketStream} (hc : s.Carries cam n pkt) (hs : s'.setup = s.setup) :
    s'.Carries cam n pkt := by
  have hf : s'.flag = s.flag := (congrArg PacketStream.flag hs :)
  have hp : s'.pktsPerFrame = s.pktsPerFrame := (congrArg PacketStream.pktsPerFrame hs :)
  have hk : s'.pktSize = s.pktSize := (congrArg PacketStream.pktSize hs :)
  have hl : s'.lastPktSize = s.lastPktSize := (congrArg PacketStream.lastPktSize hs :)
  have hsize (r : ℕ) : s'.placeSize r = s.placeSize r := by rw [placeSize, placeSize, hp, hk, hl]
  have hflag (r : ℕ) : s'.placeFlag r = s.placeFlag r := by simp only [placeFlag, sof, mof, eof, hf, hp]
  constructor
  · rw [hsize, hp]; exact hc.length
  · exact hc.magic
  · rw [hflag, hp]; exact hc.flag
  · exact hc.seq
  · rw [hp]; exact hc.timestamp
  · rw [hsize, hp, hk]; exact hc.data

/-! ## One packet of the camera -/

theorem streamProcess_of_sync_none (h : asm.strm.sync (PktHdr.read pkt) = none) :
    streamProcess asm pkt = (asm, 0) := by
  simp only [streamProcess, h]
  split
  · rfl
  · split
    · rfl
    · rfl

theorem streamProcess_of_gap (hc : asm.strm.Carries cam n pkt) (hsync : asm.strm.sync (PktHdr.read pkt) = some s)
    (hlost : s.handleLost (PktHdr.read pkt) = none) :
    streamProcess asm pkt = (⟨{ s with synced := false }, asm.raw⟩, 0) := by
  have hlen : ¬ pkt.length < pktHdrSize := by have := hc.length; omega
  have hmagic : ¬ ((PktHdr.read pkt).magic0 ≠ 0x52 ∨ (PktHdr.read pkt).magic1 ≠ 0x42) := by
    simp [hc.magic.1, hc.magic.2]
  simp only [streamProcess, if_neg hlen, if_neg hmagic, hsync, hlost]

theorem streamProcess_of_placed {s' : PacketStream} (hc : asm.strm.Carries cam n pkt)
    (hsync : asm.strm.sync (PktHdr.read pkt) = some s) (hlost : s.handleLost (PktHdr.read pkt) = some (s', got)) :
    streamProcess asm pkt = place (PktHdr.read pkt) (pkt.drop pktHdrSize) s' got asm.raw := by
  have hlen : ¬ pkt.length < pktHdrSize := by have := hc.length; omega
  have hmagic : ¬ ((PktHdr.read pkt).magic0 ≠ 0x52 ∨ (PktHdr.read pkt).magic1 ≠ 0x42) := by
    simp [hc.magic.1, hc.magic.2]
  simp only [streamProcess, if_neg hlen, if_neg hmagic, hsync, hlost]

/-- The report for a packet of the camera that is placed without a loss before it. -/
theorem Reported.place (hs : s.Started) (hc : s.Carries cam n pkt) (hnum : s.pktNum = n % s.pktsPerFrame) {q : ℕ}
    (hq : n / s.pktsPerFrame = q) (raw : Bytes) :
    Reported cam (place (PktHdr.read pkt) (pkt.drop pktHdrSize) s 0 raw)
      (if (n + 1) % s.pktsPerFrame = 0 then some ⟨q, s.gotPkts + 1⟩ else none) := by
  rw [hs.place_eq hc hnum]
  split
  · exact ⟨rfl, hq ▸ hc.timestamp, rfl⟩
  · rfl

/-- A stream that is out of step takes a packet that begins a frame, and no other. -/
theorem Tracks.receive_none (hs : asm.strm.Started) (ht : Tracks cam raw0 asm rx) (hc : asm.strm.Carries cam n pkt)
    (hnext : rx.next = none) :
    Tracks cam raw0 (streamProcess asm pkt).1 (Receiver.receive asm.strm.pktsPerFrame 5 rx n).1 ∧
      Reported cam (streamProcess asm pkt) (Receiver.receive asm.strm.pktsPerFrame 5 rx n).2 := by
  have hlong := hs.long
  have hsynced : asm.strm.synced = false := by rw [ht.synced, hnext]; rfl
  rw [Receiver.receive_none hnext]
  by_cases h0 : n % asm.strm.pktsPerFrame = 0
  · have hflag : (PktHdr.read pkt).flag = asm.strm.sof := by rw [hc.flag, placeFlag, if_pos h0]
    have hsync : asm.strm.sync (PktHdr.read pkt) = some (asm.strm.restart (PktHdr.read pkt)) := by
      simp [PacketStream.sync, hsynced, hflag]
    have hlost : (asm.strm.restart (PktHdr.read pkt)).handleLost (PktHdr.read pkt) =
        some (asm.strm.restart (PktHdr.read pkt), 0) := by simp [handleLost, restart]
    have hset := setup_sync hsync
    rw [if_pos h0, streamProcess_of_placed hc hsync hlost]
    constructor
    · exact Tracks.place (hs.of_setup hset) (hc.of_setup hset) rfl h0.symm hc.seq ht.bytes
    · have hrep := Reported.place (hs.of_setup hset) (hc.of_setup hset) h0.symm rfl asm.raw
      have hne : ¬ (n + 1) % (asm.strm.restart (PktHdr.read pkt)).pktsPerFrame = 0 := by
        change ¬ (n + 1) % asm.strm.pktsPerFrame = 0
        rw [Nat.add_mod, h0, zero_add, Nat.mod_mod, Nat.mod_eq_of_lt (by omega)]
        exact one_ne_zero
      rwa [if_neg hne] at hrep
  · have hflag : (PktHdr.read pkt).flag ≠ asm.strm.sof := by
      rw [hc.flag, placeFlag, if_neg h0]
      split
      · exact hs.flags.sof_ne_eof.symm
      · exact hs.flags.sof_ne_mof.symm
    have hsync : asm.strm.sync (PktHdr.read pkt) = none := by simp [PacketStream.sync, hsynced, hflag]
    rw [if_neg h0, streamProcess_of_sync_none hsync]
    exact ⟨ht, rfl⟩

/-- A packet of the camera does to the stream what its number does to the receiver. -/
theorem Tracks.receive (hs : asm.strm.Started) (ht : Tracks cam raw0 asm rx) (hc : asm.strm.Carries cam n pkt)
    (hn : ∀ m, rx.next = some m → m ≤ n ∧ n ≤ m + 255) :
    Tracks cam raw0 (streamProcess asm pkt).1 (Receiver.receive asm.strm.pktsPerFrame 5 rx n).1 ∧
      Reported cam (streamProcess asm pkt) (Receiver.receive asm.strm.pktsPerFrame 5 rx n).2 := by
  cases hnext : rx.next with
  | none => exact ht.receive_none hs hc hnext
  | some m =>
      obtain ⟨hle, hnear⟩ := hn m hnext
      have hsynced : asm.strm.synced = true := by rw [ht.synced, hnext]; rfl
      have hsync : asm.strm.sync (PktHdr.read pkt) = some asm.strm := by simp [PacketStream.sync, hsynced]
      have hnum := ht.pktNum m hnext
      have hseq := ht.seq m hnext
      have hgot := ht.gotPkts m hnext
      have hmono : m / asm.strm.pktsPerFrame ≤ n / asm.strm.pktsPerFrame := Nat.div_le_div_right hle
      by_cases hgap : n ≤ m + 5
      · rcases hmono.eq_or_lt with hq | hq
        · have hlost := handleLost_same hs.fixed hs.long hnum hseq hc.seq hle hgap hq.symm
          have hset := setup_handleLost hlost
          rw [Receiver.receive_same hnext hgap hq.symm, streamProcess_of_placed hc hsync hlost, ← hgot]
          constructor
          · exact Tracks.place (hs.of_setup hset) (hc.of_setup hset) hsynced rfl hc.seq ht.bytes
          · exact Reported.place (hs.of_setup hset) (hc.of_setup hset) rfl hq.symm asm.raw
        · have hlost := handleLost_cross hs.fixed hs.long hnum hseq hc.seq hle hgap hq
          have hset := setup_handleLost hlost
          rw [Receiver.receive_cross hnext hgap hq, streamProcess_of_placed hc hsync hlost]
          constructor
          · exact Tracks.place (hs.of_setup hset) (hc.of_setup hset) hsynced rfl hc.seq ht.bytes
          · -- the packet does not end its own frame, so that only the loss is reported
            obtain ⟨h, _, _⟩ | ⟨_, hsum, hlt⟩ := mod_of_near hs.long hle hgap
            · omega
            · have hlong := hs.long
              have hne : ¬ (n + 1) % asm.strm.pktsPerFrame = 0 := by
                rw [Nat.add_mod, Nat.mod_eq_of_lt (show 1 < asm.strm.pktsPerFrame by omega),
                  Nat.mod_eq_of_lt (by omega)]
                exact Nat.succ_ne_zero _
              have hprev : (m - 1) / asm.strm.pktsPerFrame = m / asm.strm.pktsPerFrame := by
                have hdm := Nat.div_add_mod m asm.strm.pktsPerFrame
                have hmlt := Nat.mod_lt m (show 0 < asm.strm.pktsPerFrame by omega)
                exact ((Nat.div_mod_unique (c := m % asm.strm.pktsPerFrame - 1) (by omega)).mpr
                  ⟨by omega, by omega⟩).1
              have hplace := (hs.of_setup hset).place_eq (hc.of_setup hset) rfl asm.strm.frameSize asm.raw
              rw [hplace]
              rw [if_neg (show ¬ (n + 1) % asm.strm.pktsPerFrame = 0 from hne)]
              exact ⟨rfl, by rw [← hprev]; exact (ht.lastTimestamp m hnext).2, hgot⟩
      · have hlost := handleLost_gap hseq hc.seq (by omega) hnear
        rw [Receiver.receive_gap hnext (by omega), streamProcess_of_gap hc hsync hlost]
        refine ⟨⟨rfl, ?_, ?_, ?_, ?_, ht.bytes⟩, rfl⟩
        all_goals intro m hm; cases hm

/-! ## Runs -/

/-- The numbers of packets that come in one after the other, with fewer than 256 lost in between. -/
def Countable (ns : List ℕ) : Prop := ns.IsChain fun m n => m < n ∧ n ≤ m + 256

theorem countable_range' (n j : ℕ) : Countable (List.range' n j) :=
  (List.isChain_range' n j 1).imp fun _ _ h => by omega

/-- What the stream shows at a report of the receiver. -/
def Shown (cam : Footage) (asm : Assembly) (rep : Report) : Prop :=
  asm.strm.timestamp = cam.stamp rep.frame ∧ asm.strm.validPkts = rep.items

theorem Countable.next {ns : List ℕ} (h : Countable (n :: ns)) {period : ℕ} (m n' : ℕ)
    (hm : (Receiver.receive period 5 rx n).1.next = some m) (hn' : n' ∈ ns.head?) : m ≤ n' ∧ n' ≤ m + 255 := by
  rw [Receiver.expects_of_receive hm]
  cases ns with
  | nil => cases hn'
  | cons n'' ns =>
      cases hn'
      have hlink := (List.isChain_cons_cons.mp h).1
      omega

theorem Tracks.run {ns : List ℕ} {pkts : List (List UInt8)} (hs : asm.strm.Started) (ht : Tracks cam raw0 asm rx)
    (hc : List.Forall₂ (asm.strm.Carries cam) ns pkts) (hns : Countable ns)
    (hn : ∀ m n, rx.next = some m → n ∈ ns.head? → m ≤ n ∧ n ≤ m + 255) :
    Tracks cam raw0 (streamRun asm pkts) (Receiver.run asm.strm.pktsPerFrame 5 rx ns) ∧
      List.Forall₂ (Shown cam) (streamFrames asm pkts) (Receiver.reports asm.strm.pktsPerFrame 5 rx ns) := by
  induction ns generalizing asm rx pkts with
  | nil =>
      cases hc
      exact ⟨ht, List.Forall₂.nil⟩
  | cons n ns ih =>
      cases hc with
      | cons hpkt hpkts =>
          next pkt pkts =>
          obtain ⟨ht', hrep⟩ := ht.receive hs hpkt fun m hm => hn m n hm rfl
          have hset := setup_streamProcess asm pkt
          have hp : (streamProcess asm pkt).1.strm.pktsPerFrame = asm.strm.pktsPerFrame :=
            (congrArg pktsPerFrame hset :)
          have hrest := ih (hs.of_setup hset) ht' (hpkts.imp fun _ _ h => h.of_setup hset)
            (List.IsChain.tail hns) hns.next
          rw [hp] at hrest
          refine ⟨hrest.1, ?_⟩
          rw [Receiver.reports, streamFrames]
          cases hreport : (Receiver.receive asm.strm.pktsPerFrame 5 rx n).2 with
          | none =>
              rw [hreport] at hrep
              have h0 : (streamProcess asm pkt).2 = 0 := hrep
              simp only [h0, if_true]
              exact hrest.2
          | some rep =>
              rw [hreport] at hrep
              obtain ⟨hsize, hstamp, hitems⟩ := hrep
              have hpos : (streamProcess asm pkt).2 ≠ 0 := by
                rw [hsize]
                exact (hs.of_setup hset).frameSize_pos.ne'
              simp only [hpos, if_false]
              exact List.Forall₂.cons ⟨hstamp, hitems⟩ hrest.2

theorem streamRun_append (asm : Assembly) (pkts pkts' : List (List UInt8)) :
    streamRun asm (pkts ++ pkts') = streamRun (streamRun asm pkts) pkts' :=
  List.foldl_append

theorem streamFrames_append (asm : Assembly) (pkts pkts' : List (List UInt8)) :
    streamFrames asm (pkts ++ pkts') = streamFrames asm pkts ++ streamFrames (streamRun asm pkts) pkts' := by
  induction pkts generalizing asm with
  | nil => rfl
  | cons pkt pkts ih =>
      simp only [List.cons_append, streamFrames, ih]
      split
      · rfl
      · rfl

/-- A stream that is not synchronised waits for a packet that begins a frame. -/
theorem streamRun_waiting {ns : List ℕ} {pkts : List (List UInt8)} (hs : asm.strm.Started)
    (h : asm.strm.synced = false) (hc : List.Forall₂ (asm.strm.Carries cam) ns pkts)
    (hns : ∀ n ∈ ns, n % asm.strm.pktsPerFrame ≠ 0) : streamRun asm pkts = asm ∧ streamFrames asm pkts = [] := by
  induction hc with
  | nil => exact ⟨rfl, rfl⟩
  | @cons n pkt ns pkts hpkt _ ih =>
      have hflag : (PktHdr.read pkt).flag ≠ asm.strm.sof := by
        rw [hpkt.flag, placeFlag, if_neg (hns n List.mem_cons_self)]
        split
        · exact hs.flags.sof_ne_eof.symm
        · exact hs.flags.sof_ne_mof.symm
      have hsync : asm.strm.sync (PktHdr.read pkt) = none := by simp [PacketStream.sync, h, hflag]
      have hsame := streamProcess_of_sync_none hsync
      obtain ⟨hrun, hframes⟩ := ih fun n' hn' => hns n' (List.mem_cons_of_mem _ hn')
      constructor
      · exact (congrArg (streamRun · pkts) (congrArg Prod.fst hsame)).trans hrun
      · simp only [streamFrames, hsame, if_true]
        exact hframes

theorem exists_place (hs : asm.strm.Sized) {a : ℕ} (ha : a < asm.strm.frameSize) :
    a / asm.strm.pktSize < asm.strm.pktsPerFrame ∧
      a % asm.strm.pktSize < asm.strm.placeSize (a / asm.strm.pktSize) ∧
      a / asm.strm.pktSize * asm.strm.pktSize + a % asm.strm.pktSize = a := by
  obtain ⟨hpos, hlast, hsize⟩ := hs
  have hpkt : 0 < asm.strm.pktSize := by
    rcases Nat.eq_zero_or_pos asm.strm.pktSize with h0 | h
    · rw [hsize, h0] at ha; omega
    · exact h
  have hdm := Nat.div_add_mod' a asm.strm.pktSize
  have hmod := Nat.mod_lt a hpkt
  have hlt : a / asm.strm.pktSize < asm.strm.pktsPerFrame := by
    rw [Nat.div_lt_iff_lt_mul hpkt]
    calc a < (asm.strm.pktsPerFrame - 1) * asm.strm.pktSize + asm.strm.pktSize := by omega
      _ = asm.strm.pktsPerFrame * asm.strm.pktSize := by
        rw [← Nat.succ_mul, Nat.succ_eq_add_one, Nat.sub_add_cancel hpos]
  refine ⟨hlt, ?_, hdm⟩
  simp only [placeSize]
  split
  · next h =>
      rw [show asm.strm.pktsPerFrame - 1 = a / asm.strm.pktSize by omega] at hsize
      omega
  · exact hmod

/-- A byte of the buffer after a run. -/
theorem Tracks.byte {pkts : List (List UInt8)} (ht : Tracks cam raw0 (streamRun asm pkts) rx) (hs : asm.strm.Sized)
    {a : ℕ} (ha : a < asm.strm.frameSize) :
    (streamRun asm pkts).raw a = cam.byteOf asm.strm.pktsPerFrame raw0 (rx.held (a / asm.strm.pktSize)) a := by
  have hset := setup_streamRun asm pkts
  have hnum : (streamRun asm pkts).strm.pktsPerFrame = asm.strm.pktsPerFrame := (congrArg pktsPerFrame hset :)
  have hpkt : (streamRun asm pkts).strm.pktSize = asm.strm.pktSize := (congrArg pktSize hset :)
  have hlast : (streamRun asm pkts).strm.lastPktSize = asm.strm.lastPktSize := (congrArg lastPktSize hset :)
  obtain ⟨hr, hk, hsum⟩ := exists_place hs ha
  have hbytes := ht.bytes
  simp only [placeSize, hnum, hpkt, hlast] at hbytes
  have hbyte := hbytes _ hr _ hk
  rwa [hsum] at hbyte

/-- A stream that is not synchronised is a receiver that is out of step and holds nothing yet. -/
theorem Tracks.lost (cam : Footage) (h : s.synced = false) : Tracks cam raw ⟨s, raw⟩ Receiver.State.lost where
  synced := h
  pktNum _ hm := nomatch hm
  seq _ hm := nomatch hm
  gotPkts _ hm := nomatch hm
  lastTimestamp _ hm := nomatch hm
  bytes _ _ _ _ := rfl

/-! ## Frames without a lost packet -/

/-- If all packets of the frame have come in, the buffer is the frame. -/
def Exact (s : PacketStream) (cam : Footage) (out : Assembly) (rep : Report) : Prop :=
  rep.items = s.pktsPerFrame → ∀ a < s.frameSize, out.raw a = cam.bytes rep.frame a

theorem exact_of_setup {s' : PacketStream} (h : s'.setup = s.setup) : Exact s' cam = Exact s cam := by
  have hp : s'.pktsPerFrame = s.pktsPerFrame := (congrArg pktsPerFrame h :)
  have hf : s'.frameSize = s.frameSize := (congrArg frameSize h :)
  funext out rep
  simp only [Exact, hp, hf]

theorem Tracks.exact (hs : asm.strm.Sized) (ht : Tracks cam raw0 asm rx) {q : ℕ}
    (hheld : ∀ r < asm.strm.pktsPerFrame, rx.held r = some (q * asm.strm.pktsPerFrame + r)) :
    ∀ a < asm.strm.frameSize, asm.raw a = cam.bytes q a := by
  intro a ha
  obtain ⟨hr, _, _⟩ := exists_place hs ha
  have hrun : Tracks cam raw0 (streamRun asm []) rx := ht
  have hbyte := hrun.byte hs ha
  rwa [hheld _ hr, Footage.byteOf, Receiver.mul_add_div hs.pktsPerFrame_pos hr] at hbyte

theorem Tracks.run_exact {ns : List ℕ} {pkts : List (List UInt8)} (hs : asm.strm.Started)
    (ht : Tracks cam raw0 asm rx) (hfull : Receiver.Full asm.strm.pktsPerFrame rx)
    (hc : List.Forall₂ (asm.strm.Carries cam) ns pkts) (hns : Countable ns)
    (hn : ∀ m n, rx.next = some m → n ∈ ns.head? → m ≤ n ∧ n ≤ m + 255) :
    List.Forall₂ (Exact asm.strm cam) (streamFrames asm pkts) (Receiver.reports asm.strm.pktsPerFrame 5 rx ns) := by
  have hpos : 0 < asm.strm.pktsPerFrame := by have := hs.long; omega
  induction ns generalizing asm rx pkts with
  | nil =>
      cases hc
      exact List.Forall₂.nil
  | cons n ns ih =>
      cases hc with
      | cons hpkt hpkts =>
          next pkt pkts =>
          have hhead (m : ℕ) (hm : rx.next = some m) : m ≤ n ∧ n ≤ m + 255 := hn m n hm rfl
          obtain ⟨ht', hrep⟩ := ht.receive hs hpkt hhead
          obtain ⟨hfull', hexact⟩ := hfull.receive hpos (fun m hm => (hhead m hm).1) 5
          have hset := setup_streamProcess asm pkt
          have hp : (streamProcess asm pkt).1.strm.pktsPerFrame = asm.strm.pktsPerFrame :=
            (congrArg pktsPerFrame hset :)
          have hrest := ih (hs.of_setup hset) ht' (hp ▸ hfull') (hpkts.imp fun _ _ h => h.of_setup hset)
            (List.IsChain.tail hns) (Countable.next hns) (hp ▸ hpos)
          have hf : (streamProcess asm pkt).1.strm.frameSize = asm.strm.frameSize := (congrArg frameSize hset :)
          rw [hp, exact_of_setup hset] at hrest
          rw [Receiver.reports, streamFrames]
          cases hreport : (Receiver.receive asm.strm.pktsPerFrame 5 rx n).2 with
          | none =>
              rw [hreport] at hrep
              have h0 : (streamProcess asm pkt).2 = 0 := hrep
              simp only [h0, if_true]
              exact hrest
          | some rep =>
              rw [hreport] at hrep
              have hsize : (streamProcess asm pkt).2 ≠ 0 := by
                rw [hrep.1]
                exact (hs.of_setup hset).frameSize_pos.ne'
              simp only [hsize, if_false]
              refine List.Forall₂.cons (fun hitems => ?_) hrest
              rw [← hf]
              refine ht'.exact (hs.of_setup hset).sized ?_
              rw [hp]
              exact hexact rep hreport hitems

/-- What a frame that is reported after the packets with the numbers `ns` has to do with the camera. -/
structure Delivers (s : PacketStream) (cam : Footage) (ns : List ℕ) (out : Assembly) (frame : ℕ) : Prop where
  timestamp : out.strm.timestamp = cam.stamp frame
  validPkts : out.strm.validPkts = ns.countP fun n => n / s.pktsPerFrame == frame
  bytes : (∀ r < s.pktsPerFrame, frame * s.pktsPerFrame + r ∈ ns) → ∀ a < s.frameSize, out.raw a = cam.bytes frame a

theorem delivered {ns : List ℕ} {pkts : List (List UInt8)} (hs : asm.strm.Started) (h : asm.strm.synced = false)
    (hc : List.Forall₂ (asm.strm.Carries cam) ns pkts) (hns : Countable ns) :
    ∃ frames : List ℕ, frames.Pairwise (· < ·) ∧
      List.Forall₂ (Delivers asm.strm cam ns) (streamFrames asm pkts) frames := by
  have hpos : 0 < asm.strm.pktsPerFrame := hs.sized.pktsPerFrame_pos
  have hsorted : ns.Pairwise (· < ·) := List.isChain_iff_pairwise.mp (hns.imp fun _ _ h => h.1)
  have htracks : Tracks cam asm.raw ⟨asm.strm, asm.raw⟩ Receiver.State.lost := Tracks.lost cam h
  obtain ⟨_, hframes⟩ := htracks.run hs hc hns fun _ _ hm => nomatch hm
  have hexact := htracks.run_exact hs (Receiver.Full.lost _) hc hns fun _ _ hm => nomatch hm
  refine ⟨(Receiver.reports asm.strm.pktsPerFrame 5 Receiver.State.lost ns).map Report.frame, ?_, ?_⟩
  · exact List.pairwise_map.mpr (Receiver.reports_increasing (Receiver.behind_lost ns) hsorted)
  · rw [List.forall₂_map_right_iff, List.forall₂_iff_zip]
    refine ⟨hframes.length_eq, fun {out rep} hmem => ?_⟩
    have hitems := Receiver.items_of_mem_reports hsorted (List.of_mem_zip hmem).2
    obtain ⟨hstamp, hvalid⟩ := List.forall₂_zip hframes hmem
    refine ⟨hstamp, hvalid.trans hitems, fun hall => List.forall₂_zip hexact hmem ?_⟩
    rw [hitems, Receiver.itemsOf_eq_period hpos hsorted hall]

end

end CarBoundary

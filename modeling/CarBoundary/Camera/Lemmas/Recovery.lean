import CarBoundary.Camera.Lemmas.Tracking

/-!
# Whole frames

The first packet of a frame either finds the stream at its place or puts it out of step, in whatever state the
stream is. When the rest of the frame has come in as well, the stream is ready for the next frame.
-/

namespace CarBoundary

open PacketStream

variable {asm : Assembly} {cam : Footage} {s s' : PacketStream} {hdr : PktHdr} {pkt : List UInt8} {got n : ℕ}

theorem PacketStream.handleLost_place (h : s.handleLost hdr = some (s', got)) :
    s'.synced = s.synced ∧ s'.seq = hdr.seq := by
  simp only [PacketStream.handleLost] at h
  split at h
  · split at h
    · cases h
    · split at h
      · cases h; exact ⟨rfl, rfl⟩
      · cases h; exact ⟨rfl, rfl⟩
  · next hseq => cases h; exact ⟨rfl, not_not.mp hseq⟩

theorem PacketStream.Started.flagFits_sof (hs : s.Started) (h : s.flagFits s.sof = true) : s.pktNum = 0 := by
  simp only [flagFits, hs.fixed, Bool.not_false, if_true, Bool.or_eq_true, Bool.and_eq_true, decide_eq_true_eq,
    beq_iff_eq] at h
  rcases h with (⟨h, _⟩ | ⟨_, h⟩) | ⟨_, h⟩
  · exact h
  · exact absurd h hs.flags.sof_ne_eof
  · exact absurd h hs.flags.sof_ne_mof

/-- The packet that begins a frame is taken as such, or puts the stream out of step, in whatever state it is. -/
theorem first_packet_settles (hs : asm.strm.Started) (hc : asm.strm.Carries cam n pkt)
    (h0 : n % asm.strm.pktsPerFrame = 0) :
    ∃ rx, (rx.next = none ∨ rx.next = some (n + 1)) ∧ Tracks cam asm.raw (streamProcess asm pkt).1 rx := by
  have hflag : (PktHdr.read pkt).flag = asm.strm.sof := by rw [hc.flag, placeFlag, if_pos h0]
  cases hsynced : asm.strm.synced with
  | false =>
      have htracks := ((Tracks.lost cam hsynced).receive_none hs hc rfl).1
      rw [Receiver.receive_none rfl, if_pos h0] at htracks
      exact ⟨_, Or.inr rfl, htracks⟩
  | true =>
      have hsync : asm.strm.sync (PktHdr.read pkt) = some asm.strm := by simp [PacketStream.sync, hsynced]
      cases hlost : asm.strm.handleLost (PktHdr.read pkt) with
      | none =>
          rw [streamProcess_of_gap hc hsync hlost]
          exact ⟨Receiver.State.lost, Or.inl rfl, Tracks.lost cam rfl⟩
      | some out =>
          obtain ⟨s, got⟩ := out
          have hset := setup_handleLost hlost
          obtain ⟨hsync', hseq⟩ := handleLost_place hlost
          have hsof : asm.strm.sof = s.sof := by
            have hf : s.flag = asm.strm.flag := (congrArg PacketStream.flag hset :)
            rw [sof, sof, hf]
          have hnum : s.pktsPerFrame = asm.strm.pktsPerFrame := (congrArg PacketStream.pktsPerFrame hset :)
          rw [streamProcess_of_placed hc hsync hlost]
          cases hfits : s.flagFits s.sof with
          | false =>
              have hverdict : s.verdict (PktHdr.read pkt).flag (pkt.drop pktHdrSize).length = .resync := by
                rw [hflag, hsof]
                simp [verdict, hfits]
              simp only [place, hverdict]
              exact ⟨Receiver.State.lost, Or.inl rfl, Tracks.lost cam rfl⟩
          | true =>
              have hs' := hs.of_setup hset
              have hplace : Tracks cam asm.raw (place (PktHdr.read pkt) (pkt.drop pktHdrSize) s got asm.raw).1
                  (Receiver.take s.pktsPerFrame Receiver.State.lost s.gotPkts n) :=
                Tracks.place hs' (hc.of_setup hset) (hsync'.trans hsynced)
                  ((hs'.flagFits_sof hfits).trans (hnum ▸ h0.symm)) (hseq.trans hc.seq) fun _ _ _ _ => rfl
              exact ⟨_, Or.inr rfl, hplace⟩

/-- In step with the camera between two frames, or out of step. -/
def AtFrame (rx : Receiver.State) (n : ℕ) : Prop := rx.next = none ∨ rx.next = some n ∧ rx.got = 0

/-- The stream is between two frames, or out of step, after the packets of a whole frame. -/
theorem frame_settles (hs : asm.strm.Started) {q : ℕ} {pkts : List (List UInt8)}
    (hc : List.Forall₂ (asm.strm.Carries cam) (List.range' (q * asm.strm.pktsPerFrame) asm.strm.pktsPerFrame) pkts) :
    ∃ rx, AtFrame rx ((q + 1) * asm.strm.pktsPerFrame) ∧ Tracks cam asm.raw (streamRun asm pkts) rx := by
  have hlong := hs.long
  obtain ⟨j, hj⟩ : ∃ j, asm.strm.pktsPerFrame = j + 2 := ⟨asm.strm.pktsPerFrame - 2, by omega⟩
  have hsplit : List.range' (q * asm.strm.pktsPerFrame) asm.strm.pktsPerFrame =
      q * asm.strm.pktsPerFrame :: List.range' (q * asm.strm.pktsPerFrame + 1) (j + 1) := by
    conv_lhs => rw [show asm.strm.pktsPerFrame = (j + 1) + 1 from hj, List.range'_succ]
    rw [hj]
  rw [hsplit, List.forall₂_cons_left_iff] at hc
  obtain ⟨pkt, rest, hpkt, hrest, rfl⟩ := hc
  obtain ⟨rx, hrx, htracks⟩ := first_packet_settles hs hpkt (Nat.mul_mod_left _ _)
  have hset := setup_streamProcess asm pkt
  have hnum : (streamProcess asm pkt).1.strm.pktsPerFrame = asm.strm.pktsPerFrame :=
    (congrArg PacketStream.pktsPerFrame hset :)
  have hfirst : ∀ m n, rx.next = some m → n ∈ (List.range' (q * asm.strm.pktsPerFrame + 1) (j + 1)).head? →
      m ≤ n ∧ n ≤ m + 255 := by
    intro m n hm hn
    rw [List.head?_range', if_neg (Nat.succ_ne_zero j)] at hn
    cases hn
    rcases hrx with hrx | hrx
    · rw [hrx] at hm; cases hm
    · rw [hrx] at hm; cases hm
      omega
  obtain ⟨hrun, _⟩ :=
    htracks.run (hs.of_setup hset) (hrest.imp fun _ _ h => h.of_setup hset) (countable_range' _ _) hfirst
  rw [hnum] at hrun
  refine ⟨_, ?_, hrun⟩
  rcases hrx with hrx | hrx
  · refine Or.inl ((congrArg Receiver.State.next (Receiver.run_waiting hrx fun n hn => ?_)).trans hrx)
    obtain ⟨hle, hlt⟩ := List.mem_range'_1.mp hn
    obtain ⟨i, rfl⟩ : ∃ i, n = q * asm.strm.pktsPerFrame + i := ⟨n - q * asm.strm.pktsPerFrame, by omega⟩
    rw [Nat.mul_add_mod_of_lt (by omega)]
    omega
  · exact Or.inr (Receiver.run_rest (i := 1) (by omega) hrx)

/-- A frame that comes in as a whole is reported with its last packet. -/
theorem Tracks.whole_frame {raw0 : Bytes} {rx : Receiver.State} (hs : asm.strm.Started) (ht : Tracks cam raw0 asm rx)
    {q : ℕ} {pkts : List (List UInt8)} (hrx : AtFrame rx (q * asm.strm.pktsPerFrame))
    (hc : List.Forall₂ (asm.strm.Carries cam) (List.range' (q * asm.strm.pktsPerFrame) asm.strm.pktsPerFrame) pkts) :
    streamFrames asm pkts = [streamRun asm pkts] ∧ (streamRun asm pkts).strm.timestamp = cam.stamp q ∧
      (streamRun asm pkts).strm.validPkts = asm.strm.pktsPerFrame ∧
      ∀ a < asm.strm.frameSize, (streamRun asm pkts).raw a = cam.bytes q a := by
  have hlong := hs.long
  obtain ⟨j, hj⟩ : ∃ j, asm.strm.pktsPerFrame = j + 1 := ⟨asm.strm.pktsPerFrame - 1, by omega⟩
  have hready : Receiver.Ready 5 rx (q * asm.strm.pktsPerFrame) := by
    intro m hm
    rcases hrx with hrx | ⟨hrx, hgot⟩
    · rw [hrx] at hm; cases hm
    · rw [hrx] at hm; cases hm
      exact ⟨le_rfl, Nat.le_add_right _ _, fun _ => hgot⟩
  obtain ⟨hreport, _, _, hheld⟩ := Receiver.receive_last (by omega) hready
  -- the packets before the last one
  have hinit := List.forall₂_take j hc
  rw [List.take_range'_of_length_ge (by omega)] at hinit
  have hfirst : ∀ m n, rx.next = some m → n ∈ (List.range' (q * asm.strm.pktsPerFrame) j).head? →
      m ≤ n ∧ n ≤ m + 255 := by
    intro m n hm hn
    rw [List.head?_range', if_neg (by omega)] at hn
    cases hn
    obtain ⟨hle, hnear, _⟩ := hready m hm
    exact ⟨hle, by omega⟩
  obtain ⟨htracks, hframes⟩ := ht.run hs hinit (countable_range' _ _) hfirst
  rw [Receiver.reports_begin hrx (by omega), List.forall₂_nil_right_iff] at hframes
  -- the last packet
  have hlast := List.forall₂_drop j hc
  rw [List.drop_range', show asm.strm.pktsPerFrame - j = 1 by omega, List.range'_one, List.forall₂_cons_left_iff]
    at hlast
  obtain ⟨pkt, rest, hpkt, hrest, hdrop⟩ := hlast
  rw [List.forall₂_nil_left_iff] at hrest
  subst hrest
  have hpkts : pkts = pkts.take j ++ [pkt] := by rw [← hdrop, List.take_append_drop]
  have hset := setup_streamRun asm (pkts.take j)
  have hnum : (streamRun asm (pkts.take j)).strm.pktsPerFrame = asm.strm.pktsPerFrame :=
    (congrArg PacketStream.pktsPerFrame hset :)
  have hnext : (Receiver.run asm.strm.pktsPerFrame 5 rx (List.range' (q * asm.strm.pktsPerFrame) j)).next =
      some (q * asm.strm.pktsPerFrame + j * 1) := by
    obtain ⟨i, rfl⟩ : ∃ i, j = i + 1 := ⟨j - 1, by omega⟩
    rw [Nat.mul_one]
    exact (Receiver.run_begin hready (by omega)).1
  obtain ⟨hafter, hreported⟩ := htracks.receive (hs.of_setup hset) (hpkt.of_setup hset) fun m hm => by
    rw [hnext] at hm
    cases hm
    exact ⟨le_rfl, Nat.le_add_right _ _⟩
  rw [hnum] at hafter hreported
  have hlastItem :
      q * asm.strm.pktsPerFrame + (asm.strm.pktsPerFrame - 1) = q * asm.strm.pktsPerFrame + j * 1 := by omega
  rw [hlastItem, show asm.strm.pktsPerFrame - 1 = j by omega] at hreport
  rw [hreport] at hreported
  obtain ⟨hsize, hstamp, hitems⟩ := hreported
  have hrun : streamRun asm pkts = (streamProcess (streamRun asm (pkts.take j)) pkt).1 := by
    conv_lhs => rw [hpkts]
    rw [streamRun_append]
    rfl
  have hpos : (streamProcess (streamRun asm (pkts.take j)) pkt).2 ≠ 0 := by
    rw [hsize]
    exact ((hs.of_setup hset).of_setup (setup_streamProcess _ pkt)).frameSize_pos.ne'
  refine ⟨?_, ?_, ?_, ?_⟩
  · conv_lhs => rw [hpkts]
    rw [streamFrames_append, hframes, List.nil_append, hrun]
    simp only [streamFrames, if_neg hpos]
  · rw [hrun]; exact hstamp
  · rw [hrun]; exact hitems
  · intro a ha
    have hitems : List.range' (q * asm.strm.pktsPerFrame) asm.strm.pktsPerFrame =
        List.range' (q * asm.strm.pktsPerFrame) j ++ [q * asm.strm.pktsPerFrame + j * 1] := by
      conv_lhs => rw [show asm.strm.pktsPerFrame = j + 1 from hj, List.range'_1_concat]
      rw [hj, Nat.mul_one]
    have hwhole : Tracks cam raw0 (streamRun asm pkts) (Receiver.run asm.strm.pktsPerFrame 5 rx
        (List.range' (q * asm.strm.pktsPerFrame) asm.strm.pktsPerFrame)) := by
      rw [hrun, hitems, Receiver.run_append]
      exact hafter
    obtain ⟨hr, _, _⟩ := exists_place hs.sized ha
    rw [hwhole.byte hs.sized ha, hheld _ hr, Footage.byteOf, Receiver.mul_add_div (by omega) hr]

end CarBoundary

import CarBoundary.Sync.Lemmas.Contained
import CarBoundary.Sync.Lemmas.Progress

/-!
# Whether the buffers are large enough

`alloc_buffer_ring_depth` gives each buffer the size of its format. `freenect_start_depth` however takes
`FREENECT_DEPTH_11BIT_PACKED_SIZE` for the ten bit packed format as well.
-/

namespace CarBoundary

variable {s0 : Session} {fmt : DepthFormat} {blocks : Blocks}

theorem DepthFormat.reach_eq (h : fmt ≠ .packed10) : fmt.reach = fmt.ringSize := by
  cases fmt with
  | bits11 => rfl
  | bits10 => rfl
  | packed11 => rfl
  | packed10 => exact absurd rfl h

/-- The packets that begin a frame of the ten bit packed format reach beyond a buffer of the ring. -/
theorem exists_overrun (hidle : s0.phase = .idle) (blocks : Blocks) :
    let start := s0.changeDepthFormat .packed10 blocks
    ∃ evs s, (∀ e ∈ evs, e.isSetup = false) ∧ Machine.exec Session.step start evs = some s ∧
      s.mem blocks.buf2 depthPacked10Size ≠ start.mem blocks.buf2 depthPacked10Size := by
  intro start
  have hsound : start.Sound := Session.Sound.changeDepthFormat hidle .packed10 blocks
  have hphase : start.phase = .idle := (Session.changeDepthFormat_phase s0 .packed10 blocks).trans hidle
  have hsync : start.strm.synced = false := Session.changeDepthFormat_synced s0 .packed10 blocks
  have hraw : start.strm.rawBuf = blocks.buf2 := Session.changeDepthFormat_rawBuf s0 .packed10 blocks
  have hstarted : (⟨start.strm, start.mem start.strm.rawBuf⟩ : Assembly).strm.Started := hsound.started
  have hsize : start.strm.pktSize = 1748 := (Session.changeDepthFormat_sizes s0 .packed10 blocks).1
  have hnum : start.strm.pktsPerFrame = 242 := (Session.changeDepthFormat_sizes s0 .packed10 blocks).2
  -- a camera none of whose bytes is the one that stands there
  let cam : Footage := ⟨fun _ a => start.mem start.strm.rawBuf a + 1, fun _ => 0⟩
  let pkts := start.strm.packetsOf cam (List.range' (0 * 242) 220)
  have hlost : Tracks cam (start.mem start.strm.rawBuf) ⟨start.strm, start.mem start.strm.rawBuf⟩ Receiver.State.lost :=
    Tracks.lost cam hsync
  obtain ⟨htracks, hframes⟩ := hlost.run hstarted (start.strm.carries_packetsOf cam (List.range' (0 * 242) 220))
    (countable_range' _ _) fun _ _ hm => nomatch hm
  simp only [hnum] at htracks hframes
  rw [Receiver.reports_begin (Or.inl rfl) (by decide), List.forall₂_nil_right_iff] at hframes
  obtain ⟨s, hexec, hbuf, hrun⟩ := Session.exec_packets hsound hphase hframes
  have hready : Receiver.Ready 5 Receiver.State.lost (0 * 242) := fun _ hm => nomatch hm
  have hheld := (Receiver.run_begin hready (show 219 + 1 < 242 by decide)).2.2 219 (by decide)
  have hbyte : (streamRun ⟨start.strm, start.mem start.strm.rawBuf⟩ pkts).raw depthPacked10Size =
      start.mem start.strm.rawBuf depthPacked10Size + 1 := by
    have ha : depthPacked10Size < start.strm.frameSize := by
      rw [hsound.frameSize, Session.changeDepthFormat_format]
      decide
    rw [htracks.byte hstarted.sized ha, hsize, show depthPacked10Size / 1748 = 219 from rfl, hheld]
    rfl
  refine ⟨pkts.map .packet, s, fun e he => ?_, hexec, ?_⟩
  · obtain ⟨pkt, _, rfl⟩ := List.mem_map.mp he
    rfl
  · rw [← hraw, ← hbuf, show s.mem s.strm.rawBuf = _ from congrArg Assembly.raw hrun, hbuf, hbyte]
    simp

/-- The driver writes to the blocks that were allocated for the format and to no others, and within their sizes:
in every format but the ten bit packed one, whatever the packets are and however the threads take their turns. -/
theorem buffers_suffice_iff (hidle : s0.phase = .idle) (fmt : DepthFormat) (blocks : Blocks) :
    let start := s0.changeDepthFormat fmt blocks
    (∀ evs s, (∀ e ∈ evs, e.isSetup = false) → Machine.exec Session.step start evs = some s →
      ∀ p a, (p ∈ start.bufs → fmt.ringSize ≤ a) → (p = blocks.raw → fmt.frameBytes ≤ a) →
        s.mem p a = start.mem p a) ↔ fmt ≠ .packed10 := by
  intro start
  have hsound : start.Sound := Session.Sound.changeDepthFormat hidle fmt blocks
  have hfmt : start.format = fmt := Session.changeDepthFormat_format s0 fmt blocks
  have hraw : start.strm.rawBuf = if fmt.unpacked then blocks.raw else blocks.buf2 :=
    Session.changeDepthFormat_rawBuf s0 fmt blocks
  have hbufs : start.bufs = [blocks.buf0, blocks.buf1, blocks.buf2] := by
    simp only [start, Session.changeDepthFormat_eq]
    rfl
  constructor
  · rintro h rfl
    obtain ⟨evs, s, hevs, hexec, hne⟩ := exists_overrun hidle blocks
    exact hne (h evs s hevs hexec _ _ (fun _ => le_rfl) fun heq => absurd heq blocks.buf2_ne_raw)
  · intro hne evs s hevs hexec p a hring hblock
    have hcont := (Contained.refl (Session.changeDepthFormat_synced s0 fmt blocks)).exec hsound hevs hexec
    refine hcont.mem p a ⟨fun hp => ?_, fun hp => ?_⟩
    · rw [hfmt, DepthFormat.reach_eq hne]
      exact hring hp
    · rw [hfmt]
      rw [hraw] at hp
      cases hunp : fmt.unpacked with
      | true =>
          rw [hunp, if_pos rfl] at hp
          exact hblock hp
      | false =>
          rw [hunp, if_neg Bool.false_ne_true] at hp
          have hsize := hring (by rw [hbufs, hp]; simp)
          rwa [← DepthFormat.reach_eq hne, DepthFormat.reach, hunp, if_neg Bool.false_ne_true] at hsize

theorem buffers_suffice_iff_first :
    let start := (Session.allocKinect (fun _ _ => 0) 0 false).changeDepthFormat .packed10 firstBlocks
    (∀ evs s, (∀ e ∈ evs, e.isSetup = false) → Machine.exec Session.step start evs = some s →
      ∀ p a, (p ∈ start.bufs → DepthFormat.packed10.ringSize ≤ a) →
        (p = firstBlocks.raw → DepthFormat.packed10.frameBytes ≤ a) → s.mem p a = start.mem p a) ↔
      DepthFormat.packed10 ≠ .packed10 :=
  buffers_suffice_iff rfl .packed10 firstBlocks

end CarBoundary

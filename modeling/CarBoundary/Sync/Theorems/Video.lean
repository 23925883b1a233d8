import CarBoundary.Sync.Lemmas.Progress
import CarBoundary.Sync.Lemmas.VideoFrames

/-!
# The video ring

`alloc_buffer_ring_video` takes the number of the ten bit format for its size. In the other formats the buffers are
large enough, and the client gets what the camera saw.
-/

namespace CarBoundary

variable {fmt : VideoFormat}

/-- In the ten bit format the first frame that comes in as a whole is written beyond a block of three bytes. -/
theorem exists_video_overrun (s0 : VideoSession) (blocks : Blocks) :
    let start := (s0.changeVideoFormat .ir10 blocks).1
    ∃ evs s, Machine.exec VideoSession.step start evs = some s ∧
      load16 (s.mem blocks.buf2) 2 ≠ load16 (start.mem blocks.buf2) 2 := by
  intro start
  have hsound : start.Sound .ir10 blocks := VideoSession.Sound.changeVideoFormat s0 rfl blocks
  have hbuf : start.video.buf2 = blocks.buf2 := VideoSession.changeVideoFormat_buf2 s0 rfl blocks
  have hsync : start.strm.synced = false := VideoSession.changeVideoFormat_synced s0 rfl blocks
  -- a camera that sees one value everywhere, and not the one that stands there
  obtain ⟨v, hv, hother⟩ : ∃ v < 2 ^ 10, v ≠ (load16 (start.mem blocks.buf2) 2).toNat := by
    by_cases hzero : (load16 (start.mem blocks.buf2) 2).toNat = 0
    · exact ⟨1, by decide, by rw [hzero]; decide⟩
    · exact ⟨0, by decide, Ne.symm hzero⟩
  let cam : Footage := ⟨fun _ => pack 10 fun _ => v, fun _ => 0⟩
  obtain ⟨n, s, raw, hexec, _, hbytes, hshown⟩ := hsound.first_frame rfl hsync cam
  refine ⟨_, s, hexec, fun heq => hother ?_⟩
  have hpacked : ∀ i < (irFramePix * 10 + 7) / 8, raw i = pack 10 (fun _ => v) i := hbytes
  have hpixel : (load16 (s.mem blocks.buf2) 2).toNat = v := by
    rw [← hbuf, hshown]
    exact (load16_convertPackedTo16bit _ _ (by decide) (by decide)).trans (regroup_pack hpacked (by decide) hv)
  rw [← heq, hpixel]

/-- The assertion of the callback holds at every packet. The driver writes to the blocks that were allocated for the
format and to no others, and within their sizes: in every format but the ten bit one, whatever the packets are and
whenever the client fetches a frame. -/
theorem video_buffers_suffice_iff (s0 : VideoSession) {size : ℕ} (hsize : fmt.ringSize = some size) (blocks : Blocks) :
    let start := (s0.changeVideoFormat fmt blocks).1
    (∀ evs s, Machine.exec VideoSession.step start evs = some s → ∀ pkt, ∃ s', s.step (.packet pkt) = some s') ∧
      ((∀ evs s, Machine.exec VideoSession.step start evs = some s →
        ∀ p a, (p ∈ [blocks.buf0, blocks.buf1, blocks.buf2] → size ≤ a) → (p = blocks.raw → fmt.frameBytes ≤ a) →
          s.mem p a = start.mem p a) ↔ fmt ≠ .ir10) := by
  intro start
  have hsound : start.Sound fmt blocks := VideoSession.Sound.changeVideoFormat s0 hsize blocks
  refine ⟨fun evs s hexec pkt => (hsound.exec hexec).exists_packet pkt, ?_, ?_⟩
  · rintro hwithin rfl
    cases hsize
    obtain ⟨evs, s, hexec, hne⟩ := exists_video_overrun s0 blocks
    have hkept (a : ℕ) (ha : 3 ≤ a) : s.mem blocks.buf2 a = start.mem blocks.buf2 a :=
      hwithin evs s hexec blocks.buf2 a (fun _ => ha) fun heq => absurd heq blocks.buf2_ne_raw
    apply hne
    rw [load16, load16, hkept _ (by decide), hkept _ (by decide)]
  · intro hne evs s hexec
    exact VideoSession.Within.exec hsound hsize hne hexec

theorem video_buffers_suffice_iff_infrared :
    let start := ((VideoSession.allocKinect (fun _ _ => 0) 0 false).changeVideoFormat .ir10 firstBlocks).1
    (∀ evs s, Machine.exec VideoSession.step start evs = some s → ∀ pkt, ∃ s', s.step (.packet pkt) = some s') ∧
      ((∀ evs s, Machine.exec VideoSession.step start evs = some s →
        ∀ p a, (p ∈ [firstBlocks.buf0, firstBlocks.buf1, firstBlocks.buf2] → 3 ≤ a) →
          (p = firstBlocks.raw → VideoFormat.ir10.frameBytes ≤ a) → s.mem p a = start.mem p a) ↔
        VideoFormat.ir10 ≠ .ir10) :=
  video_buffers_suffice_iff _ rfl firstBlocks

/-- Whatever packets are lost, as long as fewer than 256 are lost in a row, and whenever the client fetches a frame:
what it gets is the picture of one frame of the camera, with its timestamp. If no packet of that frame was lost, each
byte is the one that the conversion makes of what the camera saw. -/
theorem video_shows_what_the_camera_saw (s0 : VideoSession) {size : ℕ} (hsize : fmt.ringSize = some size)
    (hsplit : fmt.split = true) (hne : fmt ≠ .ir10) (blocks : Blocks) {cam : Footage} {ns : List ℕ} (hns : Countable ns)
    {evs : List VideoEvent} {s s' : VideoSession}
    (hc : List.Forall₂ ((s0.changeVideoFormat fmt blocks).1.strm.Carries cam) ns (evs.flatMap VideoEvent.pkts))
    (hexec : Machine.exec VideoSession.step (s0.changeVideoFormat fmt blocks).1 evs = some s)
    (hget : s.step .get = some s') :
    let period := (s0.changeVideoFormat fmt blocks).1.strm.pktsPerFrame
    ∃ frame, s'.video.timestamp = cam.stamp frame ∧
      ((∀ r < period, frame * period + r ∈ ns) →
        ∀ a < size, s'.mem s'.video.buf0 a = fmt.convert (cam.bytes frame) (fun _ => 0) a) := by
  intro period
  have hsound := VideoSession.Sound.changeVideoFormat s0 hsize blocks
  have hsync := VideoSession.changeVideoFormat_synced s0 hsize blocks
  have hstart := VideoSession.changeVideoFormat_valid s0 hsize blocks
  have hfollows := (VideoSession.Follows.start hstart).exec hsound hsplit hexec
  rw [List.nil_append] at hfollows
  rcases VideoSession.step_cases (hsound.exec hexec) hget with ⟨pkt, hpkt, _⟩ | ⟨_, hvalid, rfl⟩
  · cases hpkt
  · obtain ⟨out, proc, hlast, hstamp, hshown⟩ := hfollows.front hvalid
    -- the frame that was reported last
    let start := (s0.changeVideoFormat fmt blocks).1
    let asm : Assembly := ⟨start.strm, start.mem start.strm.rawBuf⟩
    have hcarries : List.Forall₂ (asm.strm.Carries cam) ns (evs.flatMap VideoEvent.pkts) := hc
    obtain ⟨frames, _, hframes⟩ := delivered hsound.started hsync hcarries hns
    obtain ⟨frame, _, hdelivers⟩ := Matching.exists_of_mem hframes (List.mem_of_getLast? hlast)
    refine ⟨frame, hstamp.trans hdelivers.timestamp, fun hall a ha => ?_⟩
    have hbytes := hdelivers.bytes hall
    rw [show asm.strm.frameSize = _ from hsound.frameSize] at hbytes
    exact (congrFun hshown a).trans (VideoFormat.convert_congr hsize hsplit hne hbytes ha _ _)

theorem video_shows_what_the_camera_saw_first :
    let start := ((VideoSession.allocKinect (fun _ _ => 0) 0 false).changeVideoFormat .rgb firstBlocks).1
    let cam : Footage := ⟨fun q a => UInt8.ofNat (q + a), fun q => UInt32.ofNat q⟩
    let period := start.strm.pktsPerFrame
    ∃ ns evs s s', List.Forall₂ (start.strm.Carries cam) ns (evs.flatMap VideoEvent.pkts) ∧
      Machine.exec VideoSession.step start evs = some s ∧ s.step .get = some s' ∧
      ∃ frame, s'.video.timestamp = cam.stamp frame ∧
        ((∀ r < period, frame * period + r ∈ ns) →
          ∀ a < videoRgbSize, s'.mem s'.video.buf0 a = VideoFormat.rgb.convert (cam.bytes frame) (fun _ => 0) a) := by
  intro start cam period
  let s0 := VideoSession.allocKinect (fun _ _ => 0) 0 false
  have hsound : start.Sound .rgb firstBlocks := VideoSession.Sound.changeVideoFormat s0 rfl firstBlocks
  have hsync : start.strm.synced = false := VideoSession.changeVideoFormat_synced s0 rfl firstBlocks
  let ns := List.range' (0 * start.strm.pktsPerFrame) start.strm.pktsPerFrame
  let pkts := start.strm.packetsOf cam ns
  obtain ⟨n, s, _, hexec, hvalid, _, _⟩ := hsound.first_frame rfl hsync cam
  have hpkts : ((pkts.take n).map VideoEvent.packet).flatMap VideoEvent.pkts = pkts.take n := by
    rw [List.flatMap_map]
    exact List.flatMap_singleton' _
  have hc : List.Forall₂ (start.strm.Carries cam) (ns.take n)
      (((pkts.take n).map VideoEvent.packet).flatMap VideoEvent.pkts) := by
    rw [hpkts]
    exact List.forall₂_take n (start.strm.carries_packetsOf cam ns)
  obtain ⟨s', hget⟩ : ∃ s', s.step .get = some s' := by simp [VideoSession.step, syncGet, hvalid]
  exact ⟨ns.take n, (pkts.take n).map .packet, s, s', hc, hexec, hget,
    video_shows_what_the_camera_saw s0 (show VideoFormat.rgb.ringSize = _ from rfl) rfl (by decide) firstBlocks
      ((countable_range' _ _).take n) hc hexec hget⟩

end CarBoundary

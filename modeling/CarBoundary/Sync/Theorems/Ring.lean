import CarBoundary.Sync.Lemmas.Progress

/-!
# What the ring promises to the clients and to the driver

The runs begin with the `change_depth_format` that gives the ring its buffers, from any state of the device, and
change the format as often as they like. In what order the threads take their steps is left open.
-/

namespace CarBoundary

open Mailbox

variable {s0 s s' : Session} {fmt : DepthFormat} {blocks : Blocks} {evs : List Event}

/-- The pictures that the clients get are among those that the driver has handed over, in the same order and none
twice, and a picture that a client gets is the newest there is at that time. -/
theorem clients_get_the_newest_pictures (hidle : s0.phase = .idle)
    (hexec : Machine.exec Session.step (s0.changeDepthFormat fmt blocks) evs = some s) :
    let tr := Machine.trace Session.step Session.emit (s0.changeDepthFormat fmt blocks) evs
    List.Sublist (takes tr) (posts tr) ∧
      ∀ s', s.step .get = some s' → ∃ pic, s.emit .get = [.take pic] ∧ (posts tr).getLast? = some pic := by
  intro tr
  have hsound : (s0.changeDepthFormat fmt blocks).Sound := Session.Sound.changeDepthFormat hidle fmt blocks
  have hready : (s0.changeDepthFormat fmt blocks).ready = none := by rw [Session.changeDepthFormat_eq]; rfl
  have hrun := hsound.ready_exec hexec
  rw [hready] at hrun
  refine ⟨hrun.sublist, fun s' hget => ?_⟩
  obtain ⟨pkt, he, _⟩ | ⟨vw, u, done, he, _⟩ | ⟨he, _⟩ | ⟨_, hvalid, _⟩ | ⟨fmt, blocks, he, _⟩ :=
    Session.step_cases hget
  · cases he
  · cases he
  · cases he
  · refine ⟨_, Session.emit_get hvalid, ?_⟩
    rw [Session.ready, if_pos hvalid] at hrun
    exact hrun.newest
  · cases he

theorem clients_get_the_newest_pictures_first :
    let start := (Session.allocKinect (fun _ _ => 0) 0 false).changeDepthFormat .bits11 firstBlocks
    ∃ evs s s', Machine.exec Session.step start evs = some s ∧ s.step .get = some s' ∧
      (let tr := Machine.trace Session.step Session.emit start evs
      List.Sublist (takes tr) (posts tr) ∧
        ∀ s', s.step .get = some s' → ∃ pic, s.emit .get = [.take pic] ∧ (posts tr).getLast? = some pic) := by
  intro start
  have hsound : start.Sound := Session.Sound.changeDepthFormat rfl .bits11 firstBlocks
  let cam : Footage := ⟨fun _ => pack 11 fun k => k % 2048, fun q => UInt32.ofNat q⟩
  have hcam : cam.Packs .bits11 0 fun k => k % 2048 := ⟨fun k _ => Nat.mod_lt _ (by decide), fun _ _ => rfl⟩
  obtain ⟨evs, s, _, _, hexec, _, pic, hready, _⟩ := hsound.exists_ready rfl rfl rfl hcam
  exact ⟨evs, s, s.fetched, hexec, (Session.get_of_ready hready).1, clients_get_the_newest_pictures rfl hexec⟩

/-- The buffer that a client has got stays as it is until one of the clients fetches the next frame or changes the
format: the driver neither writes to it nor is about to. -/
theorem client_frame_is_kept (hidle : s0.phase = .idle)
    (hexec : Machine.exec Session.step (s0.changeDepthFormat fmt blocks) evs = some s) {ring : BufferRing} {data : Ptr}
    {timestamp : UInt32} (hget : syncGet s.depth = some (ring, data, timestamp)) {evs' : List Event}
    (hdriver : ∀ e ∈ evs', e.ofDriver = true)
    (hexec' : Machine.exec Session.step { s with depth := ring } evs' = some s') :
    s'.mem data = s.mem data ∧ data ≠ s'.strm.procBuf ∧ data ≠ s'.strm.rawBuf := by
  have hvalid : s.depth.valid = true := by
    by_contra hvalid
    simp [syncGet, hvalid] at hget
  have hfetched : { s with depth := ring } = s.fetched ∧ data = s.depth.buf1 := by
    simp only [syncGet, hvalid, Bool.not_true, Bool.false_eq_true, if_false, Option.some_inj, Prod.mk.injEq] at hget
    obtain ⟨rfl, rfl, _⟩ := hget
    exact ⟨rfl, rfl⟩
  have hsound : s.fetched.Sound := ((Session.Sound.changeDepthFormat hidle fmt blocks).exec hexec).fetched
  rw [hfetched.1] at hexec'
  obtain ⟨hbuf, hmem⟩ := hsound.front_exec hdriver hexec'
  have hafter := hsound.exec hexec'
  have hdata : s'.depth.buf0 = data := hbuf.trans hfetched.2.symm
  refine ⟨?_, ?_, ?_⟩
  · rw [hfetched.2]; exact hmem
  · rw [← hdata]; exact hafter.procBuf_ne.1.symm
  · rw [← hdata]; exact hafter.rawBuf_ne.1.symm

theorem client_frame_is_kept_first :
    let start := (Session.allocKinect (fun _ _ => 0) 0 false).changeDepthFormat .bits11 firstBlocks
    let cam : Footage := ⟨fun _ => pack 11 fun k => k % 2048, fun q => UInt32.ofNat q⟩
    ∃ evs s ring data timestamp evs' s', Machine.exec Session.step start evs = some s ∧
      syncGet s.depth = some (ring, data, timestamp) ∧
      evs'.flatMap Event.pkts = s.strm.packetsOf cam (List.range' 242 242) ∧
      Machine.exec Session.step { s with depth := ring } evs' = some s' ∧
      s'.mem data = s.mem data ∧ data ≠ s'.strm.procBuf ∧ data ≠ s'.strm.rawBuf := by
  intro start cam
  have hsound : start.Sound := Session.Sound.changeDepthFormat rfl .bits11 firstBlocks
  have hcam : cam.Packs .bits11 0 fun k => k % 2048 := ⟨fun k _ => Nat.mod_lt _ (by decide), fun _ _ => rfl⟩
  obtain ⟨evs, s, _, _, hexec, hidle, pic, hready, _⟩ := hsound.exists_ready rfl rfl rfl hcam
  have hvalid := Session.valid_of_ready hready
  have hfetched : s.fetched.phase = .idle := hidle
  obtain ⟨evs', s', hdriver, hpkts, hexec', _⟩ :=
    (hsound.exec hexec).fetched.exec_pkts hfetched (s.strm.packetsOf cam (List.range' 242 242))
  have hget : syncGet s.depth = some (s.fetched.depth, s.depth.buf1, s.depth.timestamp) := by
    simp [syncGet, hvalid, Session.fetched]
  exact ⟨evs, s, _, _, _, evs', s', hexec, hget, hpkts, hexec', client_frame_is_kept rfl hexec hget hdriver hexec'⟩

/-- The assertion of `producer_cb_inner` never fails, and the run loop never waits for a client: from wherever it is
in `depth_process`, at most 307200 rounds of the conversion and the callback bring it to the next packet. -/
theorem run_loop_gets_through (hidle : s0.phase = .idle)
    (hexec : Machine.exec Session.step (s0.changeDepthFormat fmt blocks) evs = some s) :
    (s.phase = .calling → (s.step .callback).isSome) ∧
      ∃ evs' s', (∀ e ∈ evs', e = .pixel ∨ e = .callback) ∧ evs'.length ≤ framePix + 1 ∧
        Machine.exec Session.step s evs' = some s' ∧ s'.phase = .idle := by
  have hsound := (Session.Sound.changeDepthFormat hidle fmt blocks).exec hexec
  refine ⟨fun hcalling => ?_, hsound.settle⟩
  rw [hsound.step_callback hcalling]
  rfl

theorem run_loop_gets_through_first :
    let start := (Session.allocKinect (fun _ _ => 0) 0 false).changeDepthFormat .packed11 firstBlocks
    (start.phase = .calling → (start.step .callback).isSome) ∧
      ∃ evs' s', (∀ e ∈ evs', e = .pixel ∨ e = .callback) ∧ evs'.length ≤ framePix + 1 ∧
        Machine.exec Session.step start evs' = some s' ∧ s'.phase = .idle :=
  run_loop_gets_through rfl (Machine.exec_nil _)

end CarBoundary

import CarBoundary.Camera.Lemmas.Footage
import CarBoundary.Camera.Lemmas.Recovery

/-!
# Recovery

Nothing that happened before can keep a stream from delivering a frame that comes in as a whole, once the packets of
the frame before it have come in as well.
-/

namespace CarBoundary

open PacketStream

variable {asm : Assembly} {cam : Footage}

/-- Once the packets of one frame have come in, the frame right after it, if it comes in as a whole, is reported as such
with its last packet, and the buffer is that frame: whatever the state of the stream and the buffer were. -/
theorem next_frame_is_whole (hs : asm.strm.Started) {q : ℕ} {pkts pkts' : List (List UInt8)}
    (hc : List.Forall₂ (asm.strm.Carries cam) (List.range' (q * asm.strm.pktsPerFrame) asm.strm.pktsPerFrame) pkts)
    (hc' : List.Forall₂ (asm.strm.Carries cam)
      (List.range' ((q + 1) * asm.strm.pktsPerFrame) asm.strm.pktsPerFrame) pkts') :
    let settled := streamRun asm pkts
    let after := streamRun settled pkts'
    streamFrames settled pkts' = [after] ∧ after.strm.timestamp = cam.stamp (q + 1) ∧
      after.strm.validPkts = asm.strm.pktsPerFrame ∧
      ∀ a < asm.strm.frameSize, after.raw a = cam.bytes (q + 1) a := by
  intro settled after
  obtain ⟨rx, hrx, htracks⟩ := frame_settles hs hc
  have hset : settled.strm.setup = asm.strm.setup := setup_streamRun asm pkts
  have hnum : settled.strm.pktsPerFrame = asm.strm.pktsPerFrame := (congrArg PacketStream.pktsPerFrame hset :)
  have hsize : settled.strm.frameSize = asm.strm.frameSize := (congrArg PacketStream.frameSize hset :)
  have hc'' : List.Forall₂ (settled.strm.Carries cam)
      (List.range' ((q + 1) * asm.strm.pktsPerFrame) asm.strm.pktsPerFrame) pkts' :=
    hc'.imp fun _ _ h => h.of_setup hset
  have hwhole := htracks.whole_frame (hs.of_setup hset) (hnum.symm ▸ hrx) (hnum.symm ▸ hc'')
  rw [hnum, hsize] at hwhole
  exact hwhole

theorem next_frame_is_whole_depth :
    let strm := { (zero.startDepth 1 2 .bits11).1 with synced := true, seq := 9, pktNum := 77, gotPkts := 3 }
    let asm : Assembly := ⟨strm, fun _ => 0⟩
    let cam : Footage := ⟨fun q a => UInt8.ofNat (q + a), fun q => UInt32.ofNat q⟩
    let settled := streamRun asm (strm.packetsOf cam (List.range' (5 * 242) 242))
    let after := streamRun settled (strm.packetsOf cam (List.range' (6 * 242) 242))
    streamFrames settled (strm.packetsOf cam (List.range' (6 * 242) 242)) = [after] ∧
      after.strm.timestamp = cam.stamp 6 ∧ after.strm.validPkts = asm.strm.pktsPerFrame ∧
      ∀ a < asm.strm.frameSize, after.raw a = cam.bytes 6 a := by
  intro strm asm cam
  have hs : asm.strm.Started := (startDepth_started rfl 1 2 .bits11).of_setup rfl
  exact next_frame_is_whole hs (strm.carries_packetsOf cam _) (strm.carries_packetsOf cam _)

end CarBoundary

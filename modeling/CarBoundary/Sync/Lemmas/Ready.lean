import CarBoundary.Sync.Lemmas.Session

/-!
# The ring as a mailbox

The middle buffer of the ring is the slot of a mailbox: the callback posts a picture, `sync_get` takes one, and no
other step touches it. What a client has got lies in the first buffer, which only the clients exchange.
-/

namespace CarBoundary

open Mailbox (Mail)

variable {s s' : Session} {e : Event}

namespace Session

/-! ## What the driver leaves alone -/

theorem mem_packet (h : s.strm.Started) (pkt : List UInt8) {p : Ptr} (hp : p ≠ s.strm.rawBuf) :
    (s.packet pkt).mem p = s.mem p := by
  rw [packet_cases h pkt]
  exact Function.update_of_ne hp _ _

theorem depth_packet (h : s.strm.Started) (pkt : List UInt8) : (s.packet pkt).depth = s.depth := by
  rw [packet_cases h pkt]

theorem mem_pixel (s : Session) (vw : ℕ) (u : Unpacker) (done : ℕ) {p : Ptr} (hp : p ≠ s.strm.procBuf) :
    (s.pixel vw u done).mem p = s.mem p := Function.update_of_ne hp _ _

/-! ## The slot -/

theorem ready_congr (hdepth : s'.depth = s.depth) (hmem : s'.mem s.depth.buf1 = s.mem s.depth.buf1) :
    s'.ready = s.ready := by
  simp only [ready, hdepth, hmem]

theorem emit_get (hvalid : s.depth.valid = true) :
    s.emit .get = [.take ⟨s.mem s.depth.buf1, s.depth.timestamp⟩] := by
  simp [emit, syncGet, hvalid]

theorem valid_of_ready {pic : Picture} (h : s.ready = some pic) : s.depth.valid = true := by
  by_contra hvalid
  rw [ready, if_neg hvalid] at h
  cases h

/-- A picture that is ready can be fetched. -/
theorem get_of_ready {pic : Picture} (h : s.ready = some pic) :
    s.step .get = some s.fetched ∧ s.emit .get = [.take pic] := by
  have hvalid := valid_of_ready h
  rw [ready, if_pos hvalid, Option.some_inj] at h
  exact ⟨by simp [step, syncGet, hvalid, fetched], by rw [emit_get hvalid, h]⟩

/-- A step does to the slot what it shows. -/
theorem Sound.ready_step (h : s.Sound) (hstep : s.step e = some s') : Mailbox.Run s.ready (s.emit e) s'.ready := by
  obtain ⟨pkt, rfl, hidle, rfl⟩ | ⟨vw, u, done, rfl, hphase, rfl⟩ | ⟨rfl, _, hproc, rfl⟩ | ⟨rfl, hvalid, rfl⟩ |
    ⟨fmt, blocks, rfl, hidle, rfl⟩ := step_cases hstep
  · rw [ready_congr (depth_packet h.started pkt) (mem_packet h.started pkt h.rawBuf_ne.2.symm)]
    exact .nil _
  · have hready : (s.pixel vw u done).ready = s.ready := ready_congr rfl (mem_pixel s vw u done h.procBuf_ne.2.symm)
    rw [hready]
    exact .nil _
  · have hready : s.called.ready = some ⟨s.mem s.strm.procBuf, s.strm.timestamp⟩ := by
      rw [hproc]; rfl
    rw [hready]
    exact .post (.nil _)
  · have hready : s.ready = some ⟨s.mem s.depth.buf1, s.depth.timestamp⟩ := by rw [ready, if_pos hvalid]
    have hafter : s.fetched.ready = none := rfl
    rw [emit_get hvalid, hready, hafter]
    exact .take (.nil _)
  · by_cases hfmt : s.depth.fmt ≠ some fmt
    · have hready : (s.changeDepthFormat fmt blocks).ready = none := by rw [changeDepthFormat_eq]; rfl
      simp only [emit, if_pos hfmt, hready]
      exact .clear (.nil _)
    · simp only [emit, if_neg hfmt]
      exact .nil _

theorem Sound.ready_exec {evs : List Event} (h : s.Sound) (hexec : Machine.exec Session.step s evs = some s') :
    Mailbox.Run s.ready (Machine.trace Session.step emit s evs) s'.ready :=
  Machine.simulation .nil (fun _ _ _ _ _ => .append) (fun _ _ _ h hstep => h.step hstep)
    (fun _ _ _ h hstep => h.ready_step hstep) h hexec

/-! ## The buffer of the clients -/

end Session

/-- The steps of the run loop. -/
def Event.ofDriver : Event → Bool
  | .packet _ => true
  | .pixel => true
  | .callback => true
  | _ => false

namespace Session

theorem Sound.front_step (h : s.Sound) (hdriver : e.ofDriver = true) (hstep : s.step e = some s') :
    s'.depth.buf0 = s.depth.buf0 ∧ s'.mem s.depth.buf0 = s.mem s.depth.buf0 := by
  obtain ⟨pkt, rfl, _, rfl⟩ | ⟨vw, u, done, rfl, _, rfl⟩ | ⟨rfl, _, _, rfl⟩ | ⟨rfl, _, rfl⟩ |
    ⟨fmt, blocks, rfl, _, rfl⟩ := step_cases hstep
  · exact ⟨by rw [depth_packet h.started], mem_packet h.started pkt h.rawBuf_ne.1.symm⟩
  · exact ⟨rfl, mem_pixel s vw u done h.procBuf_ne.1.symm⟩
  · exact ⟨rfl, rfl⟩
  · cases hdriver
  · cases hdriver

/-- Whatever the run loop does, the buffer of the clients stays as it is. -/
theorem Sound.front_exec {evs : List Event} (h : s.Sound) (hdriver : ∀ e ∈ evs, e.ofDriver = true)
    (hexec : Machine.exec Session.step s evs = some s') :
    s'.depth.buf0 = s.depth.buf0 ∧ s'.mem s.depth.buf0 = s.mem s.depth.buf0 := by
  have hkept (t : Session) (e : Event) (t' : Session)
      (ht : t.Sound ∧ t.depth.buf0 = s.depth.buf0 ∧ t.mem s.depth.buf0 = s.mem s.depth.buf0) (he : e.ofDriver = true)
      (hstep : t.step e = some t') :
      t'.Sound ∧ t'.depth.buf0 = s.depth.buf0 ∧ t'.mem s.depth.buf0 = s.mem s.depth.buf0 := by
    obtain ⟨hsound, hbuf, hmem⟩ := ht
    obtain ⟨hbuf', hmem'⟩ := hsound.front_step he hstep
    rw [hbuf] at hbuf' hmem'
    exact ⟨hsound.step hstep, hbuf', hmem'.trans hmem⟩
  exact (Machine.invariant _ _ hkept ⟨h, rfl, rfl⟩ hdriver hexec).2

/-- The run loop does nothing to the slot but post pictures. -/
theorem posts_of_driver {evs : List Event} (hdriver : ∀ e ∈ evs, e.ofDriver = true) (s : Session) :
    ∀ mail ∈ Machine.trace Session.step emit s evs, ∃ pic, mail = .post pic := by
  refine Machine.forall_trace (fun e he s mail hmail => ?_) s
  cases e with
  | packet pkt => cases hmail
  | pixel => cases hmail
  | callback => exact ⟨_, List.mem_singleton.mp hmail⟩
  | get => exact absurd (hdriver _ he) (by decide)
  | setup fmt blocks => exact absurd (hdriver _ he) Bool.false_ne_true

end Session

end CarBoundary

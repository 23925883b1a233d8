import CarBoundary.Camera.Lemmas.Transfers

/-!
# Stopping an isochronous stream
-/

namespace CarBoundary

open IsoStream

variable {numXfers : ℕ} {submitted : Fin numXfers → Bool} {s s' : IsoStream numXfers}
  {es es' : List (IsoEvent numXfers)}

/-- In whatever order the bus library calls back, whatever fails and whenever the stream is stopped: once the transfers
and their buffer have been freed, no transfer is left that could be called back for. -/
theorem buffer_outlives_transfers (h : Machine.exec step (startIso submitted) es = some s) :
    s.deadXfers ≤ numXfers ∧
      (s.freed = true → ∀ i completed packets submitted, s.step (.callback i completed packets submitted) = none) := by
  have hs := counted_of_exec h
  refine ⟨hs.le, fun hfreed i completed packets submitted => ?_⟩
  have hi := hs.over (hs.freed hfreed) i
  simp [step, hi]

theorem buffer_outlives_transfers_two :
    ∃ s : IsoStream 2,
      Machine.exec step (startIso fun _ => true)
        [.callback 0 true [] true, .stop, .callback 1 true [] true, .callback 0 false [] true, .finish] = some s ∧
      s.freed = true ∧ ∀ i completed packets submitted, s.step (.callback i completed packets submitted) = none := by
  refine ⟨_, rfl, rfl, ?_⟩
  exact (buffer_outlives_transfers (show Machine.exec step (startIso fun _ => true)
    [.callback (0 : Fin 2) true [] true, .stop, .callback 1 true [] true, .callback 0 false [] true, .finish] = some _
    from rfl)).2 rfl

/-- The loop of `fnusb_stop_iso` ends when it has been called back for each transfer that was still submitted, neither
earlier nor later, and whatever their order. But if `libusb_submit_transfer` has failed for any transfer before, which
is not counted, the loop never ends. -/
theorem stop_waits_for_transfers (h : Machine.exec step (startIso submitted) es = some s) (hdead : s.dead = true)
    (hfreed : s.freed = false) (hes' : .finish ∉ es') (h' : Machine.exec step s es' = some s') :
    es'.length ≤ ({i | s.xfers i = .flying} : Finset (Fin numXfers)).card ∧
      ((s'.step .finish).isSome ↔
        es'.length = ({i | s.xfers i = .flying} : Finset (Fin numXfers)).card ∧ ∀ i, s.xfers i ≠ .refused) := by
  obtain ⟨hdead', hfreed', hflying, hrefused⟩ := exec_dead hdead hes' h'
  have hs' : s'.Counted := counted_of_exec (Machine.exec_append_eq_some.mpr ⟨s, h, h'⟩)
  have hsum := total_add_total s'.xfers
  have hcard : Threads.total isFlying s.xfers = ({i | s.xfers i = .flying} : Finset (Fin numXfers)).card :=
    Threads.total_eq_card (fun _ => rfl) s.xfers
  have hfinish : (s'.step .finish).isSome ↔ numXfers ≤ s'.deadXfers := by
    simp [step, hdead', hfreed', hfreed]
  rw [hfinish, ← total_isRefused_eq_zero, ← hrefused, ← hcard, hs'.deadXfers]
  omega

theorem stop_waits_for_transfers_two :
    ∃ s s' : IsoStream 2,
      Machine.exec step (startIso fun i => i = 0) [.callback 0 true [[1], [2]] true, .stop] = some s ∧
      Machine.exec step s [.callback 0 true [] true] = some s' ∧
      ((s'.step .finish).isSome ↔ ([.callback 0 true [] true] : List (IsoEvent 2)).length =
        ({i | s.xfers i = .flying} : Finset (Fin 2)).card ∧ ∀ i, s.xfers i ≠ .refused) := by
  refine ⟨_, _, rfl, rfl, ?_⟩
  exact (stop_waits_for_transfers
    (show Machine.exec step (startIso fun i => i = 0)
      [.callback (0 : Fin 2) true [[1], [2]] true, .stop] = some _ from rfl)
    rfl rfl (by simp) rfl).2

end CarBoundary

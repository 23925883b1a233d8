import CarBoundary.Sync.Lemmas.OneClient

/-!
# The lock of the run loop, whatever the order of the steps
-/

namespace CarBoundary

open RunLoop

variable {ι : Type*} [DecidableEq ι] [Fintype ι] {s s' : RunLoop ι} {es es' : List (Action ι)} {i : ι}

/-- `runloop_lock` belongs to the one thread that is between locking and unlocking it: a loop that processes events or
closes the devices, or a client that sets a device up. The counter says how many clients are inside, and its assertions
hold. If there never are two loops at once, a loop is asleep only while there is someone to wake it up. -/
theorem tasks_exclude_processing (h : Machine.exec step start es = some s) :
    (∀ o, s.lock = some o ↔ s.Holds o) ∧ (∀ o o', s.Holds o → s.Holds o' → o = o') ∧
      s.pending = ({i | (s.client i).Inside} : Finset ι).card ∧
      (∀ i, s.client i = .outside → (s.step (.inc i)).isSome) ∧
      (∀ i joins, s.client i = .leaving joins → ∃ k, (s.step (.dec i k)).isSome) ∧
      (Machine.Through step Alone start es → ∀ k, s.loops k = .asleep → ∃ i, (s.client i).Inside) := by
  have hs := ordered_of_exec h
  have hcard : Threads.total inside s.client = ({i | (s.client i).Inside} : Finset ι).card :=
    Threads.total_eq_card (fun _ => rfl) s.client
  refine ⟨hs.locked, fun o o' => hs.locked.unique, ?_, fun i hi => ?_, fun i joins hi => ?_, fun halone k hk => ?_⟩
  · rw [hs.counted, hcard]
  · simp [step, tasksInc, hi, hs.pending_nonneg]
  · exact exists_dec hi (hs.pending_pos (i := i) (by rw [hi]; trivial))
  · exact hs.exists_inside (attended_of_exec h halone k hk)

theorem tasks_exclude_processing_two : ∃ s : RunLoop (Fin 2),
    Machine.exec step start [.inc 0, .take 0, .enter 0, .inc 1, .check 0, .release 0 true] = some s ∧
      s.loops 0 = .asleep ∧ ∃ i, (s.client i).Inside := by
  have h : Machine.exec step (start : RunLoop (Fin 2))
    [.inc 0, .take 0, .enter 0, .inc 1, .check 0, .release 0 true] = some _ := rfl
  exact ⟨_, h, rfl, (tasks_exclude_processing h).2.2.2.2.2 (through_alone h le_rfl) 0 rfl⟩

-- The one signal goes to one of two loops. The other one, which client 0 joins, is left behind.
example : ∃ s : RunLoop (Fin 2),
    Machine.exec step start [.inc 0, .take 0, .enter 0, .check 0, .inc 1, .release 0 false, .dec 0 0, .join 0,
      .take 1, .enter 1, .check 1, .release 1 true, .dec 1 1] = some s ∧
      s.loops 0 = .asleep ∧ s.client 0 = .joining 0 ∧ s.client 1 = .outside := ⟨_, rfl, rfl, rfl, rfl⟩

/-- While a client waits, works or leaves, each loop gets the lock once at most. -/
theorem loop_overtakes_once (h : Machine.exec step start es = some s) (hi : (s.client i).Inside)
    (hes' : ∀ k, .dec i k ∉ es') (h' : Machine.exec step s es' = some s') (k : ℕ) : es'.count (.acquire k) ≤ 1 := by
  have hcredit := (ordered_of_exec h).credit_exec hi hes' h' k
  have hle : credit s.loops k ≤ 1 := by
    rw [credit]
    split_ifs <;> omega
  omega

theorem loop_overtakes_once_two : ∃ s s' : RunLoop (Fin 2),
    Machine.exec step start [.inc 0, .take 0, .enter 0, .release 0 true, .dec 0 0, .check 0, .inc 1] = some s ∧
      Machine.exec step s [.acquire 0, .process 0 true, .check 0, .take 1, .enter 1] = some s' ∧
      [Action.acquire 0, .process 0 true, .check 0, .take (1 : Fin 2), .enter 1].count (.acquire 0) ≤ 1 := by
  have h : Machine.exec step (start : RunLoop (Fin 2))
    [.inc 0, .take 0, .enter 0, .release 0 true, .dec 0 0, .check 0, .inc 1] = some _ := rfl
  exact ⟨_, _, h, rfl, loop_overtakes_once (i := 1) h trivial (by simp) rfl 0⟩

/-- Without new calls only a bounded number of steps can be taken before a loop gets the lock, whoever takes them. If
there never are two loops at once, someone can take a step until all calls have returned and the loops have ended. -/
theorem run_loop_comes_round (h : Machine.exec step start es = some s) (hes' : ∀ a ∈ es', ¬ a.FromOutside)
    (h' : Machine.exec step s es' = some s') :
    ((∀ k, .acquire k ∉ es') →
      es'.length ≤ 7 * ({i | s.client i ≠ .outside} : Finset ι).card + 2 * s.threads + 1) ∧
      (Machine.Through step Alone start (es ++ es') →
        (∃ a, ¬ a.FromOutside ∧ (s'.step a).isSome) ∨
          (∀ i, s'.client i = .outside) ∧ ∀ k < s'.threads, s'.loops k = .finished) := by
  have hs := ordered_of_exec h
  have hexec : Machine.exec step start (es ++ es') = some s' := Machine.exec_append_eq_some.mpr ⟨s, h, h'⟩
  refine ⟨fun hacquire => ?_, fun halone => (ordered_of_exec hexec).exists_step (attended_of_exec hexec halone)⟩
  have hlength := hs.stepsLeft_exec (fun a ha => ⟨hes' a ha, fun k he => hacquire k (he ▸ ha)⟩) h'
  exact hlength.trans (stepsLeft_le s)

theorem run_loop_comes_round_two : ∃ s s' : RunLoop (Fin 2),
    Machine.exec step start [.inc 0, .inc 1, .take 1, .enter 1, .check 0, .release 1 true] = some s ∧
      Machine.exec step s [.dec 1 0, .take 0, .enter 0, .release 0 true, .dec 0 0, .check 0] = some s' ∧
      s'.loops 0 = .wanting ∧ ∃ a, ¬ a.FromOutside ∧ (s'.step a).isSome := by
  obtain ⟨s, s', h, h', hloop, hthreads⟩ : ∃ s s' : RunLoop (Fin 2),
    Machine.exec step start [.inc 0, .inc 1, .take 1, .enter 1, .check 0, .release 1 true] = some s ∧
      Machine.exec step s [.dec 1 0, .take 0, .enter 0, .release 0 true, .dec 0 0, .check 0] = some s' ∧
      s'.loops 0 = .wanting ∧ s'.threads = 1 := ⟨_, _, rfl, rfl, rfl, rfl⟩
  refine ⟨s, s', h, h', hloop, ?_⟩
  have halone := through_alone (Machine.exec_append_eq_some.mpr ⟨s, h, h'⟩) hthreads.le
  rcases (run_loop_comes_round h (by simp [Action.FromOutside]) h').2 halone with hstep | ⟨-, hfinished⟩
  · exact hstep
  · have hend := hfinished 0 (by rw [hthreads]; exact Nat.one_pos)
    rw [hloop] at hend
    cases hend

/-- With one client, as this program is one, there never are two loops at once, whatever the client calls and however
the calls end. No wakeup is lost, and someone can take a step until all calls have returned and the loops have ended. -/
theorem one_client_is_served [Subsingleton ι] (h : Machine.exec step start es = some s) :
    s.Alone ∧ (∀ k, s.loops k = .asleep → ∃ i, (s.client i).Inside) ∧
      ((∃ a, ¬ a.FromOutside ∧ (s.step a).isSome) ∨
        (∀ i, s.client i = .outside) ∧ ∀ k < s.threads, s.loops k = .finished) := by
  have hs := ordered_of_exec h
  have hattended := attended_of_exec h (one_client_alone es)
  refine ⟨one_client_alone es es [] s (List.append_nil es).symm h, fun k hk => ?_, hs.exists_step hattended⟩
  exact hs.exists_inside (hattended k hk)

theorem one_client_is_served_restart : ∃ s : RunLoop (Fin 1),
    Machine.exec step start [.inc 0, .take 0, .enter 0, .check 0, .release 0 false, .dec 0 0, .join 0, .check 0,
      .acquire 0, .close 0, .joined 0, .inc 0, .take 0, .enter 0, .check 1] = some s ∧ s.threads = 2 ∧
      s.loops 1 = .asleep ∧ s.Alone ∧ ∃ i, (s.client i).Inside := by
  obtain ⟨s, h, hthreads, hloop⟩ : ∃ s : RunLoop (Fin 1),
    Machine.exec step start [.inc 0, .take 0, .enter 0, .check 0, .release 0 false, .dec 0 0, .join 0, .check 0,
      .acquire 0, .close 0, .joined 0, .inc 0, .take 0, .enter 0, .check 1] = some s ∧ s.threads = 2 ∧
      s.loops 1 = .asleep := ⟨_, rfl, rfl, rfl⟩
  obtain ⟨halone, hattended, _⟩ := one_client_is_served h
  exact ⟨s, h, hthreads, hloop, halone, hattended 1 hloop⟩

end CarBoundary

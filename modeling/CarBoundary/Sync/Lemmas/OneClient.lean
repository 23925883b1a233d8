import CarBoundary.Sync.Lemmas.RunLoop

/-!
# A program with one client

The client that stops a loop joins it before it can create the next one, so there never are two of them.
-/

namespace CarBoundary

/-- The places before the client may create a loop. -/
def ClientPc.Resting : ClientPc → Prop
  | .outside | .wanting | .holding _ => True
  | _ => False

/-- The places at which a client has found `thread_running` set, or has set it. -/
def ClientPc.Served : ClientPc → Prop
  | .working _ | .leaving false | .stopping => True
  | _ => False

namespace RunLoop

variable {ι : Type*} {s s' : RunLoop ι} {a : Action ι} {es : List (Action ι)} {i : ι} {k : ℕ}

structure OneByOne (s : RunLoop ι) : Prop where
  ended : ∀ k, k + 1 < s.threads → s.loops k = .finished
  resting : s.running = false → ∀ i, (s.client i).Resting → ∀ k < s.threads, s.loops k = .finished
  served : ∀ i, (s.client i).Served → s.running = true
  joining : ∀ i k, s.client i = .joining k → k + 1 = s.threads

theorem start_oneByOne : (start : RunLoop ι).OneByOne where
  ended k hk := absurd hk (Nat.not_lt_zero _)
  resting _ _ _ k hk := absurd hk (Nat.not_lt_zero k)
  served _ hi := hi.elim
  joining _ _ hi := by cases hi

/-- The loop that takes a step is the last one. -/
theorem OneByOne.loop (h : s.OneByOne) {pc : LoopPc} (hloops : s'.loops = Function.update s.loops k pc)
    (hthreads : s'.threads = s.threads) (hrunning : s'.running = s.running) (hclient : s'.client = s.client)
    (hk : k < s.threads) (hlive : s.loops k ≠ .finished) : s'.OneByOne := by
  refine ⟨fun j hj => ?_, fun hstopped i hi => ?_, ?_, ?_⟩
  · rw [hthreads] at hj
    have hended := h.ended j hj
    have hne : j ≠ k := fun hjk => hlive (hjk ▸ hended)
    rwa [hloops, Function.update_of_ne hne]
  · rw [hrunning] at hstopped
    rw [hclient] at hi
    exact absurd (h.resting hstopped i hi k hk) hlive
  · rw [hrunning, hclient]
    exact h.served
  · rw [hthreads, hclient]
    exact h.joining

variable [DecidableEq ι] [Subsingleton ι]

theorem OneByOne.client (h : s.OneByOne) {pc : ClientPc} (hclient : s'.client = Function.update s.client i pc)
    (hloops : s'.loops = s.loops) (hthreads : s'.threads = s.threads)
    (hresting : s'.running = false → pc.Resting → ∀ k < s.threads, s.loops k = .finished)
    (hserved : pc.Served → s'.running = true) (hjoining : ∀ k, pc = .joining k → k + 1 = s.threads) : s'.OneByOne := by
  have hall (j : ι) : s'.client j = pc := by rw [hclient, Subsingleton.elim j i, Function.update_self]
  refine ⟨?_, fun hstopped j hj => ?_, fun j hj => hserved (hall j ▸ hj), fun j k hj => ?_⟩
  · rw [hloops, hthreads]
    exact h.ended
  · rw [hloops, hthreads]
    exact hresting hstopped (hall j ▸ hj)
  · rw [hthreads]
    exact hjoining k ((hall j).symm.trans hj)

variable [Fintype ι]

theorem OneByOne.moves (h : s.OneByOne) (hs : s.Ordered) (hmove : Moves s a s') : s'.OneByOne := by
  cases hmove with
  | sleep k hloop | want k hloop | wake k hloop | acquire k hloop | again k hloop | leave k hloop | close k hloop =>
      exact h.loop rfl rfl rfl rfl (hs.lt_threads (by simp [hloop])) (by simp [hloop])
  | inc i hi | take i hi =>
      exact h.client rfl rfl rfl (fun hstopped _ => h.resting hstopped i (by rw [hi]; trivial)) False.elim (by simp)
  | stay i prev hi hrunning => exact h.client rfl rfl rfl (fun _ hpc => hpc.elim) (fun _ => hrunning) (by simp)
  | create i prev hi hrunning =>
      have hfinished := h.resting hrunning i (by rw [hi]; trivial)
      have hall (j : ι) : (s.moveClient i (.working prev)).initThread.client j = .working prev := by
        simp [initThread, moveClient, Subsingleton.elim j i]
      refine ⟨fun j hj => ?_, fun hstopped => absurd hstopped.symm Bool.false_ne_true, fun _ _ => rfl, fun j k hj => ?_⟩
      · have hj : j < s.threads := Nat.lt_of_succ_lt_succ hj
        simp only [initThread, moveClient, Function.update_of_ne hj.ne]
        exact hfinished j hj
      · rw [hall] at hj
        cases hj
  | release i ok prev hi stops =>
      have hrunning : s.running = true := h.served i (by rw [hi]; trivial)
      refine h.client rfl rfl rfl (fun _ hpc => hpc.elim) (fun hpc => ?_) (by simp)
      cases stops with
      | true => exact hpc.elim
      | false => simp [setLock, moveClient, setRunning, hrunning]
  | dec i k joins hi =>
      cases joins with
      | true => exact h.client rfl rfl rfl (fun _ hpc => hpc.elim) False.elim (by simp)
      | false =>
          have hrunning : s.running = true := h.served i (by rw [hi]; trivial)
          exact h.client rfl rfl rfl (fun hstopped => by simp [moveClient, hrunning] at hstopped) False.elim (by simp)
  | signal i k joins hi hpending hloop =>
      have hmoved : (moveLoop { s with pending := s.pending - 1 } k .checking).OneByOne :=
        h.loop rfl rfl rfl rfl (hs.lt_threads (by simp [hloop])) (by simp [hloop])
      cases joins with
      | true => exact hmoved.client rfl rfl rfl (fun _ hpc => hpc.elim) False.elim (by simp)
      | false =>
          have hrunning : s.running = true := h.served i (by rw [hi]; trivial)
          exact hmoved.client rfl rfl rfl (fun hstopped => by simp [moveClient, moveLoop, hrunning] at hstopped)
            False.elim (by simp)
  | stop i hi hrunning => exact h.client rfl rfl rfl (fun _ hpc => hpc.elim) (fun _ => hrunning) (by simp)
  | halt i hi => exact h.client rfl rfl rfl (fun _ hpc => hpc.elim) False.elim (by simp)
  | join i hi =>
      have hpos : 0 < s.threads := hs.threads_pos (i := i) (by rw [hi]; rfl)
      refine h.client rfl rfl rfl (fun _ hpc => hpc.elim) False.elim fun k hk => ?_
      cases hk
      omega
  | joined i k hi hloop =>
      refine h.client rfl rfl rfl (fun _ _ j hj => ?_) False.elim (by simp)
      have hlast := h.joining i k hi
      rcases Nat.lt_or_ge (j + 1) s.threads with hlt | hge
      · exact h.ended j hlt
      · obtain rfl : j = k := by omega
        exact hloop

omit [DecidableEq ι] [Subsingleton ι] in
theorem OneByOne.alone (h : s.OneByOne) (hs : s.Ordered) : s.Alone := by
  intro j k hj hj' hk hk'
  have hlast {k : ℕ} (hk : s.loops k ≠ .absent) (hk' : s.loops k ≠ .finished) : k + 1 = s.threads := by
    have hlt := hs.lt_threads hk
    have hnot : ¬ k + 1 < s.threads := fun hlt => hk' (h.ended k hlt)
    omega
  have hsame := (hlast hj hj').trans (hlast hk hk').symm
  omega

theorem one_client_alone (es : List (Action ι)) : Machine.Through step Alone start es := by
  intro es₁ es₂ t _ ht
  have hboth : t.Ordered ∧ t.OneByOne := by
    refine Machine.invariant (fun s => s.Ordered ∧ s.OneByOne) (fun _ => True) ?_ ⟨start_ordered, start_oneByOne⟩
      (fun _ _ => trivial) ht
    intro s a s' ⟨hs, h⟩ _ hstep
    exact ⟨hs.moves (moves_of_step hstep), h.moves hs (moves_of_step hstep)⟩
  exact hboth.2.alone hboth.1

end RunLoop

end CarBoundary

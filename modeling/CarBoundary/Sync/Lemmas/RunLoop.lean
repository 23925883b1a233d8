import CarBoundary.Sync.RunLoop

/-!
# Steps of the run loop and its clients

`Moves` says what each step does, and `Ordered` is what holds between the steps.
-/

namespace CarBoundary.RunLoop

variable {ι : Type*} [DecidableEq ι]

/-! ## What a step does -/

inductive Moves : RunLoop ι → Action ι → RunLoop ι → Prop where
  | sleep {s} (k : ℕ) (hloop : s.loops k = .checking) (hpending : s.pending ≠ 0) :
      Moves s (.check k) (s.moveLoop k .asleep)
  | want {s} (k : ℕ) (hloop : s.loops k = .checking) (hpending : s.pending = 0) :
      Moves s (.check k) (s.moveLoop k .wanting)
  | wake {s} (k : ℕ) (hloop : s.loops k = .asleep) : Moves s (.wake k) (s.moveLoop k .checking)
  | acquire {s} (k : ℕ) (hloop : s.loops k = .wanting) (hlock : s.lock = none) :
      Moves s (.acquire k) ((s.moveLoop k (if s.running then .processing else .closing)).setLock (some (.loop k)))
  | again {s} (k : ℕ) (hloop : s.loops k = .processing) :
      Moves s (.process k true) ((s.moveLoop k .checking).setLock none)
  | leave {s} (k : ℕ) (hloop : s.loops k = .processing) : Moves s (.process k false) (s.moveLoop k .closing)
  | close {s} (k : ℕ) (hloop : s.loops k = .closing) : Moves s (.close k) ((s.moveLoop k .finished).setLock none)
  | inc {s} (i : ι) (hi : s.client i = .outside) :
      Moves s (.inc i) (moveClient { s with pending := s.pending + 1 } i .wanting)
  | take {s} (i : ι) (hi : s.client i = .wanting) (hlock : s.lock = none) :
      Moves s (.take i) ((s.moveClient i (.holding s.running)).setLock (some (.client i)))
  | stay {s} (i : ι) (prev : Bool) (hi : s.client i = .holding prev) (hrunning : s.running = true) :
      Moves s (.enter i) (s.moveClient i (.working prev))
  | create {s} (i : ι) (prev : Bool) (hi : s.client i = .holding prev) (hrunning : s.running = false) :
      Moves s (.enter i) (s.moveClient i (.working prev)).initThread
  | release {s} (i : ι) (ok prev : Bool) (hi : s.client i = .working prev) (stops : Bool) :
      Moves s (.release i ok) (((s.setRunning (s.running && !stops)).moveClient i (.leaving stops)).setLock none)
  | dec {s} (i : ι) (k : ℕ) (joins : Bool) (hi : s.client i = .leaving joins) (hpending : 0 < s.pending)
      (hawake : s.pending = 1 → ∀ j < s.threads, s.loops j ≠ .asleep) :
      Moves s (.dec i k)
        (moveClient { s with pending := s.pending - 1 } i (if joins then .ending else .outside))
  | signal {s} (i : ι) (k : ℕ) (joins : Bool) (hi : s.client i = .leaving joins) (hpending : s.pending = 1)
      (hloop : s.loops k = .asleep) :
      Moves s (.dec i k)
        ((moveLoop { s with pending := s.pending - 1 } k .checking).moveClient i (if joins then .ending else .outside))
  | stop {s} (i : ι) (hi : s.client i = .outside) (hrunning : s.running = true) :
      Moves s (.stop i) (s.moveClient i .stopping)
  | halt {s} (i : ι) (hi : s.client i = .stopping) : Moves s (.halt i) ((s.setRunning false).moveClient i .ending)
  | join {s} (i : ι) (hi : s.client i = .ending) : Moves s (.join i) (s.moveClient i (.joining (s.threads - 1)))
  | joined {s} (i : ι) (k : ℕ) (hi : s.client i = .joining k) (hloop : s.loops k = .finished) :
      Moves s (.joined i) (s.moveClient i .outside)

variable {s s' t : RunLoop ι} {a : Action ι} {es : List (Action ι)} {i : ι} {k : ℕ}

theorem moves_of_step (h : step s a = some s') : Moves s a s' := by
  cases a with
  | check k =>
      obtain ⟨hloop, rfl⟩ : s.loops k = .checking ∧ _ = s' := by simpa [step] using h
      by_cases hpending : s.pending = 0
      · rw [if_pos hpending]
        exact .want k hloop hpending
      · rw [if_neg hpending]
        exact .sleep k hloop hpending
  | wake k =>
      obtain ⟨hloop, rfl⟩ : s.loops k = .asleep ∧ _ = s' := by simpa [step] using h
      exact .wake k hloop
  | acquire k =>
      obtain ⟨⟨hloop, hlock⟩, rfl⟩ : (s.loops k = .wanting ∧ s.lock = none) ∧ _ = s' := by simpa [step] using h
      exact .acquire k hloop hlock
  | process k ok =>
      obtain ⟨hloop, rfl⟩ : s.loops k = .processing ∧ _ = s' := by simpa [step] using h
      cases ok with
      | true => exact .again k hloop
      | false => exact .leave k hloop
  | close k =>
      obtain ⟨hloop, rfl⟩ : s.loops k = .closing ∧ _ = s' := by simpa [step] using h
      exact .close k hloop
  | inc i =>
      obtain ⟨hi, -, rfl⟩ : s.client i = .outside ∧ 0 ≤ s.pending ∧ _ = s' := by
        simpa [step, tasksInc] using h
      exact .inc i hi
  | take i =>
      obtain ⟨⟨hi, hlock⟩, rfl⟩ : (s.client i = .wanting ∧ s.lock = none) ∧ _ = s' := by simpa [step] using h
      exact .take i hi hlock
  | enter i =>
      cases hi : s.client i with
      | holding prev =>
          simp only [step, hi, Option.some_inj] at h
          cases hrunning : s.running with
          | true =>
              rw [hrunning, if_pos rfl] at h
              exact h ▸ .stay i prev hi hrunning
          | false =>
              rw [hrunning, if_neg Bool.false_ne_true] at h
              exact h ▸ .create i prev hi hrunning
      | _ => simp [step, hi] at h
  | release i ok =>
      cases hi : s.client i with
      | working prev =>
          simp only [step, hi, Option.some_inj] at h
          exact h ▸ .release i ok prev hi _
      | _ => simp [step, hi] at h
  | dec i k =>
      cases hi : s.client i with
      | leaving joins =>
          obtain ⟨u, hdec, rfl⟩ : ∃ u, s.tasksDec k = some u ∧ _ = s' := by simpa [step, hi] using h
          simp only [tasksDec] at hdec
          split at hdec
          · rename_i hpending
            have hpos : 0 < s.pending := by omega
            split at hdec
            · rename_i hlast
              split at hdec
              · rename_i hloop
                rw [← Option.some_inj.mp hdec]
                exact .signal i k joins hi (by omega) hloop
              · cases hdec
            · rename_i hlast
              rw [← Option.some_inj.mp hdec]
              refine .dec i k joins hi hpos fun hone j hj hloop => hlast ⟨by omega, j, hj, hloop⟩
          · cases hdec
      | _ => simp [step, hi] at h
  | stop i =>
      obtain ⟨⟨hi, hrunning⟩, rfl⟩ : (s.client i = .outside ∧ s.running = true) ∧ _ = s' := by simpa [step] using h
      exact .stop i hi hrunning
  | halt i =>
      obtain ⟨hi, rfl⟩ : s.client i = .stopping ∧ _ = s' := by simpa [step] using h
      exact .halt i hi
  | join i =>
      obtain ⟨hi, rfl⟩ : s.client i = .ending ∧ _ = s' := by simpa [step] using h
      exact .join i hi
  | joined i =>
      cases hi : s.client i with
      | joining k =>
          obtain ⟨hloop, rfl⟩ : s.loops k = .finished ∧ _ = s' := by simpa [step, hi] using h
          exact .joined i k hi hloop
      | _ => simp [step, hi] at h

/-! ## Who holds the lock -/

section

variable {pc : LoopPc} (hloops : s'.loops = Function.update s.loops k pc) (hclient : s'.client = s.client)
include hloops

omit [DecidableEq ι] in
theorem holds_loop : s'.Holds (.loop k) ↔ pc.InLock := by
  simp only [Holds, hloops, Function.update_self]

include hclient

omit [DecidableEq ι] in
theorem holds_of_ne_loop {o : Owner ι} (ho : o ≠ .loop k) : s'.Holds o ↔ s.Holds o := by
  cases o with
  | loop j =>
      have hj : j ≠ k := fun hj => ho (by rw [hj])
      simp only [Holds, hloops, Function.update_of_ne hj]
  | client i => simp only [Holds, hclient]

omit [DecidableEq ι] in
theorem holds_iff_loop (hpc : pc.InLock ↔ (s.loops k).InLock) (o : Owner ι) : s'.Holds o ↔ s.Holds o := by
  by_cases ho : o = .loop k
  · rw [ho, holds_loop hloops, hpc]
    rfl
  · exact holds_of_ne_loop hloops hclient ho

end

section

variable {pc : ClientPc} (hclient : s'.client = Function.update s.client i pc) (hloops : s'.loops = s.loops)
include hclient

theorem holds_client : s'.Holds (.client i) ↔ pc.InLock := by
  simp only [Holds, hclient, Function.update_self]

include hloops

theorem holds_of_ne_client {o : Owner ι} (ho : o ≠ .client i) : s'.Holds o ↔ s.Holds o := by
  cases o with
  | loop k => simp only [Holds, hloops]
  | client j =>
      have hj : j ≠ i := fun hj => ho (by rw [hj])
      simp only [Holds, hclient, Function.update_of_ne hj]

theorem holds_iff_client (hpc : pc.InLock ↔ (s.client i).InLock) (o : Owner ι) : s'.Holds o ↔ s.Holds o := by
  by_cases ho : o = .client i
  · rw [ho, holds_client hclient, hpc]
    rfl
  · exact holds_of_ne_client hclient hloops ho

end

/-! ## What holds between the steps -/

def inside (pc : ClientPc) : ℕ := if pc.Inside then 1 else 0

/-- How many threads must have been created before a client gets to its place. -/
def needs : ClientPc → ℕ
  | .outside | .wanting | .holding _ => 0
  | .working _ | .leaving _ | .stopping | .ending => 1
  | .joining k => k + 1

variable [Fintype ι]

structure Ordered (s : RunLoop ι) : Prop where
  counted : s.pending = Threads.total inside s.client
  locked : Threads.Locked s.lock s.Holds
  absent : ∀ k, s.loops k = .absent ↔ s.threads ≤ k
  running : s.running = true → 0 < s.threads
  created : ∀ i, needs (s.client i) ≤ s.threads

omit [DecidableEq ι] in
theorem start_ordered : (start : RunLoop ι).Ordered where
  counted := by simp [start, Threads.total, inside, ClientPc.Inside]
  locked o := by cases o <;> simp [start, Holds, LoopPc.InLock, ClientPc.InLock]
  absent := by simp [start]
  running := by simp [start]
  created := by simp [start, needs]

section

variable (h : s.Ordered)
include h

omit [DecidableEq ι] in
theorem Ordered.pending_pos (hi : (s.client i).Inside) : 0 < s.pending := by
  have hle := Threads.le_total inside s.client i
  rw [inside, if_pos hi] at hle
  rw [h.counted]
  exact_mod_cast hle

omit [DecidableEq ι] in
theorem Ordered.pending_nonneg : 0 ≤ s.pending := by
  rw [h.counted]
  exact Int.natCast_nonneg _

omit [DecidableEq ι] in
theorem Ordered.lt_threads (hk : s.loops k ≠ .absent) : k < s.threads := Nat.lt_of_not_le (mt (h.absent k).mpr hk)

/-- The counter after a client has moved. -/
theorem Ordered.counted_update {pc : ClientPc} {p : ℤ} (hp : p + inside (s.client i) = s.pending + inside pc) :
    p = Threads.total inside (Function.update s.client i pc) := by
  have hsum := Threads.total_update inside s.client i pc
  have hcounted := h.counted
  omega

omit [DecidableEq ι] in
theorem Ordered.absent_update (hk : s.loops k ≠ .absent) {pc : LoopPc} (hpc : pc ≠ .absent) (j : ℕ) :
    Function.update s.loops k pc j = .absent ↔ s.threads ≤ j := by
  rcases eq_or_ne j k with rfl | hj
  · rw [Function.update_self]
    exact iff_of_false hpc (Nat.not_le.mpr (h.lt_threads hk))
  · rw [Function.update_of_ne hj]
    exact h.absent j

theorem Ordered.created_update {pc : ClientPc} (hpc : needs pc ≤ s.threads) (j : ι) :
    needs (Function.update s.client i pc j) ≤ s.threads := by
  rcases eq_or_ne j i with rfl | hj
  · rwa [Function.update_self]
  · rw [Function.update_of_ne hj]
    exact h.created j

omit [DecidableEq ι] in
theorem Ordered.threads_pos (hi : needs (s.client i) = 1) : 0 < s.threads := by
  have hcreated := h.created i
  omega

theorem Ordered.moves_counted (hmove : Moves s a s') : s'.pending = Threads.total inside s'.client := by
  cases hmove with
  | sleep | want | wake | acquire | again | leave | close => exact h.counted
  | inc i hi | take i hi | stay i prev hi | create i prev hi | release i ok prev hi stops | stop i hi | halt i hi
  | join i hi | joined i k hi =>
      exact h.counted_update (by simp [inside, ClientPc.Inside, moveClient, setLock, setRunning, initThread, hi])
  | dec i k joins hi => exact h.counted_update (by cases joins <;> simp [inside, ClientPc.Inside, moveClient, hi])
  | signal i k joins hi hpending =>
      exact h.counted_update (by cases joins <;> simp [inside, ClientPc.Inside, moveLoop, moveClient, hi, hpending])

theorem Ordered.moves_locked (hmove : Moves s a s') : Threads.Locked s'.lock s'.Holds := by
  have hlocked := h.locked
  cases hmove with
  | sleep k hloop | want k hloop | wake k hloop | leave k hloop =>
      exact hlocked.congr (holds_iff_loop rfl rfl (by simp [LoopPc.InLock, hloop]))
  | acquire k hloop hlock =>
      rw [hlock] at hlocked
      refine hlocked.acquire ?_ fun o ho => ?_
      · refine (holds_loop rfl).mpr ?_
        cases s.running <;> exact trivial
      · exact holds_of_ne_loop (by rfl) (by rfl) ho
  | again k hloop | close k hloop =>
      refine hlocked.release (o := .loop k) ?_ ((holds_loop rfl).not.mpr id) fun o ho => ?_
      · simp [Holds, LoopPc.InLock, hloop]
      · exact holds_of_ne_loop (by rfl) (by rfl) ho
  | inc i hi | stay i prev hi | stop i hi | halt i hi | join i hi | joined i k hi =>
      exact hlocked.congr (holds_iff_client rfl rfl (by simp [ClientPc.InLock, hi]))
  | take i hi hlock =>
      rw [hlock] at hlocked
      refine hlocked.acquire ?_ fun o ho => ?_
      · refine (holds_client rfl).mpr ?_
        exact trivial
      · exact holds_of_ne_client (by rfl) (by rfl) ho
  | create i prev hi =>
      -- the lock is the client's, and the new thread does not have it
      have hnew : s.loops s.threads = .absent := (h.absent s.threads).mpr le_rfl
      have hmoved : Threads.Locked s.lock (s.moveClient i (.working prev)).Holds :=
        hlocked.congr (holds_iff_client rfl rfl (by simp [ClientPc.InLock, hi]))
      exact hmoved.congr (holds_iff_loop rfl rfl (by simp [LoopPc.InLock, moveClient, hnew]))
  | release i ok prev hi stops =>
      refine hlocked.release (o := .client i) ?_ ((holds_client rfl).not.mpr id) fun o ho => ?_
      · simp [Holds, ClientPc.InLock, hi]
      · exact holds_of_ne_client (by rfl) (by rfl) ho
  | dec i k joins hi =>
      exact hlocked.congr (holds_iff_client rfl rfl (by cases joins <;> simp [ClientPc.InLock, hi]))
  | signal i k joins hi hpending hloop =>
      have hmoved : Threads.Locked s.lock (s.moveLoop k .checking).Holds :=
        hlocked.congr (holds_iff_loop rfl rfl (by simp [LoopPc.InLock, hloop]))
      exact hmoved.congr (holds_iff_client rfl rfl (by cases joins <;> simp [ClientPc.InLock, moveLoop, hi]))

theorem Ordered.moves_absent (hmove : Moves s a s') (j : ℕ) : s'.loops j = .absent ↔ s'.threads ≤ j := by
  cases hmove with
  | sleep k hloop | want k hloop | wake k hloop | again k hloop | leave k hloop | close k hloop =>
      exact h.absent_update (by simp [hloop]) (by simp) j
  | acquire k hloop => exact h.absent_update (by simp [hloop]) (by cases s.running <;> simp) j
  | inc | take | stay | release | dec | stop | halt | join | joined => exact h.absent j
  | create i prev =>
      simp only [initThread, moveClient]
      rcases eq_or_ne j s.threads with rfl | hj
      · simp
      · rw [Function.update_of_ne hj, h.absent j]
        omega
  | signal i k joins hi hpending hloop => exact h.absent_update (by simp [hloop]) (by simp) j

theorem Ordered.moves (hmove : Moves s a s') : s'.Ordered := by
  refine ⟨h.moves_counted hmove, h.moves_locked hmove, h.moves_absent hmove, ?_, ?_⟩
  · cases hmove with
    | sleep | want | wake | acquire | again | leave | close | inc | take | stay | dec | signal | stop | join | joined =>
        exact h.running
    | create => exact fun _ => Nat.succ_pos _
    | release i ok prev hi stops =>
        have hpos := h.threads_pos (i := i) (by rw [hi]; rfl)
        exact fun _ => hpos
    | halt => exact fun hrunning => absurd hrunning Bool.false_ne_true
  · cases hmove with
    | sleep | want | wake | acquire | again | leave | close => exact h.created
    | inc | take | joined => exact h.created_update (Nat.zero_le _)
    | stay i prev hi hrunning | stop i hi hrunning => exact h.created_update (h.running hrunning)
    | create i prev hi =>
        intro j
        rcases eq_or_ne j i with rfl | hj
        · simp [initThread, moveClient, needs]
        · simp only [initThread, moveClient, Function.update_of_ne hj]
          exact (h.created j).trans (Nat.le_succ _)
    | release i ok prev hi stops | halt i hi => exact h.created_update (h.threads_pos (i := i) (by rw [hi]; rfl))
    | dec i k joins hi | signal i k joins hi =>
        have hpos := h.threads_pos (i := i) (by rw [hi]; rfl)
        refine h.created_update ?_
        cases joins with
        | true => exact hpos
        | false => exact Nat.zero_le _
    | join i hi =>
        have hpos := h.threads_pos (i := i) (by rw [hi]; rfl)
        refine h.created_update ?_
        rw [needs]
        omega

end

theorem ordered_of_exec (h : Machine.exec step start es = some s) : s.Ordered :=
  Machine.invariant Ordered (fun _ => True) (fun _ _ _ hs _ ha => hs.moves (moves_of_step ha)) start_ordered
    (fun _ _ => trivial) h

/-! ## Wakeups -/

/-- A loop that sleeps has a client to wait for, which will wake it up. -/
def Attended (s : RunLoop ι) : Prop := ∀ k, s.loops k = .asleep → 0 < s.pending

theorem asleep_of_update {loops : ℕ → LoopPc} {k j : ℕ} {pc : LoopPc} (hpc : pc ≠ .asleep)
    (hj : Function.update loops k pc j = .asleep) : j ≠ k ∧ loops j = .asleep := by
  rcases eq_or_ne j k with rfl | hne
  · rw [Function.update_self] at hj
    exact absurd hj hpc
  · rw [Function.update_of_ne hne] at hj
    exact ⟨hne, hj⟩

/-- A signal wakes up one loop only, so a second one that sleeps could be left without a client. -/
theorem Ordered.moves_attended (h : s.Ordered) (halone : s.Alone) (hattended : s.Attended) (hmove : Moves s a s') :
    s'.Attended := by
  cases hmove with
  | sleep k hloop hpending => exact fun _ _ => lt_of_le_of_ne h.pending_nonneg hpending.symm
  | want | wake | again | leave | close =>
      exact fun j hj => hattended j (asleep_of_update (by simp) hj).2
  | acquire => exact fun j hj => hattended j (asleep_of_update (by cases s.running <;> simp) hj).2
  | inc => exact fun j hj => Int.lt_add_one_of_le (hattended j hj).le
  | take | stay | release | stop | halt | join | joined => exact hattended
  | create i prev => exact fun j hj => hattended j (asleep_of_update (k := s.threads) (by simp) hj).2
  | dec i k joins hi hpending hawake =>
      intro j hj
      have hj : s.loops j = .asleep := hj
      have hone : s.pending ≠ 1 := fun hone => hawake hone j (h.lt_threads (by simp [hj])) hj
      show 0 < s.pending - 1
      omega
  | signal i k joins hi hpending hloop =>
      intro j hj
      obtain ⟨hne, hj⟩ : j ≠ k ∧ s.loops j = .asleep := asleep_of_update (by simp) hj
      exact absurd (halone j k (by simp [hj]) (by simp [hj]) (by simp [hloop]) (by simp [hloop])) hne

theorem attended_of_exec (h : Machine.exec step start es = some s) (halone : Machine.Through step Alone start es) :
    s.Attended := by
  refine (Machine.invariant_through (fun s => s.Ordered ∧ s.Attended) Alone ?_ ⟨start_ordered, ?_⟩ halone h).2
  · intro s a s' ⟨hs, hattended⟩ halone _ hstep
    have hmove := moves_of_step hstep
    exact ⟨hs.moves hmove, hs.moves_attended halone hattended hmove⟩
  · intro k hk
    cases hk

omit [DecidableEq ι] in
theorem Ordered.alone (h : s.Ordered) (hthreads : s.threads ≤ 1) : s.Alone := by
  intro j k hj _ hk _
  have hj := h.lt_threads hj
  have hk := h.lt_threads hk
  omega

omit [Fintype ι] in
theorem Moves.threads_le (hmove : Moves s a s') : s.threads ≤ s'.threads := by
  cases hmove with
  | create => exact Nat.le_succ _
  | _ => exact le_rfl

omit [Fintype ι] in
theorem threads_le_exec (h : Machine.exec step s es = some s') : s.threads ≤ s'.threads :=
  Machine.invariant (fun t => s.threads ≤ t.threads) (fun _ => True)
    (fun _ _ _ hle _ hstep => hle.trans (moves_of_step hstep).threads_le) le_rfl (fun _ _ => trivial) h

theorem through_alone (h : Machine.exec step start es = some s) (hthreads : s.threads ≤ 1) :
    Machine.Through step Alone start es := by
  rintro es₁ es₂ t rfl ht
  obtain ⟨u, hu, hrest⟩ := Machine.exec_append_eq_some.mp h
  obtain rfl : t = u := Option.some_inj.mp (ht.symm.trans hu)
  exact (ordered_of_exec ht).alone ((threads_le_exec hrest).trans hthreads)

/-! ## How often a loop gets the lock while a client waits -/

def credit (loops : ℕ → LoopPc) (k : ℕ) : ℕ := if loops k = .wanting then 1 else 0

omit [Fintype ι] in
theorem Moves.inside (hmove : Moves s a s') (hi : (s.client i).Inside) (ha : ∀ k, a ≠ .dec i k) :
    (s'.client i).Inside := by
  have hupdate {j : ι} {pc : ClientPc} (hpc : pc.Inside) : (Function.update s.client j pc i).Inside := by
    rcases eq_or_ne i j with rfl | hij
    · rwa [Function.update_self]
    · rwa [Function.update_of_ne hij]
  have hother {j : ι} {pc' : ClientPc} (hj : s.client j = pc') (hpc' : ¬ pc'.Inside) (pc : ClientPc) :
      (Function.update s.client j pc i).Inside := by
    have hij : i ≠ j := fun hij => hpc' (hj ▸ hij ▸ hi)
    rwa [Function.update_of_ne hij]
  cases hmove with
  | sleep | want | wake | acquire | again | leave | close => exact hi
  | inc | take | stay | create | release => exact hupdate trivial
  | dec j k | signal j k =>
      have hij : i ≠ j := fun hij => ha k (by rw [hij])
      simpa [moveClient, moveLoop, Function.update_of_ne hij] using hi
  | stop j hj | halt j hj | join j hj | joined j k hj => exact hother hj id _

theorem credit_update {pc : LoopPc} (hpc : pc ≠ .wanting) (loops : ℕ → LoopPc) (k j : ℕ) :
    credit (Function.update loops k pc) j ≤ credit loops j := by
  rcases eq_or_ne j k with rfl | hne
  · simp [credit, hpc]
  · simp [credit, Function.update_of_ne hne]

/-- A client that is inside keeps the loops from asking for the lock again. -/
theorem Ordered.credit_moves (h : s.Ordered) (hi : (s.client i).Inside) (hmove : Moves s a s') (k : ℕ) :
    (if a = .acquire k then 1 else 0) + credit s'.loops k ≤ credit s.loops k := by
  cases hmove with
  | sleep | wake | again | leave | close | create | signal =>
      rw [if_neg (by simp), zero_add]
      exact credit_update (by simp) s.loops _ k
  | want j hloop hpending => exact absurd hpending (h.pending_pos hi).ne'
  | acquire j hloop =>
      have hpc : (if s.running = true then LoopPc.processing else .closing) ≠ .wanting := by cases s.running <;> simp
      by_cases hj : j = k
      · rw [if_pos (by rw [hj])]
        simp [credit, setLock, moveLoop, ← hj, hloop, hpc]
      · rw [if_neg (by simp [hj]), zero_add]
        exact credit_update hpc s.loops j k
  | inc | take | stay | release | dec | stop | halt | join | joined =>
      rw [if_neg (by simp), zero_add]
      exact le_rfl

theorem Ordered.credit_exec (h : s.Ordered) (hi : (s.client i).Inside) (hes : ∀ k, .dec i k ∉ es)
    (hexec : Machine.exec step s es = some s') (k : ℕ) :
    es.count (.acquire k) + credit s'.loops k ≤ credit s.loops k := by
  induction es generalizing s with
  | nil => cases hexec; simp
  | cons a es ih =>
      obtain ⟨t, ht, hrest⟩ := Machine.exec_cons_eq_some.mp hexec
      have hmove := moves_of_step ht
      have hstep := h.credit_moves hi hmove k
      have hnot (j : ℕ) : a ≠ .dec i j := fun ha => hes j (ha ▸ List.mem_cons_self)
      have hrun := ih (h.moves hmove) (hmove.inside hi hnot) (fun j hj => hes j (List.mem_cons_of_mem a hj)) hrest
      rw [List.count_cons]
      simp only [beq_iff_eq]
      omega

/-! ## How long it takes until a loop gets the lock -/

/-- How many steps are left to a client, and to the loop that it may create. -/
def clientLeft : ClientPc → ℕ
  | .outside => 0
  | .wanting => 7
  | .holding _ => 6
  | .working _ => 4
  | .leaving _ | .stopping => 3
  | .ending => 2
  | .joining _ => 1

/-- How many steps are left to a loop before it sleeps, asks for the lock or ends. -/
def loopLeft : LoopPc → ℕ
  | .absent | .asleep | .wanting | .finished => 0
  | .checking | .closing => 1
  | .processing => 2

def loopsLeft (loops : ℕ → LoopPc) (n : ℕ) : ℕ := ∑ k ∈ Finset.range n, loopLeft (loops k)

theorem loopsLeft_update {n k : ℕ} (hk : k < n) (loops : ℕ → LoopPc) (pc : LoopPc) :
    loopsLeft (Function.update loops k pc) n + loopLeft (loops k) = loopsLeft loops n + loopLeft pc :=
  Threads.sum_update loopLeft loops (Finset.mem_range.mpr hk) pc

theorem loopsLeft_succ (loops : ℕ → LoopPc) (n : ℕ) (pc : LoopPc) :
    loopsLeft (Function.update loops n pc) (n + 1) = loopsLeft loops n + loopLeft pc := by
  have hrest : ∑ k ∈ Finset.range n, loopLeft (Function.update loops n pc k) =
      ∑ k ∈ Finset.range n, loopLeft (loops k) :=
    Finset.sum_congr rfl fun k hk => by rw [Function.update_of_ne (Finset.mem_range.mp hk).ne]
  rw [loopsLeft, Finset.sum_range_succ, hrest, Function.update_self, loopsLeft]

/-- A loop that sleeps is woken up once more by those who are inside. -/
def stepsLeft (s : RunLoop ι) : ℕ :=
  Threads.total clientLeft s.client + loopsLeft s.loops s.threads + if 0 < s.pending then 1 else 0

omit [DecidableEq ι] in
theorem stepsLeft_loop {pc : LoopPc} (hloops : s'.loops = Function.update s.loops k pc)
    (hthreads : s'.threads = s.threads) (hclient : s'.client = s.client) (hpending : s'.pending = s.pending)
    (hk : k < s.threads)
    (hpc : loopLeft pc < loopLeft (s.loops k)) : s'.stepsLeft < s.stepsLeft := by
  have hsum := loopsLeft_update hk s.loops pc
  rw [stepsLeft, stepsLeft, hloops, hthreads, hclient, hpending]
  omega

theorem stepsLeft_client {pc : ClientPc} (hclient : s'.client = Function.update s.client i pc)
    (hloops : s'.loops = s.loops) (hthreads : s'.threads = s.threads) (hpending : s'.pending ≤ s.pending)
    (hpc : clientLeft pc < clientLeft (s.client i)) : s'.stepsLeft < s.stepsLeft := by
  have hsum := Threads.total_update clientLeft s.client i pc
  have hbonus : (if 0 < s'.pending then 1 else 0) ≤ if 0 < s.pending then 1 else 0 := by split_ifs <;> omega
  rw [stepsLeft, stepsLeft, hclient, hloops, hthreads]
  omega

theorem Ordered.moves_stepsLeft (h : s.Ordered) (hmove : Moves s a s') (ha : ¬ a.FromOutside)
    (hacquire : ∀ k, a ≠ .acquire k) : s'.stepsLeft < s.stepsLeft := by
  cases hmove with
  | sleep k hloop | want k hloop | again k hloop | leave k hloop | close k hloop =>
      have hk : k < s.threads := h.lt_threads (by simp [hloop])
      exact stepsLeft_loop rfl rfl rfl rfl hk (by simp [hloop, loopLeft])
  | wake | inc | stop => exact absurd trivial ha
  | acquire k => exact absurd rfl (hacquire k)
  | take i hi | stay i prev hi | release i ok prev hi | halt i hi | join i hi | joined i k hi =>
      exact stepsLeft_client rfl rfl rfl le_rfl (by simp [hi, clientLeft])
  | create i prev hi =>
      have hclient := Threads.total_update clientLeft s.client i (.working prev)
      have hloops := loopsLeft_succ s.loops s.threads .checking
      rw [hi] at hclient
      simp only [clientLeft, loopLeft] at hclient hloops
      rw [stepsLeft, stepsLeft]
      refine Nat.add_lt_add_right ?_ _
      simp only [initThread, moveClient]
      omega
  | dec i k joins hi =>
      refine stepsLeft_client rfl rfl rfl (sub_le_self _ Int.one_nonneg) ?_
      cases joins <;> simp [hi, clientLeft]
  | signal i k joins hi hpending hloop =>
      have hk : k < s.threads := h.lt_threads (by simp [hloop])
      have hclient := Threads.total_update clientLeft s.client i (if joins then .ending else .outside)
      have hleft : clientLeft (if joins then .ending else .outside) ≤ 2 := by cases joins <;> simp [clientLeft]
      have hleaving : clientLeft (s.client i) = 3 := by rw [hi]; rfl
      have hloops := loopsLeft_update hk s.loops .checking
      rw [hloop] at hloops
      simp only [loopLeft] at hloops
      simp only [stepsLeft, moveLoop, moveClient, hpending, sub_self, lt_irrefl, if_false, Int.one_pos, if_true]
      omega

theorem Ordered.stepsLeft_exec (h : s.Ordered) (hes : ∀ a ∈ es, ¬ a.FromOutside ∧ ∀ k, a ≠ .acquire k)
    (hexec : Machine.exec step s es = some s') : es.length ≤ s.stepsLeft := by
  induction es generalizing s with
  | nil => exact Nat.zero_le _
  | cons a es ih =>
      obtain ⟨t, ht, hrest⟩ := Machine.exec_cons_eq_some.mp hexec
      obtain ⟨ha, hacquire⟩ := hes a List.mem_cons_self
      have hmove := moves_of_step ht
      have hstep := h.moves_stepsLeft hmove ha hacquire
      have hrun := ih (h.moves hmove) (fun b hb => hes b (List.mem_cons_of_mem _ hb)) hrest
      rw [List.length_cons]
      omega

omit [DecidableEq ι] in
theorem stepsLeft_le (s : RunLoop ι) :
    s.stepsLeft ≤ 7 * ({i | s.client i ≠ .outside} : Finset ι).card + 2 * s.threads + 1 := by
  have hcard : Threads.total (fun pc : ClientPc => if pc ≠ .outside then 1 else 0) s.client =
      ({i | s.client i ≠ .outside} : Finset ι).card := Threads.total_eq_card (fun _ => rfl) s.client
  have hclients : Threads.total clientLeft s.client ≤ 7 * ({i | s.client i ≠ .outside} : Finset ι).card := by
    rw [← hcard]
    refine Threads.total_le_mul fun pc => ?_
    cases pc <;> simp [clientLeft]
  have hloops : loopsLeft s.loops s.threads ≤ 2 * s.threads := by
    have htwo : ∑ _k ∈ Finset.range s.threads, 2 = s.threads * 2 := by
      rw [Finset.sum_const_nat fun _ _ => rfl, Finset.card_range]
    rw [Nat.mul_comm, ← htwo]
    refine Finset.sum_le_sum fun k _ => ?_
    cases s.loops k <;> simp [loopLeft]
  have hbonus : (if 0 < s.pending then 1 else 0) ≤ 1 := by split_ifs <;> omega
  rw [stepsLeft]
  omega

/-! ## Who can go on -/

omit [Fintype ι] in
theorem exists_dec {joins : Bool} (hi : s.client i = .leaving joins) (hpending : 0 < s.pending) :
    ∃ k, (s.step (.dec i k)).isSome := by
  have hassert : s.pending - 1 ≥ 0 := by omega
  by_cases hasleep : s.pending - 1 = 0 ∧ ∃ j < s.threads, s.loops j = .asleep
  · obtain ⟨j, hj, hloop⟩ := hasleep.2
    refine ⟨j, ?_⟩
    simp only [step, hi, tasksDec, if_pos hassert, if_pos hasleep, if_pos hloop]
    rfl
  · refine ⟨0, ?_⟩
    simp only [step, hi, tasksDec, if_pos hassert, if_neg hasleep]
    rfl

omit [DecidableEq ι] in
theorem Ordered.exists_inside (h : s.Ordered) (hpending : 0 < s.pending) : ∃ i, (s.client i).Inside := by
  by_contra hnone
  have hzero : Threads.total inside s.client = 0 :=
    Threads.total_eq_zero fun i => if_neg fun hi => hnone ⟨i, hi⟩
  have hcount := h.counted
  omega

/-- Who has the lock can go on. -/
theorem Ordered.exists_step_of_owner (h : s.Ordered) {o : Owner ι} (ho : s.lock = some o) :
    ∃ a : Action ι, ¬ a.FromOutside ∧ (step s a).isSome := by
  have hholds := (h.locked o).mp ho
  cases o with
  | loop k =>
      cases hloop : s.loops k with
      | processing => exact ⟨.process k true, id, by simp [step, hloop]⟩
      | closing => exact ⟨.close k, id, by simp [step, hloop]⟩
      | _ => simp [Holds, hloop, LoopPc.InLock] at hholds
  | client i =>
      cases hi : s.client i with
      | holding prev => exact ⟨.enter i, id, by simp [step, hi]⟩
      | working prev => exact ⟨.release i true, id, by simp [step, hi]⟩
      | _ => simp [Holds, hi, ClientPc.InLock] at hholds

/-- As long as not all have come to an end, someone can go on. -/
theorem Ordered.exists_step (h : s.Ordered) (hattended : s.Attended) :
    (∃ a : Action ι, ¬ a.FromOutside ∧ (step s a).isSome) ∨
      (∀ i, s.client i = .outside) ∧ ∀ k < s.threads, s.loops k = .finished := by
  cases hlock : s.lock with
  | some o => exact .inl (h.exists_step_of_owner hlock)
  | none =>
      have hfree (o : Owner ι) : ¬ s.Holds o := by
        rw [← h.locked o, hlock]
        exact (Option.some_ne_none o).symm
      by_cases hpending : 0 < s.pending
      · obtain ⟨i, hinside⟩ := h.exists_inside hpending
        have hi := hfree (.client i)
        cases hpc : s.client i with
        | wanting => exact .inl ⟨.take i, id, by simp [step, hpc, hlock]⟩
        | leaving joins =>
            obtain ⟨k, hk⟩ := exists_dec hpc hpending
            exact .inl ⟨.dec i k, id, hk⟩
        | holding | working => simp [Holds, hpc, ClientPc.InLock] at hi
        | outside | stopping | ending | joining => exact absurd hinside (by rw [hpc]; exact id)
      · by_cases hfinished : ∀ k < s.threads, s.loops k = .finished
        · by_cases houtside : ∀ i, s.client i = .outside
          · exact .inr ⟨houtside, hfinished⟩
          · obtain ⟨i, hi⟩ := not_forall.mp houtside
            cases hpc : s.client i with
            | outside => exact absurd hpc hi
            | stopping => exact .inl ⟨.halt i, id, by simp [step, hpc]⟩
            | ending => exact .inl ⟨.join i, id, by simp [step, hpc]⟩
            | joining k =>
                have hk : k < s.threads := by
                  have hcreated := h.created i
                  rwa [hpc] at hcreated
                exact .inl ⟨.joined i, id, by simp [step, hpc, hfinished k hk]⟩
            | wanting | holding | working | leaving =>
                exact absurd (h.pending_pos (i := i) (by rw [hpc]; trivial)) hpending
        · obtain ⟨k, hk⟩ := not_forall.mp hfinished
          obtain ⟨hk, hne⟩ := Classical.not_imp.mp hk
          have hbusy := hfree (.loop k)
          cases hloop : s.loops k with
          | absent => exact absurd ((h.absent k).mp hloop) (Nat.not_le.mpr hk)
          | checking => exact .inl ⟨.check k, id, by simp [step, hloop]⟩
          | asleep => exact absurd (hattended k hloop) hpending
          | wanting => exact .inl ⟨.acquire k, id, by simp [step, hloop, hlock]⟩
          | processing | closing => simp [Holds, hloop, LoopPc.InLock] at hbusy
          | finished => exact absurd hloop hne

end CarBoundary.RunLoop

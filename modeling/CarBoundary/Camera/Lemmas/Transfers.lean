import CarBoundary.Camera.Transfers

/-!
# Counting transfers
-/

namespace CarBoundary.IsoStream

variable {numXfers : ℕ} {s s' : IsoStream numXfers} {e : IsoEvent numXfers} {es : List (IsoEvent numXfers)}

/-! ## What a step does -/

theorem step_cases (h : s.step e = some s') :
    (∃ i completed packets submitted t, e = .callback i completed packets submitted ∧ s.xfers i = .flying ∧
      s' = { s with xfers := Function.update s.xfers i t, deadXfers := s.deadXfers + if t = .over then 1 else 0 } ∧
      (s.dead = true → t = .over)) ∨
    (e = .stop ∧ s.dead = false ∧ s' = { s with dead := true }) ∨
    (e = .finish ∧ s.dead = true ∧ s.freed = false ∧ numXfers ≤ s.deadXfers ∧ s' = { s with freed := true }) := by
  cases e with
  | callback i completed packets submitted =>
      obtain ⟨hi, rfl⟩ : s.xfers i = .flying ∧ _ = s' := by simpa [step] using h
      refine .inl ⟨i, completed, packets, submitted, ?_⟩
      unfold isoCallback
      cases hdead : s.dead with
      | true => exact ⟨.over, rfl, hi, rfl, fun _ => rfl⟩
      | false =>
          cases completed with
          | true => cases submitted <;> exact ⟨_, rfl, hi, rfl, fun hd => by cases hd⟩
          | false => exact ⟨.over, rfl, hi, rfl, fun hd => by cases hd⟩
  | stop =>
      obtain ⟨hdead, rfl⟩ : s.dead = false ∧ _ = s' := by simpa [step] using h
      exact .inr (.inl ⟨rfl, hdead, rfl⟩)
  | finish =>
      obtain ⟨⟨hdead, hfreed, hlast⟩, rfl⟩ : (s.dead = true ∧ s.freed = false ∧ numXfers ≤ s.deadXfers) ∧ _ = s' := by
        simpa [step] using h
      exact .inr (.inr ⟨rfl, hdead, hfreed, hlast, rfl⟩)

/-! ## What is counted -/

def isOver (t : Transfer) : ℕ := if t = .over then 1 else 0

def isFlying (t : Transfer) : ℕ := if t = .flying then 1 else 0

def isRefused (t : Transfer) : ℕ := if t = .refused then 1 else 0

theorem total_add_total (xfers : Fin numXfers → Transfer) :
    Threads.total isOver xfers + Threads.total isFlying xfers + Threads.total isRefused xfers = numXfers := by
  have hone (t : Transfer) : isOver t + isFlying t + isRefused t = 1 := by cases t <;> rfl
  rw [Threads.total, Threads.total, Threads.total, ← Finset.sum_add_distrib, ← Finset.sum_add_distrib]
  simp [hone]

theorem total_isRefused_eq_zero (xfers : Fin numXfers → Transfer) :
    Threads.total isRefused xfers = 0 ↔ ∀ i, xfers i ≠ .refused := by
  rw [Threads.total, Finset.sum_eq_zero_iff]
  simp [isRefused]

/-- `dead_xfers` counts the transfers that are over, and they all are when the buffer is freed. -/
structure Counted (s : IsoStream numXfers) : Prop where
  deadXfers : s.deadXfers = Threads.total isOver s.xfers
  freed : s.freed = true → s.deadXfers = numXfers

theorem Counted.le (h : s.Counted) : s.deadXfers ≤ numXfers := by
  have hsum := total_add_total s.xfers
  rw [h.deadXfers]
  omega

theorem Counted.over (h : s.Counted) (hall : s.deadXfers = numXfers) (i : Fin numXfers) : s.xfers i = .over := by
  have hsum := total_add_total s.xfers
  have hflying := Threads.le_total isFlying s.xfers i
  have hrefused := Threads.le_total isRefused s.xfers i
  rw [h.deadXfers] at hall
  have hcases : s.xfers i = .over ∨ s.xfers i = .flying ∨ s.xfers i = .refused := by
    cases s.xfers i <;> simp
  rcases hcases with hi | hi | hi
  · exact hi
  · rw [hi] at hflying; simp [isFlying] at hflying; omega
  · rw [hi] at hrefused; simp [isRefused] at hrefused; omega

theorem startIso_counted (submitted : Fin numXfers → Bool) : (startIso submitted).Counted where
  deadXfers := by
    refine (Threads.total_eq_zero fun i => ?_).symm
    cases h : submitted i <;> simp [startIso, submit, isOver, h]
  freed h := by cases h

theorem Counted.step (h : s.Counted) (hstep : s.step e = some s') : s'.Counted := by
  obtain ⟨i, completed, packets, submitted, t, rfl, hi, rfl, _⟩ | ⟨rfl, _, rfl⟩ | ⟨rfl, _, _, hlast, rfl⟩ :=
    step_cases hstep
  · have hsum := Threads.total_update isOver s.xfers i t
    rw [hi] at hsum
    refine ⟨?_, fun hfreed => ?_⟩
    · rw [h.deadXfers]
      simp only [isOver, reduceCtorEq, if_false] at hsum ⊢
      omega
    · rw [h.over (h.freed hfreed) i] at hi
      cases hi
  · exact ⟨h.deadXfers, h.freed⟩
  · exact ⟨h.deadXfers, fun _ => le_antisymm h.le hlast⟩

theorem counted_of_exec {submitted : Fin numXfers → Bool} (h : Machine.exec step (startIso submitted) es = some s) :
    s.Counted :=
  Machine.invariant Counted (fun _ => True) (fun _ _ _ hs _ hstep => hs.step hstep) (startIso_counted submitted)
    (fun _ _ => trivial) h

/-! ## After the transfers have been cancelled -/

/-- Each step until the loop ends is a callback for one of the transfers that are left. -/
theorem exec_dead (hdead : s.dead = true) (hes : .finish ∉ es) (h : Machine.exec step s es = some s') :
    s'.dead = true ∧ s'.freed = s.freed ∧
      es.length + Threads.total isFlying s'.xfers = Threads.total isFlying s.xfers ∧
      Threads.total isRefused s'.xfers = Threads.total isRefused s.xfers := by
  induction es generalizing s with
  | nil =>
      cases h
      exact ⟨hdead, rfl, by simp, rfl⟩
  | cons e es ih =>
      obtain ⟨t, ht, hrest⟩ := Machine.exec_cons_eq_some.mp h
      obtain ⟨hfinish, hes'⟩ := not_or.mp (mt List.mem_cons.mpr hes)
      obtain ⟨i, completed, packets, submitted, x, rfl, hi, rfl, hx⟩ | ⟨_, hlive, _⟩ | ⟨rfl, _⟩ := step_cases ht
      · obtain ⟨hdead', hfreed, hflying, hrefused⟩ := ih (by exact hdead) hes' hrest
        have hover := hx hdead
        subst hover
        have hsumF := Threads.total_update isFlying s.xfers i .over
        have hsumR := Threads.total_update isRefused s.xfers i .over
        rw [hi] at hsumF hsumR
        simp only [isFlying, isRefused, reduceCtorEq, if_false, if_true] at hsumF hsumR
        refine ⟨hdead', hfreed, ?_, hrefused.trans (by omega)⟩
        rw [List.length_cons]
        dsimp only at hflying
        omega
      · rw [hdead] at hlive
        cases hlive
      · exact absurd rfl hfinish

end CarBoundary.IsoStream

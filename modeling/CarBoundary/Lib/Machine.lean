import Mathlib.Data.Option.Basic
import Mathlib.Data.List.Basic

/-!
# Machines

A machine takes steps that are labelled with events, and an event need not be possible in every state. A run is a
list of events (`exec`). What a step shows to the outside is a list of observations (`trace`). An invariant and a
simulation are shown for one step and then hold for every run.
-/

namespace Machine

variable {σ τ ε ο : Type*} (step : σ → ε → Option σ) (emit : σ → ε → List ο)

def exec (s : σ) (es : List ε) : Option σ := es.foldlM step s

def trace (s : σ) : List ε → List ο
  | [] => []
  | e :: es => emit s e ++ match step s e with
      | some s' => trace s' es
      | none => []

variable {step emit} {s s' : σ} {e : ε} {es es' : List ε} {Inv : σ → Prop}

/-! ## Runs -/

@[simp]
theorem exec_nil (s : σ) : exec step s [] = some s := rfl

theorem exec_cons (s : σ) (e : ε) (es : List ε) :
    exec step s (e :: es) = (step s e).bind fun s' => exec step s' es := rfl

theorem exec_cons_eq_some : exec step s (e :: es) = some s' ↔ ∃ t, step s e = some t ∧ exec step t es = some s' := by
  rw [exec_cons, Option.bind_eq_some_iff]

theorem exec_append (s : σ) (es es' : List ε) :
    exec step s (es ++ es') = (exec step s es).bind fun s' => exec step s' es' := by
  rw [exec, List.foldlM_append]
  rfl

theorem exec_append_eq_some :
    exec step s (es ++ es') = some s' ↔ ∃ t, exec step s es = some t ∧ exec step t es' = some s' := by
  rw [exec_append, Option.bind_eq_some_iff]

/-- An invariant of the steps is one of the runs. The steps may be restricted to some of the events. -/
theorem invariant (Inv : σ → Prop) (P : ε → Prop) (hstep : ∀ s e s', Inv s → P e → step s e = some s' → Inv s')
    (hs : Inv s) (hes : ∀ e ∈ es, P e) (h : exec step s es = some s') : Inv s' := by
  induction es generalizing s with
  | nil => cases h; exact hs
  | cons e es ih =>
      obtain ⟨t, ht, hrest⟩ := exec_cons_eq_some.mp h
      exact ih (hstep _ _ _ hs (hes e List.mem_cons_self) ht) (fun e' he' => hes e' (List.mem_cons_of_mem _ he')) hrest

/-- All states that the run comes through satisfy the condition. -/
def Through (step : σ → ε → Option σ) (P : σ → Prop) (s : σ) (es : List ε) : Prop :=
  ∀ es₁ es₂ t, es = es₁ ++ es₂ → exec step s es₁ = some t → P t

theorem Through.tail {P : σ → Prop} (h : Through step P s (e :: es)) (hstep : step s e = some s') :
    Through step P s' es :=
  fun es₁ es₂ t hes hexec => h (e :: es₁) es₂ t (by rw [hes, List.cons_append])
    (exec_cons_eq_some.mpr ⟨s', hstep, hexec⟩)

/-- What the steps between states with a condition preserve holds after a run through such states. -/
theorem invariant_through (Inv P : σ → Prop) (hstep : ∀ s e s', Inv s → P s → P s' → step s e = some s' → Inv s')
    (hs : Inv s) (hP : Through step P s es) (h : exec step s es = some s') : Inv s' := by
  induction es generalizing s with
  | nil => cases h; exact hs
  | cons e es ih =>
      obtain ⟨t, ht, hrest⟩ := exec_cons_eq_some.mp h
      have hfirst : P s := hP [] (e :: es) s rfl rfl
      have hnext : P t := hP.tail ht [] es t rfl rfl
      exact ih (hstep _ _ _ hs hfirst hnext ht) (hP.tail ht) hrest

/-! ## Observations -/

theorem trace_cons (h : step s e = some s') (es : List ε) :
    trace step emit s (e :: es) = emit s e ++ trace step emit s' es := by
  rw [trace, h]

theorem trace_append (h : exec step s es = some s') (es' : List ε) :
    trace step emit s (es ++ es') = trace step emit s es ++ trace step emit s' es' := by
  induction es generalizing s with
  | nil => cases h; rfl
  | cons e es ih =>
      obtain ⟨t, ht, hrest⟩ := exec_cons_eq_some.mp h
      rw [List.cons_append, trace_cons ht, trace_cons ht, ih hrest, List.append_assoc]

theorem forall_trace {P : ο → Prop} (h : ∀ e ∈ es, ∀ s, ∀ o ∈ emit s e, P o) (s : σ) :
    ∀ o ∈ trace step emit s es, P o := by
  induction es generalizing s with
  | nil => exact fun o ho => absurd ho List.not_mem_nil
  | cons e es ih =>
      intro o ho
      rw [trace, List.mem_append] at ho
      rcases ho with ho | ho
      · exact h e List.mem_cons_self s o ho
      · cases hstep : step s e with
        | none => rw [hstep] at ho; cases ho
        | some s' =>
            rw [hstep] at ho
            exact ih (fun e' he' => h e' (List.mem_cons_of_mem _ he')) s' o ho

/-- If each step of the machine is a run of a system that is seen through `abs`, so is each run. -/
theorem simulation {abs : σ → τ} {Run : τ → List ο → τ → Prop} (hnil : ∀ t, Run t [] t)
    (happend : ∀ t t' t'' os os', Run t os t' → Run t' os' t'' → Run t (os ++ os') t'')
    (hinv : ∀ s e s', Inv s → step s e = some s' → Inv s')
    (hstep : ∀ s e s', Inv s → step s e = some s' → Run (abs s) (emit s e) (abs s')) (hs : Inv s)
    (h : exec step s es = some s') : Run (abs s) (trace step emit s es) (abs s') := by
  induction es generalizing s with
  | nil => cases h; exact hnil _
  | cons e es ih =>
      obtain ⟨t, ht, hrest⟩ := exec_cons_eq_some.mp h
      rw [trace_cons ht]
      exact happend _ _ _ _ _ (hstep _ _ _ hs ht) (ih (hinv _ _ _ hs ht) hrest)

/-- If one machine can follow another step by step, it can follow a whole run. What relates the states may depend on how
many steps are still to come. -/
theorem refinement {step' : τ → ε → Option τ} {emit' : τ → ε → List ο} {R : ℕ → σ → τ → Prop} {t t' : τ}
    (hstep : ∀ n s t e t', R (n + 1) s t → step' t e = some t' →
      ∃ s', step s e = some s' ∧ emit s e = emit' t e ∧ R n s' t')
    (h : R es.length s t) (hexec : exec step' t es = some t') :
    ∃ s', exec step s es = some s' ∧ trace step emit s es = trace step' emit' t es ∧ R 0 s' t' := by
  induction es generalizing s t with
  | nil => cases hexec; exact ⟨s, rfl, rfl, h⟩
  | cons e es ih =>
      obtain ⟨u, hu, hrest⟩ := exec_cons_eq_some.mp hexec
      obtain ⟨r, hr, hemit, hnext⟩ := hstep es.length s t e u h hu
      obtain ⟨s', hs', htrace, hend⟩ := ih hnext hrest
      exact ⟨s', exec_cons_eq_some.mpr ⟨r, hr, hs'⟩, by rw [trace_cons hr, trace_cons hu, hemit, htrace], hend⟩

end Machine

import Mathlib.Data.List.Range
import Mathlib.Data.Nat.Find
import Mathlib.Logic.Function.Iterate

/-!
# While loops that are cut off after a number of rounds

`run guard body fuel` is `while (guard) body`, stopped after `fuel` rounds at the latest. `Exits` says after
how many rounds the uncut loop leaves, and `run_eq_iterate` that every larger bound gives the same result. A
loop over a list that keeps a log notes the elements in their order (`foldl_snoc`). The second half is about
marching loops, whose state is a position and a memory: the guard reads the position only, so the positions
visited (`trail`) do not depend on the memory, and the memory at the end is a fold over them.
-/

namespace Loop

variable {σ : Type*}

/-- `while (guard s) s = body s;`, cut off after `fuel` rounds. -/
def run (guard : σ → Bool) (body : σ → σ) : ℕ → σ → σ
  | 0, s => s
  | fuel + 1, s => if guard s then run guard body fuel (body s) else s

/-- The uncut loop leaves after exactly `n` rounds. -/
def Exits (guard : σ → Bool) (body : σ → σ) (n : ℕ) (s : σ) : Prop :=
  (∀ k < n, guard (body^[k] s) = true) ∧ guard (body^[n] s) = false

variable {guard : σ → Bool} {body : σ → σ}

/-! ## Leaving the loop -/

theorem exists_exits {bound : ℕ} {s : σ} (h : guard (body^[bound] s) = false) :
    ∃ n ≤ bound, Exits guard body n s := by
  have hex : ∃ n, guard (body^[n] s) = false := ⟨bound, h⟩
  refine ⟨Nat.find hex, Nat.find_min' hex h, ?_, Nat.find_spec hex⟩
  intro k hk
  simpa using Nat.find_min hex hk

theorem run_eq_iterate {n : ℕ} {fuel : ℕ} {s : σ} (h : Exits guard body n s) (hf : n ≤ fuel) :
    run guard body fuel s = body^[n] s := by
  induction fuel generalizing n s with
  | zero => obtain rfl : n = 0 := by omega
            rfl
  | succ fuel ih =>
      cases n with
      | zero => simp [run, show guard s = false from h.2]
      | succ n =>
          have hg : guard s = true := h.1 0 (by omega)
          simp only [run, hg, if_true]
          exact ih ⟨fun k hk => h.1 (k + 1) (by omega), h.2⟩ (by omega)

theorem guard_run {n fuel : ℕ} {s : σ} (h : Exits guard body n s) (hf : n ≤ fuel) :
    guard (run guard body fuel s) = false := by
  rw [run_eq_iterate h hf]; exact h.2

/-! ## Logs -/

theorem foldl_snoc {ι α : Type*} (note : ι → α) (l : List ι) (log : List α) :
    l.foldl (fun log x => log ++ [note x]) log = log ++ l.map note := by
  induction l generalizing log with
  | nil => simp
  | cons x l ih => rw [List.foldl_cons, ih, List.map_cons, List.append_assoc, List.singleton_append]

/-! ## Marching loops -/

section Marching

variable {P : Type*} {step : P → P} {inside : P → Bool} {write : P → σ → σ}

/-- The positions at which the body of a marching loop runs. -/
def trail (inside : P → Bool) (step : P → P) : ℕ → P → List P
  | 0, _ => []
  | fuel + 1, p => if inside p then p :: trail inside step fuel (step p) else []

/-- A marching loop: the body writes at the position and then advances it. -/
def march (inside : P → Bool) (step : P → P) (write : P → σ → σ) (fuel : ℕ) (ps : P × σ) : P × σ :=
  run (fun ps => inside ps.1) (fun ps => (step ps.1, write ps.1 ps.2)) fuel ps

theorem march_fst (fuel : ℕ) (p : P) (s : σ) :
    (march inside step write fuel (p, s)).1 = run inside step fuel p := by
  induction fuel generalizing p s with
  | zero => rfl
  | succ fuel ih =>
      by_cases h : inside p = true
      · simpa [march, run, h] using ih (step p) (write p s)
      · simp [march, run, h]

theorem march_snd (fuel : ℕ) (p : P) (s : σ) :
    (march inside step write fuel (p, s)).2 = (trail inside step fuel p).foldl (fun s p => write p s) s := by
  induction fuel generalizing p s with
  | zero => rfl
  | succ fuel ih =>
      by_cases h : inside p = true
      · simpa [march, run, trail, h] using ih (step p) (write p s)
      · simp [march, run, trail, h]

theorem iterate_fst (k : ℕ) (p : P) (s : σ) :
    ((fun ps : P × σ => (step ps.1, write ps.1 ps.2))^[k] (p, s)).1 = step^[k] p := by
  induction k generalizing p s with
  | zero => rfl
  | succ k ih => exact ih (step p) (write p s)

/-- A marching loop leaves when its position does. -/
theorem Exits.march (write : P → σ → σ) {n : ℕ} {p : P} (h : Exits inside step n p) (s : σ) :
    Exits (fun ps : P × σ => inside ps.1) (fun ps => (step ps.1, write ps.1 ps.2)) n (p, s) := by
  constructor
  · intro k hk
    simpa only [iterate_fst] using h.1 k hk
  · simpa only [iterate_fst] using h.2

theorem trail_inside {fuel : ℕ} {p q : P} (h : q ∈ trail inside step fuel p) : inside q = true := by
  induction fuel generalizing p with
  | zero => cases h
  | succ fuel ih =>
      by_cases hp : inside p = true
      · simp only [trail, hp, if_true, List.mem_cons] at h
        rcases h with rfl | h
        · exact hp
        · exact ih h
      · simp [trail, hp] at h

theorem exists_trail_eq_map (inside : P → Bool) (step : P → P) (fuel : ℕ) (p : P) :
    ∃ n, trail inside step fuel p = (List.range n).map fun k => step^[k] p := by
  induction fuel generalizing p with
  | zero => exact ⟨0, rfl⟩
  | succ fuel ih =>
      by_cases hp : inside p = true
      · obtain ⟨n, hn⟩ := ih (step p)
        exact ⟨n + 1, by simp [trail, hp, hn, List.range_succ_eq_map, Function.comp_def]⟩
      · exact ⟨0, by simp [trail, hp]⟩

theorem trail_eq_map {n fuel : ℕ} {p : P} (h : Exits inside step n p) (hf : n ≤ fuel) :
    trail inside step fuel p = (List.range n).map fun k => step^[k] p := by
  induction fuel generalizing n p with
  | zero => obtain rfl : n = 0 := by omega
            rfl
  | succ fuel ih =>
      cases n with
      | zero => simp [trail, show inside p = false from h.2]
      | succ n =>
          have hp : inside p = true := h.1 0 (by omega)
          have hrest := ih (n := n) (p := step p) ⟨fun k hk => h.1 (k + 1) (by omega), h.2⟩ (by omega)
          simp [trail, hp, hrest, List.range_succ_eq_map, Function.comp_def]

end Marching

end Loop

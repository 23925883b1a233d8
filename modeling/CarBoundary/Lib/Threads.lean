import Mathlib.Algebra.BigOperators.Group.Finset.Basic
import Mathlib.Algebra.BigOperators.Ring.Finset
import Mathlib.Algebra.Order.BigOperators.Group.Finset

/-!
# Sums over threads

Each of the threads of a finite family is somewhere in its program, and a step moves one of them. A sum over the
threads of what their places weigh changes by the difference at that thread.
-/

namespace Threads

variable {ι α : Type*} [Fintype ι] [DecidableEq ι] {place : ι → α} {i : ι}

def total (weight : α → ℕ) (place : ι → α) : ℕ := ∑ i, weight (place i)

omit [DecidableEq ι] in
theorem le_total (weight : α → ℕ) (place : ι → α) (i : ι) : weight (place i) ≤ total weight place :=
  Finset.single_le_sum (f := fun i => weight (place i)) (fun _ _ => Nat.zero_le _) (Finset.mem_univ i)

omit [DecidableEq ι] in
theorem total_eq_zero {weight : α → ℕ} (h : ∀ i, weight (place i) = 0) : total weight place = 0 :=
  Finset.sum_eq_zero fun i _ => h i

omit [DecidableEq ι] in
theorem total_le_mul {k : ℕ} {weight weight' : α → ℕ} (h : ∀ a, weight a ≤ k * weight' a) :
    total weight place ≤ k * total weight' place := by
  rw [total, total, Finset.mul_sum]
  exact Finset.sum_le_sum fun i _ => h (place i)

omit [DecidableEq ι] in
/-- A weight of one or nothing counts the threads that have it. -/
theorem total_eq_card {weight : α → ℕ} {P : α → Prop} [DecidablePred P] (h : ∀ a, weight a = if P a then 1 else 0)
    (place : ι → α) : total weight place = ({i | P (place i)} : Finset ι).card := by
  rw [total, Finset.card_filter]
  exact Finset.sum_congr rfl fun i _ => h (place i)

omit [Fintype ι] in
theorem sum_update (weight : α → ℕ) (place : ι → α) {t : Finset ι} (hi : i ∈ t) (a : α) :
    ∑ j ∈ t, weight (Function.update place i a j) + weight (place i) = ∑ j ∈ t, weight (place j) + weight a := by
  have hsplit (f : ι → α) : ∑ j ∈ t, weight (f j) = weight (f i) + ∑ j ∈ t.erase i, weight (f j) :=
    (Finset.add_sum_erase _ (fun j => weight (f j)) hi).symm
  have hrest : ∑ j ∈ t.erase i, weight (Function.update place i a j) = ∑ j ∈ t.erase i, weight (place j) := by
    refine Finset.sum_congr rfl fun j hj => ?_
    rw [Function.update_of_ne (Finset.ne_of_mem_erase hj)]
  rw [hsplit (Function.update place i a), hsplit place, hrest, Function.update_self]
  omega

theorem total_update (weight : α → ℕ) (place : ι → α) (i : ι) (a : α) :
    total weight (Function.update place i a) + weight (place i) = total weight place + weight a :=
  sum_update weight place (Finset.mem_univ i) a

/-! ## A lock -/

section

variable {ο : Type*} {lock : Option ο} {holds holds' : ο → Prop} {o o' : ο}

/-- The owner of the lock is the one thread that is at a place where it holds the lock. -/
def Locked (lock : Option ο) (holds : ο → Prop) : Prop := ∀ o, lock = some o ↔ holds o

theorem Locked.unique (h : Locked lock holds) (ho : holds o) (ho' : holds o') : o = o' :=
  Option.some_inj.mp (((h o).mpr ho).symm.trans ((h o').mpr ho'))

theorem Locked.congr (h : Locked lock holds) (hsame : ∀ o, holds' o ↔ holds o) : Locked lock holds' :=
  fun o => (h o).trans (hsame o).symm

theorem Locked.acquire (h : Locked none holds) (hmine : holds' o) (hothers : ∀ o' ≠ o, (holds' o' ↔ holds o')) :
    Locked (some o) holds' := by
  intro o'
  by_cases hsame : o' = o
  · rw [hsame]
    exact iff_of_true rfl hmine
  · refine iff_of_false (fun he => hsame (Option.some_inj.mp he).symm) fun ho' => ?_
    cases (h o').mpr ((hothers o' hsame).mp ho')

theorem Locked.release (h : Locked lock holds) (hbefore : holds o) (hmine : ¬ holds' o)
    (hothers : ∀ o' ≠ o, (holds' o' ↔ holds o')) : Locked none holds' := by
  refine fun o' => iff_of_false (Option.some_ne_none o').symm fun ho' => ?_
  have hsame : o' ≠ o := fun he => hmine (he ▸ ho')
  exact hsame (h.unique ((hothers o' hsame).mp ho') hbefore)

end

end Threads

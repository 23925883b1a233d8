import Mathlib.Data.List.Basic
import Mathlib.Tactic.Push

/-!
# Tags

Requests are tagged with the number of successes before them, modulo some number. Two of them have the same tag only if
there is no success in between, or very many.
-/

namespace Tags

variable {α : Type*} {p : α → Bool} {l : List α} {x : α} {i j k M : ℕ}

/-- The number of successes before place `k`. -/
def before (p : α → Bool) (l : List α) (k : ℕ) : ℕ := (l.take k).countP p

theorem before_mono (h : j ≤ k) : before p l j ≤ before p l k := (List.take_sublist_take_left h).countP_le

theorem before_le (p : α → Bool) (l : List α) (k : ℕ) : before p l k ≤ l.countP p := (List.take_sublist k l).countP_le

theorem before_succ (hx : l[k]? = some x) (hp : p x = true) : before p l (k + 1) = before p l k + 1 := by
  rw [before, before, List.take_add_one, hx, List.countP_append, Option.toList_some, List.countP_singleton, if_pos hp]

theorem lt_of_before_lt (h : before p l j < before p l k) : j < k := by
  by_contra hle
  exact absurd (before_mono (Nat.le_of_not_lt hle)) (Nat.not_le_of_lt h)

/-- As long as there are fewer successes than tags, the tag tells how many there were. -/
theorem before_eq_of_mod_eq (hfew : l.countP p < M) (h : before p l j % M = before p l k % M) :
    before p l j = before p l k := by
  have hj := Nat.lt_of_le_of_lt (before_le p l j) hfew
  have hk := Nat.lt_of_le_of_lt (before_le p l k) hfew
  rwa [Nat.mod_eq_of_lt hj, Nat.mod_eq_of_lt hk] at h

theorem not_between (h : before p l j = before p l k) (hji : j ≤ i) (hik : i < k) (hx : l[i]? = some x) :
    p x = false := by
  by_contra hp
  have hsucc := before_succ hx (by simpa using hp)
  have h1 : before p l j ≤ before p l i := before_mono hji
  have h2 : before p l (i + 1) ≤ before p l k := before_mono hik
  omega

end Tags

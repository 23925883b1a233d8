import Mathlib.Data.List.Forall2

/-!
# Lists that match element by element

What `List.Forall₂` says about parts of the lists, and about matching in two steps.
-/

namespace Matching

variable {α β γ : Type*} {R : α → β → Prop} {S : β → γ → Prop} {l l₀ : List α} {l' : List β} {l'' : List γ}

theorem comp (h : List.Forall₂ R l l') (h' : List.Forall₂ S l' l'') :
    List.Forall₂ (fun a c => ∃ b, R a b ∧ S b c) l l'' := by
  induction h generalizing l'' with
  | nil =>
      cases h'
      exact .nil
  | cons hab _ ih =>
      cases h' with
      | cons hbc htail => exact .cons ⟨_, hab, hbc⟩ (ih htail)

/-- The elements that a part of the list matches. -/
theorem sublist (h : List.Forall₂ R l l') (hsub : List.Sublist l₀ l) :
    ∃ l₀', List.Forall₂ R l₀ l₀' ∧ List.Sublist l₀' l' := by
  induction hsub generalizing l' with
  | slnil => exact ⟨[], .nil, List.nil_sublist _⟩
  | cons a _ ih =>
      cases h with
      | cons _ htail =>
          obtain ⟨l₀', hl₀', hsub'⟩ := ih htail
          exact ⟨l₀', hl₀', hsub'.cons _⟩
  | cons_cons a _ ih =>
      cases h with
      | @cons _ b _ _ hab htail =>
          obtain ⟨l₀', hl₀', hsub'⟩ := ih htail
          exact ⟨b :: l₀', .cons hab hl₀', hsub'.cons_cons b⟩

theorem exists_of_mem {a : α} (h : List.Forall₂ R l l') (ha : a ∈ l) : ∃ b ∈ l', R a b := by
  obtain ⟨l₀', hmatch, hsub⟩ := sublist h (List.singleton_sublist.mpr ha)
  obtain ⟨b, rest, hab, _, rfl⟩ := List.forall₂_cons_left_iff.mp hmatch
  exact ⟨b, hsub.subset List.mem_cons_self, hab⟩

theorem getLast? {b : β} (h : List.Forall₂ R l (l' ++ [b])) : ∃ a, l.getLast? = some a ∧ R a b := by
  have hrev := List.forall₂_reverse_iff.mpr h
  rw [List.reverse_append, List.reverse_singleton, List.singleton_append, List.forall₂_cons_right_iff] at hrev
  obtain ⟨a, init, hab, _, hl⟩ := hrev
  refine ⟨a, ?_, hab⟩
  rw [← List.reverse_reverse l, hl, List.reverse_cons, List.getLast?_concat]

end Matching

import Mathlib.Data.List.Basic

/-!
# A mailbox for the newest value

One side posts values into a slot, and the other takes them out. A value that has not been taken when the next one is
posted is lost, and the slot may be cleared.
-/

namespace Mailbox

inductive Mail (α : Type*) where
  | post (a : α)
  | take (a : α)
  | clear

variable {α : Type*}

/-- `Run slot tr slot'`: the slot goes through `tr` and ends as `slot'`. -/
inductive Run : Option α → List (Mail α) → Option α → Prop where
  | nil (slot : Option α) : Run slot [] slot
  | post {slot slot' : Option α} {a : α} {tr : List (Mail α)} (h : Run (some a) tr slot') :
      Run slot (.post a :: tr) slot'
  | take {slot' : Option α} {a : α} {tr : List (Mail α)} (h : Run none tr slot') : Run (some a) (.take a :: tr) slot'
  | clear {slot slot' : Option α} {tr : List (Mail α)} (h : Run none tr slot') : Run slot (.clear :: tr) slot'

def Mail.posted : Mail α → Option α
  | .post a => some a
  | _ => none

def Mail.taken : Mail α → Option α
  | .take a => some a
  | _ => none

def posts (tr : List (Mail α)) : List α := tr.filterMap Mail.posted

def takes (tr : List (Mail α)) : List α := tr.filterMap Mail.taken

variable {slot slot' slot'' : Option α} {tr tr' : List (Mail α)} {a : α}

@[simp]
theorem posts_nil : posts ([] : List (Mail α)) = [] := rfl

@[simp]
theorem posts_post (a : α) (tr : List (Mail α)) : posts (.post a :: tr) = a :: posts tr := rfl

@[simp]
theorem posts_take (a : α) (tr : List (Mail α)) : posts (.take a :: tr) = posts tr := rfl

@[simp]
theorem posts_clear (tr : List (Mail α)) : posts (.clear :: tr) = posts tr := rfl

@[simp]
theorem takes_nil : takes ([] : List (Mail α)) = [] := rfl

@[simp]
theorem takes_post (a : α) (tr : List (Mail α)) : takes (.post a :: tr) = takes tr := rfl

@[simp]
theorem takes_take (a : α) (tr : List (Mail α)) : takes (.take a :: tr) = a :: takes tr := rfl

@[simp]
theorem takes_clear (tr : List (Mail α)) : takes (.clear :: tr) = takes tr := rfl

theorem posts_append (tr tr' : List (Mail α)) : posts (tr ++ tr') = posts tr ++ posts tr' := List.filterMap_append

theorem takes_append (tr tr' : List (Mail α)) : takes (tr ++ tr') = takes tr ++ takes tr' := List.filterMap_append

theorem takes_eq_nil (h : ∀ mail ∈ tr, ∃ a, mail = .post a) : takes tr = [] := by
  refine List.filterMap_eq_nil_iff.mpr fun mail hmail => ?_
  obtain ⟨a, rfl⟩ := h mail hmail
  rfl

theorem Run.append (h : Run slot tr slot') (h' : Run slot' tr' slot'') : Run slot (tr ++ tr') slot'' := by
  induction h with
  | nil => exact h'
  | post _ ih => exact .post (ih h')
  | take _ ih => exact .take (ih h')
  | clear _ ih => exact .clear (ih h')

/-- No value is taken twice, and none out of order. -/
theorem Run.sublist (h : Run slot tr slot') : List.Sublist (takes tr) (slot.toList ++ posts tr) := by
  induction h with
  | nil slot => exact List.nil_sublist _
  | post _ ih =>
      rw [takes_post, posts_post]
      exact ih.trans (List.sublist_append_right _ _)
  | take _ ih =>
      rw [takes_take, posts_take]
      exact List.Sublist.cons_cons _ ih
  | clear _ ih =>
      rw [takes_clear, posts_clear]
      exact ih.trans (List.sublist_append_right _ _)

/-- What is in the slot is the newest value. -/
theorem Run.newest (h : Run slot tr (some a)) : (slot.toList ++ posts tr).getLast? = some a := by
  generalize hslot : some a = slot' at h
  induction h with
  | nil slot => subst hslot; rfl
  | @post slot slot' b tr _ ih =>
      have hlast := ih hslot
      rw [posts_post]
      rw [Option.toList_some, List.singleton_append] at hlast
      exact List.getLast?_append_of_ne_nil _ (List.cons_ne_nil _ _) ▸ hlast
  | take _ ih =>
      have hlast := ih hslot
      rw [Option.toList_none, List.nil_append] at hlast
      rw [posts_take, List.getLast?_append, hlast, ← hslot, Option.some_or]
  | clear _ ih =>
      have hlast := ih hslot
      rw [Option.toList_none, List.nil_append] at hlast
      rw [posts_clear, List.getLast?_append, hlast, ← hslot, Option.some_or]

/-- Without a clear, an empty slot into which nothing is posted stays as it is. -/
theorem Run.eq_nil (h : Run none tr slot') (hposts : posts tr = []) (hclear : ∀ mail ∈ tr, mail ≠ .clear) :
    tr = [] ∧ slot' = none := by
  cases h with
  | nil => exact ⟨rfl, rfl⟩
  | post _ =>
      rw [posts_post] at hposts
      cases hposts
  | clear _ => exact absurd rfl (hclear _ List.mem_cons_self)

/-- If the slot is never cleared, the newest value waits in it until it is taken, and no other is taken after it. -/
theorem Run.waits (h : Run slot tr slot') (hclear : ∀ mail ∈ tr, mail ≠ .clear)
    (hnewest : (slot.toList ++ posts tr).getLast? = some a) :
    slot' = some a ∨ slot' = none ∧ (takes tr).getLast? = some a := by
  induction h with
  | nil slot =>
      cases slot with
      | none => cases hnewest
      | some b => exact .inl hnewest
  | @post slot slot' b tr _ ih =>
      rw [posts_post, List.getLast?_append_of_ne_nil _ (List.cons_ne_nil _ _)] at hnewest
      exact ih (fun mail hmail => hclear mail (List.mem_cons_of_mem _ hmail)) hnewest
  | @take slot' b tr h ih =>
      have hrest := fun mail hmail => hclear mail (List.mem_cons_of_mem (Mail.take b) hmail)
      rw [takes_take]
      by_cases hposts : posts tr = []
      · obtain ⟨rfl, rfl⟩ := h.eq_nil hposts hrest
        exact .inr ⟨rfl, hnewest⟩
      · rw [posts_take, List.getLast?_append_of_ne_nil _ hposts] at hnewest
        rcases ih hrest hnewest with hslot | ⟨hslot, htaken⟩
        · exact .inl hslot
        · refine .inr ⟨hslot, ?_⟩
          rw [List.getLast?_cons, htaken, Option.getD_some]
  | clear _ _ => exact absurd rfl (hclear _ List.mem_cons_self)

/-- As long as values are only posted, the newest one stays in the slot. -/
theorem Run.untouched (h : Run slot tr slot') (hposts : ∀ mail ∈ tr, ∃ a, mail = .post a) :
    slot' = (slot.toList ++ posts tr).getLast? := by
  induction h with
  | nil slot => cases slot <;> rfl
  | post h ih =>
      rw [ih fun mail hmail => hposts mail (List.mem_cons_of_mem _ hmail), posts_post, Option.toList_some,
        List.singleton_append, List.getLast?_append_of_ne_nil _ (List.cons_ne_nil _ _)]
  | take _ _ =>
      obtain ⟨a, ha⟩ := hposts _ List.mem_cons_self
      cases ha
  | clear _ _ =>
      obtain ⟨a, ha⟩ := hposts _ List.mem_cons_self
      cases ha

end Mailbox

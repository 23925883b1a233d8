import Mathlib.Data.List.Basic
import Mathlib.Data.Option.Basic

/-!
# Singly linked lists in a memory

`next a` is what reading the link of the node `a` gives: nothing if there is no such node to read, and otherwise the
node that comes after it, if one does. `Segment next p l q` says that the links lead from `p` along `l` to `q`. The
two walks are those of an insertion at the end and of a removal, and are cut off after a number of rounds.
-/

namespace Links

variable {P : Type*}

def Segment (next : P → Option (Option P)) : Option P → List P → Option P → Prop
  | p, [], q => p = q
  | p, a :: l, q => p = some a ∧ ∃ r, next a = some r ∧ Segment next r l q

/-- `while (prev->next) prev = prev->next;` -/
def lastNode (next : P → Option (Option P)) : ℕ → P → Option P
  | 0, _ => none
  | fuel + 1, prev => do
      match ← next prev with
      | none => some prev
      | some q => lastNode next fuel q

/-- `while (cur && cur != dev) { last = cur; cur = cur->next; }` -/
def seek [DecidableEq P] (next : P → Option (Option P)) (dev : P) :
    ℕ → Option P → Option P → Option (Option P × Option P)
  | 0, _, _ => none
  | fuel + 1, last, cur =>
      match cur with
      | none => some (last, none)
      | some a => if a = dev then some (last, some a) else do seek next dev fuel (some a) (← next a)

variable {next next' : P → Option (Option P)} {p q : Option P} {a b d x : P} {l l₁ l₂ : List P} {fuel : ℕ}

/-! ## Segments -/

@[simp]
theorem segment_nil : Segment next p [] q ↔ p = q := Iff.rfl

@[simp]
theorem segment_cons : Segment next p (a :: l) q ↔ p = some a ∧ ∃ r, next a = some r ∧ Segment next r l q := Iff.rfl

theorem segment_append : Segment next p (l₁ ++ l₂) q ↔ ∃ r, Segment next p l₁ r ∧ Segment next r l₂ q := by
  induction l₁ generalizing p with
  | nil => simp
  | cons a l ih =>
      simp only [List.cons_append, segment_cons, ih]
      constructor
      · rintro ⟨rfl, r, hr, t, hl, hrest⟩
        exact ⟨t, ⟨rfl, r, hr, hl⟩, hrest⟩
      · rintro ⟨t, ⟨rfl, r, hr, hl⟩, hrest⟩
        exact ⟨rfl, r, hr, t, hl, hrest⟩

/-- Only the links of the nodes along the way matter. -/
theorem Segment.congr (h : Segment next p l q) (hnext : ∀ a ∈ l, next' a = next a) : Segment next' p l q := by
  induction l generalizing p with
  | nil => exact h
  | cons a l ih =>
      obtain ⟨rfl, r, hr, hl⟩ := h
      refine ⟨rfl, r, ?_, ih hl fun b hb => hnext b (List.mem_cons_of_mem a hb)⟩
      rw [hnext a List.mem_cons_self, hr]

theorem Segment.exists_next (h : Segment next p l q) (ha : a ∈ l) : ∃ r, next a = some r := by
  induction l generalizing p with
  | nil => cases ha
  | cons b l ih =>
      obtain ⟨rfl, r, hr, hl⟩ := h
      rcases List.mem_cons.mp ha with rfl | ha
      · exact ⟨r, hr⟩
      · exact ih hl ha

theorem Segment.eq_nil (h : Segment next none l q) : l = [] := by
  cases l with
  | nil => rfl
  | cons a l => cases h.1

/-! ## Insertion at the end -/

theorem lastNode_eq (h : Segment next (some a) l (some b)) (hb : next b = some none) (hf : l.length < fuel) :
    lastNode next fuel a = some b := by
  induction l generalizing a fuel with
  | nil =>
      obtain ⟨fuel, rfl⟩ := Nat.exists_eq_add_of_lt hf
      obtain rfl : a = b := Option.some.inj h
      simp [lastNode, hb]
  | cons c l ih =>
      obtain ⟨hc, r, hr, hl⟩ := h
      obtain rfl : a = c := Option.some.inj hc
      cases fuel with
      | zero => cases hf
      | succ fuel =>
          cases r with
          | none =>
              -- the way to `b` does not end here
              cases l with
              | nil => cases hl
              | cons c l => cases hl.1
          | some r =>
              rw [lastNode, hr]
              exact ih hl (Nat.lt_of_succ_lt_succ hf)

theorem Segment.push (h : Segment next p l (some b)) (hnext : ∀ a ∈ l, next' a = next a) (hb : next' b = some (some x))
    (hx : next' x = some none) : Segment next' p (l ++ [b] ++ [x]) none := by
  rw [List.append_assoc, segment_append]
  exact ⟨some b, h.congr hnext, rfl, some x, hb, rfl, none, hx, rfl⟩

/-! ## Removal -/

theorem seek_eq [DecidableEq P] (h : Segment next p l (some d)) (hd : d ∉ l) (hf : l.length < fuel) (last : Option P) :
    seek next d fuel last p = some (l.getLast?.or last, some d) := by
  induction l generalizing p fuel last with
  | nil =>
      obtain ⟨fuel, rfl⟩ := Nat.exists_eq_add_of_lt hf
      obtain rfl : p = some d := h
      simp [seek]
  | cons a l ih =>
      obtain ⟨rfl, r, hr, hl⟩ := h
      rw [List.mem_cons, not_or] at hd
      cases fuel with
      | zero => cases hf
      | succ fuel =>
          simp only [seek, if_neg (Ne.symm hd.1), hr, Option.bind_eq_bind, Option.bind_some]
          rw [ih hl hd.2 (Nat.lt_of_succ_lt_succ hf), List.getLast?_cons]
          cases l.getLast? <;> rfl

theorem Segment.unlink (h : Segment next p (l₁ ++ [b] ++ d :: l₂) none) (hd : next d = some q) (hb : next' b = some q)
    (h₁ : ∀ a ∈ l₁, next' a = next a) (h₂ : ∀ a ∈ l₂, next' a = next a) : Segment next' p (l₁ ++ [b] ++ l₂) none := by
  rw [List.append_assoc, segment_append] at h ⊢
  obtain ⟨r, hl₁, rfl, t, -, rfl, q', hq', hl₂⟩ := h
  obtain rfl : q = q' := Option.some.inj (hd.symm.trans hq')
  exact ⟨some b, hl₁.congr h₁, rfl, q, hb, hl₂.congr h₂⟩

end Links

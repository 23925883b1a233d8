import Mathlib.Algebra.Order.Ring.Int
import Mathlib.Tactic.Linarith
import Mathlib.Tactic.Push

/-!
# Blocks of a memory

A block is a number of consecutive addresses that one write fills. Blocks that are apart do not disturb each
other, so that after a loop each block holds what was written to it. The blocks of a raster, whose rows are at
least as long as their cells together, are apart.
-/

namespace Block

variable {α ι : Type*} {len : ℕ}

/-- Fills the block at an address. -/
def write (len : ℕ) (base : ℤ) (content : ℕ → α) (mem : ℤ → α) : ℤ → α :=
  fun a => if base ≤ a ∧ a < base + len then content (a - base).toNat else mem a

def Apart (len : ℕ) (a b : ℤ) : Prop := a + len ≤ b ∨ b + len ≤ a

theorem Apart.ne {a b : ℤ} (h : Apart len a b) {k l : ℕ} (hk : k < len) (hl : l < len) : a + k ≠ b + l := by
  rcases h with h | h
  · omega
  · omega

theorem write_apply {base : ℤ} {content : ℕ → α} {k : ℕ} (hk : k < len) (mem : ℤ → α) :
    write len base content mem (base + k) = content k := by
  have hin : base ≤ base + k ∧ base + k < base + len := by omega
  rw [write, if_pos hin, add_sub_cancel_left, Int.toNat_natCast]

theorem write_of_apart {a base : ℤ} (h : Apart len base a) {content : ℕ → α} {k : ℕ} (hk : k < len) (mem : ℤ → α) :
    write len base content mem (a + k) = mem (a + k) := by
  have hout : ¬ (base ≤ a + k ∧ a + k < base + len) := by
    rcases h with h | h
    · omega
    · omega
  rw [write, if_neg hout]

/-! ## Loops -/

variable {base : ι → ℤ} {content : ι → ℕ → α} {l : List ι}

theorem foldl_write_of_apart {a : ℤ} (h : ∀ y ∈ l, Apart len (base y) a) {k : ℕ} (hk : k < len) (mem : ℤ → α) :
    l.foldl (fun mem y => write len (base y) (content y) mem) mem (a + k) = mem (a + k) := by
  induction l generalizing mem with
  | nil => rfl
  | cons y l ih =>
      rw [List.foldl_cons, ih fun y' hy' => h y' (List.mem_cons_of_mem _ hy')]
      exact write_of_apart (h y List.mem_cons_self) hk mem

theorem foldl_write {x : ι} (hx : x ∈ l) (h : ∀ y ∈ l, y = x ∨ Apart len (base y) (base x)) {k : ℕ} (hk : k < len)
    (mem : ℤ → α) :
    l.foldl (fun mem y => write len (base y) (content y) mem) mem (base x + k) = content x k := by
  induction l generalizing mem with
  | nil => cases hx
  | cons y l ih =>
      have hl : ∀ y' ∈ l, y' = x ∨ Apart len (base y') (base x) := fun y' hy' => h y' (List.mem_cons_of_mem _ hy')
      rw [List.foldl_cons]
      by_cases hxl : x ∈ l
      · exact ih hxl hl _
      · obtain rfl : x = y := by
          rcases List.mem_cons.mp hx with hxy | hxl'
          · exact hxy
          · exact absurd hxl' hxl
        have hapart : ∀ y' ∈ l, Apart len (base y') (base x) := fun y' hy' =>
          (hl y' hy').resolve_left fun he => hxl (he ▸ hy')
        rw [foldl_write_of_apart hapart hk, write_apply hk]

/-! ## Loops that write the same blocks -/

theorem foldl_write_of_outside {a : ℤ} (h : ∀ y ∈ l, ¬ (base y ≤ a ∧ a < base y + len)) (mem : ℤ → α) :
    l.foldl (fun mem y => write len (base y) (content y) mem) mem a = mem a := by
  induction l generalizing mem with
  | nil => rfl
  | cons y l ih =>
      rw [List.foldl_cons, ih fun y' hy' => h y' (List.mem_cons_of_mem _ hy'), write, if_neg (h y List.mem_cons_self)]

/-- What was in the blocks before does not matter, whether they are apart or not. -/
theorem foldl_write_congr {mem mem' : ℤ → α}
    (h : ∀ a, (∃ y ∈ l, base y ≤ a ∧ a < base y + len) ∨ mem a = mem' a) :
    l.foldl (fun mem y => write len (base y) (content y) mem) mem =
      l.foldl (fun mem y => write len (base y) (content y) mem) mem' := by
  induction l generalizing mem mem' with
  | nil =>
      funext a
      rcases h a with ⟨y, hy, _⟩ | heq
      · cases hy
      · exact heq
  | cons y l ih =>
      rw [List.foldl_cons, List.foldl_cons]
      refine ih fun a => ?_
      by_cases hin : base y ≤ a ∧ a < base y + len
      · exact .inr (by rw [write, write, if_pos hin, if_pos hin])
      · rcases h a with ⟨y', hy', hcover⟩ | heq
        · rcases List.mem_cons.mp hy' with rfl | hl
          · exact absurd hcover hin
          · exact .inl ⟨y', hl, hcover⟩
        · exact .inr (by rw [write, write, if_neg hin, if_neg hin, heq])

theorem foldl_write_foldl_write (content' : ι → ℕ → α) (mem : ℤ → α) :
    l.foldl (fun mem y => write len (base y) (content y) mem)
        (l.foldl (fun mem y => write len (base y) (content' y) mem) mem) =
      l.foldl (fun mem y => write len (base y) (content y) mem) mem := by
  refine foldl_write_congr fun a => ?_
  by_cases hcover : ∃ y ∈ l, base y ≤ a ∧ a < base y + len
  · exact .inl hcover
  · exact .inr (foldl_write_of_outside (fun y hy hin => hcover ⟨y, hy, hin⟩) mem)

/-! ## Rasters -/

theorem raster_apart {pitch width : ℕ} (hpitch : len * width ≤ pitch) {x y x' y' : ℤ}
    (hx : 0 ≤ x ∧ x < width) (hx' : 0 ≤ x' ∧ x' < width) (hne : ¬ (x = x' ∧ y = y')) :
    Apart len (pitch * y + len * x) (pitch * y' + len * x') := by
  have hrow : (len : ℤ) * width ≤ pitch := by exact_mod_cast hpitch
  have hlen : (0 : ℤ) ≤ len := Int.natCast_nonneg len
  -- a cell ends where the next one of its row begins
  have hcell {u v : ℤ} (h : u < v) : (len : ℤ) * u + len ≤ len * v := by
    have := mul_le_mul_of_nonneg_left (Int.add_one_le_of_lt h) hlen
    linarith
  -- a row ends before the next one begins
  have hnext {u v r q : ℤ} (hr : r < q) (hu : u < width) (hv : 0 ≤ v) :
      (pitch : ℤ) * r + len * u + len ≤ pitch * q + len * v := by
    have h1 := hcell hu
    have h2 := mul_le_mul_of_nonneg_left (Int.add_one_le_of_lt hr) (Int.natCast_nonneg pitch)
    have h3 := mul_nonneg hlen hv
    linarith
  rcases lt_trichotomy y y' with hy | rfl | hy
  · exact Or.inl (hnext hy hx.2 hx'.1)
  · rcases lt_trichotomy x x' with hlt | rfl | hlt
    · exact Or.inl (by linarith [hcell hlt])
    · exact absurd ⟨rfl, rfl⟩ hne
    · exact Or.inr (by linarith [hcell hlt])
  · exact Or.inr (hnext hy hx'.2 hx.1)

end Block

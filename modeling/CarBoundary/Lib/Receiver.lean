import Mathlib.Data.List.Chain
import Mathlib.Data.Nat.ModEq
import Mathlib.Logic.Function.Basic

/-!
# A receiver of numbered items that resynchronises

A sender numbers its items. Each frame is made of `period` of them in a row, and the receiver keeps the newest
item of each place in a frame. It expects the item after the last one it took. Up to `patience` missing items
are taken to be lost; after a longer gap the receiver drops everything until a frame begins. When it comes to
the end of a frame, or finds that it must have missed that end, it reports the frame and how many of its items
have come in.
-/

namespace Receiver

structure State where
  /-- The item that is expected, unless the receiver is out of step. -/
  next : Option ℕ
  /-- How many items of the current frame have been taken. -/
  got : ℕ
  /-- The item that is held in each place. -/
  held : ℕ → Option ℕ

/-- Out of step, with nothing held. -/
def State.lost : State := ⟨none, 0, fun _ => none⟩

structure Report where
  frame : ℕ
  items : ℕ
deriving DecidableEq

variable (period patience : ℕ)

/-- The item is taken, as the one after `got` others of its frame. -/
def take (s : State) (got n : ℕ) : State where
  next := some (n + 1)
  got := if (n + 1) % period = 0 then 0 else got + 1
  held := Function.update s.held (n % period) (some n)

/-- One item: the new state, and what is reported. -/
def receive (s : State) (n : ℕ) : State × Option Report :=
  match s.next with
  | none => if n % period = 0 then (take period s 0 n, none) else (s, none)
  | some m =>
      if n ≤ m + patience then
        if m / period < n / period then (take period s 0 n, some ⟨m / period, s.got⟩)
        else (take period s s.got n, if (n + 1) % period = 0 then some ⟨m / period, s.got + 1⟩ else none)
      else ({ s with next := none }, none)

def run (s : State) (ns : List ℕ) : State := ns.foldl (fun s n => (receive period patience s n).1) s

/-- What is reported, in its order. -/
def reports (s : State) : List ℕ → List Report
  | [] => []
  | n :: ns => (receive period patience s n).2.toList ++ reports (receive period patience s n).1 ns

variable {period patience} {s : State} {n m : ℕ} {ns : List ℕ}

/-! ## One item -/

@[simp]
theorem take_next (s : State) (got n : ℕ) : (take period s got n).next = some (n + 1) := rfl

theorem take_held_self (s : State) (got n : ℕ) : (take period s got n).held (n % period) = some n :=
  Function.update_self _ _ _

theorem take_held_of_ne {r : ℕ} (h : r ≠ n % period) (s : State) (got : ℕ) :
    (take period s got n).held r = s.held r :=
  Function.update_of_ne h _ _

theorem receive_none (hs : s.next = none) :
    receive period patience s n = if n % period = 0 then (take period s 0 n, none) else (s, none) := by
  simp only [receive, hs]

theorem receive_same (hs : s.next = some m) (h : n ≤ m + patience) (hq : n / period = m / period) :
    receive period patience s n =
      (take period s s.got n, if (n + 1) % period = 0 then some ⟨m / period, s.got + 1⟩ else none) := by
  simp only [receive, hs, h, if_true, hq, Nat.lt_irrefl, if_false]

theorem receive_cross (hs : s.next = some m) (h : n ≤ m + patience) (hq : m / period < n / period) :
    receive period patience s n = (take period s 0 n, some ⟨m / period, s.got⟩) := by
  simp only [receive, hs, h, hq, if_true]

theorem receive_gap (hs : s.next = some m) (h : m + patience < n) :
    receive period patience s n = ({ s with next := none }, none) := by
  simp only [receive, hs, Nat.not_le.mpr h, if_false]

/-- What an item can do: it is taken, or dropped with the receiver out of step. -/
theorem receive_cases (period patience : ℕ) (s : State) (n : ℕ) :
    (∃ got, (receive period patience s n).1 = take period s got n) ∨
      (receive period patience s n).1 = { s with next := none } ∧ (receive period patience s n).2 = none := by
  cases hs : s.next with
  | none =>
      rw [receive_none hs]
      split
      · exact Or.inl ⟨0, rfl⟩
      · exact Or.inr ⟨by cases s; cases hs; rfl, rfl⟩
  | some m =>
      by_cases h : n ≤ m + patience
      · simp only [receive, hs, h, if_true]
        split
        · exact Or.inl ⟨0, rfl⟩
        · exact Or.inl ⟨s.got, rfl⟩
      · rw [receive_gap hs (Nat.lt_of_not_le h)]; exact Or.inr ⟨rfl, rfl⟩

theorem succ_div (period n : ℕ) :
    (n + 1) / period = if (n + 1) % period = 0 then n / period + 1 else n / period := by
  simp only [Nat.succ_div, Nat.dvd_iff_mod_eq_zero]
  split
  · rfl
  · rfl

/-- A report is about the frame that was expected, and that frame has come to its end. -/
theorem receive_report {rep : Report} (hn : ∀ m, s.next = some m → m ≤ n)
    (h : (receive period patience s n).2 = some rep) :
    ∃ m, s.next = some m ∧ rep.frame = m / period ∧ rep.frame < (n + 1) / period := by
  cases hs : s.next with
  | none =>
      rw [receive_none hs] at h
      split at h
      · cases h
      · cases h
  | some m =>
      refine ⟨m, rfl, ?_⟩
      have hmono : m / period ≤ n / period := Nat.div_le_div_right (hn m hs)
      by_cases hle : n ≤ m + patience
      · rcases hmono.eq_or_lt with hq | hq
        · rw [receive_same hs hle hq.symm] at h
          simp only at h
          split at h
          · next hend =>
              cases h
              exact ⟨rfl, by rw [succ_div, if_pos hend, hq]; exact Nat.lt_succ_self _⟩
          · cases h
        · rw [receive_cross hs hle hq] at h
          cases h
          exact ⟨rfl, hq.trans_le (Nat.div_le_div_right (Nat.le_succ n))⟩
      · rw [receive_gap hs (Nat.lt_of_not_le hle)] at h; cases h

/-! ## Runs -/

@[simp]
theorem run_nil (s : State) : run period patience s [] = s := rfl

theorem run_cons (s : State) (n : ℕ) (ns : List ℕ) :
    run period patience s (n :: ns) = run period patience (receive period patience s n).1 ns := rfl

theorem run_append (s : State) (ns ms : List ℕ) :
    run period patience s (ns ++ ms) = run period patience (run period patience s ns) ms :=
  List.foldl_append

theorem reports_append (s : State) (ns ms : List ℕ) :
    reports period patience s (ns ++ ms) =
      reports period patience s ns ++ reports period patience (run period patience s ns) ms := by
  induction ns generalizing s with
  | nil => rfl
  | cons n ns ih => rw [List.cons_append, reports, reports, run_cons, ih, List.append_assoc]

/-- Whatever is held came in, and is held in its own place. -/
theorem held_run {r : ℕ} (h : (run period patience s ns).held r = some n) :
    s.held r = some n ∨ n ∈ ns ∧ n % period = r := by
  induction ns generalizing s with
  | nil => exact Or.inl h
  | cons n' ns ih =>
      rw [run_cons] at h
      rcases ih h with h | ⟨hmem, hr⟩
      · rcases receive_cases period patience s n' with ⟨got, htake⟩ | ⟨hdrop, _⟩
        · rw [htake] at h
          by_cases hr : r = n' % period
          · subst hr
            rw [take_held_self, Option.some.injEq] at h
            exact Or.inr ⟨h ▸ List.mem_cons_self, h ▸ rfl⟩
          · exact Or.inl (by rwa [take_held_of_ne hr] at h)
        · rw [hdrop] at h; exact Or.inl h
      · exact Or.inr ⟨List.mem_cons_of_mem _ hmem, hr⟩

/-! ## The order of the reports -/

/-- Whatever is expected is not ahead of the items that are still to come. -/
def Behind (s : State) (ns : List ℕ) : Prop := ∀ m, s.next = some m → ∀ n ∈ ns, m ≤ n

theorem expects_of_receive (h : (receive period patience s n).1.next = some m) : m = n + 1 := by
  rcases receive_cases period patience s n with ⟨got, htake⟩ | ⟨hdrop, _⟩
  · rw [htake] at h; cases h; rfl
  · rw [hdrop] at h; cases h

theorem expects_le_of_run {b : ℕ} (hb : ∀ x ∈ ns, x < b) (h : (run period patience State.lost ns).next = some m) :
    m ≤ b := by
  cases ns using List.reverseRecOn with
  | nil => cases h
  | append_singleton ns n =>
      rw [run_append] at h
      rw [expects_of_receive h]
      exact hb n (List.mem_append_right _ (List.mem_singleton.mpr rfl))

theorem behind_receive (h : ∀ x ∈ ns, n < x) : Behind (receive period patience s n).1 ns := by
  intro m hm x hx
  rw [expects_of_receive hm]
  exact h x hx

theorem le_of_mem_reports {b : ℕ} {rep : Report} (hb : ∀ m, s.next = some m → b ≤ m)
    (hs : Behind s ns) (hns : ns.Pairwise (· < ·)) (hle : ∀ n ∈ ns, b ≤ n)
    (hrep : rep ∈ reports period patience s ns) : b / period ≤ rep.frame := by
  induction ns generalizing s b with
  | nil => cases hrep
  | cons n ns ih =>
      obtain ⟨hlt, htail⟩ := List.pairwise_cons.mp hns
      rw [reports, List.mem_append, Option.mem_toList] at hrep
      rcases hrep with hrep | hrep
      · obtain ⟨m, hm, hframe, _⟩ := receive_report (fun m hm => hs m hm n List.mem_cons_self) hrep
        rw [hframe]
        exact Nat.div_le_div_right (hb m hm)
      · have hbn : b ≤ n + 1 := (hle n List.mem_cons_self).trans (Nat.le_succ n)
        refine (Nat.div_le_div_right hbn).trans (ih ?_ (behind_receive hlt) htail hlt hrep)
        intro m hm
        exact (expects_of_receive hm).ge

/-- Frames are reported in their order, and none is reported twice. -/
theorem reports_increasing (hs : Behind s ns) (hns : ns.Pairwise (· < ·)) :
    (reports period patience s ns).Pairwise (fun a b => a.frame < b.frame) := by
  induction ns generalizing s with
  | nil => exact List.Pairwise.nil
  | cons n ns ih =>
      obtain ⟨hlt, htail⟩ := List.pairwise_cons.mp hns
      rw [reports, List.pairwise_append]
      refine ⟨?_, ih (behind_receive hlt) htail, ?_⟩
      · cases (receive period patience s n).2 with
        | none => exact List.Pairwise.nil
        | some rep => exact List.pairwise_singleton _ _
      · intro a ha b hb
        obtain ⟨_, _, _, hreport⟩ :=
          receive_report (fun m hm => hs m hm n List.mem_cons_self) (Option.mem_toList.mp ha)
        refine hreport.trans_le (le_of_mem_reports ?_ (behind_receive hlt) htail hlt hb)
        intro m hm
        exact (expects_of_receive hm).ge

/-! ## The number of items -/

/-- The number of items that belong to a frame. -/
def itemsOf (period : ℕ) (ns : List ℕ) (frame : ℕ) : ℕ := ns.countP fun n => n / period == frame

theorem itemsOf_snoc (ns : List ℕ) (n frame : ℕ) :
    itemsOf period (ns ++ [n]) frame = itemsOf period ns frame + if n / period = frame then 1 else 0 := by
  simp [itemsOf, List.countP_append, List.countP_cons]

theorem itemsOf_eq_zero {frame : ℕ} (h : ∀ x ∈ ns, x / period < frame) : itemsOf period ns frame = 0 := by
  rw [itemsOf, List.countP_eq_zero]
  intro x hx
  simpa using (h x hx).ne

/-- The receiver knows how many of the items that came in belong to the current frame. -/
def Counted (period : ℕ) (s : State) (ns : List ℕ) : Prop :=
  ∀ m, s.next = some m → (∀ x ∈ ns, x < m) ∧ s.got = itemsOf period ns (m / period)

theorem Counted.take {got : ℕ} (hlt : ∀ x ∈ ns, x < n) (hgot : got = itemsOf period ns (n / period)) :
    Counted period (take period s got n) (ns ++ [n]) := by
  intro m hm
  cases hm
  have hmem : ∀ x ∈ ns ++ [n], x < n + 1 := by
    intro x hx
    rcases List.mem_append.mp hx with hx | hx
    · exact (hlt x hx).trans (Nat.lt_succ_self n)
    · rw [List.mem_singleton.mp hx]; exact Nat.lt_succ_self n
  refine ⟨hmem, ?_⟩
  have hdiv := succ_div period n
  by_cases hend : (n + 1) % period = 0
  · simp only [Receiver.take, hend, if_true] at hdiv ⊢
    refine (itemsOf_eq_zero fun x hx => ?_).symm
    rw [hdiv]
    exact Nat.lt_succ_of_le (Nat.div_le_div_right (Nat.lt_succ_iff.mp (hmem x hx)))
  · simp only [Receiver.take, hend, if_false] at hdiv ⊢
    rw [hdiv, itemsOf_snoc, if_pos rfl, hgot]

/-- The first item of a frame comes before every other one of the frame. -/
theorem itemsOf_first (hlt : ∀ x ∈ ns, x < n) (h0 : n % period = 0) : itemsOf period ns (n / period) = 0 := by
  refine itemsOf_eq_zero fun x hx => ?_
  exact Nat.div_lt_div_of_lt_of_dvd (Nat.dvd_of_mod_eq_zero h0) (hlt x hx)

theorem Counted.receive (hs : Counted period s ns) (hlt : ∀ x ∈ ns, x < n)
    (hn : ∀ m, s.next = some m → m ≤ n) : Counted period (receive period patience s n).1 (ns ++ [n]) := by
  cases hnext : s.next with
  | none =>
      rw [receive_none hnext]
      split
      · next h0 => exact Counted.take hlt (itemsOf_first hlt h0).symm
      · intro m hm; rw [hnext] at hm; cases hm
  | some m =>
      have hmono : m / period ≤ n / period := Nat.div_le_div_right (hn m hnext)
      by_cases hle : n ≤ m + patience
      · rcases hmono.eq_or_lt with hq | hq
        · rw [receive_same hnext hle hq.symm]
          exact Counted.take hlt (hq ▸ (hs m hnext).2)
        · rw [receive_cross hnext hle hq]
          refine Counted.take hlt (itemsOf_eq_zero fun x hx => ?_).symm
          exact (Nat.div_le_div_right ((hs m hnext).1 x hx).le).trans_lt hq
      · rw [receive_gap hnext (Nat.lt_of_not_le hle)]
        intro m hm; cases hm

/-- A report gives the number of the items of its frame that came in. -/
theorem Counted.report (hs : Counted period s ns) (hn : ∀ m, s.next = some m → m ≤ n) {rep : Report}
    (h : (Receiver.receive period patience s n).2 = some rep) :
    rep.items = itemsOf period (ns ++ [n]) rep.frame := by
  cases hnext : s.next with
  | none =>
      rw [receive_none hnext] at h
      split at h
      · cases h
      · cases h
  | some m =>
      have hmono : m / period ≤ n / period := Nat.div_le_div_right (hn m hnext)
      by_cases hle : n ≤ m + patience
      · rcases hmono.eq_or_lt with hq | hq
        · rw [receive_same hnext hle hq.symm] at h
          simp only at h
          split at h
          · cases h
            rw [itemsOf_snoc, if_pos hq.symm, (hs m hnext).2]
          · cases h
        · rw [receive_cross hnext hle hq] at h
          cases h
          rw [itemsOf_snoc, if_neg hq.ne', (hs m hnext).2, add_zero]
      · rw [receive_gap hnext (Nat.lt_of_not_le hle)] at h; cases h

theorem counted_lost : Counted period State.lost [] := fun _ hm => nomatch hm

/-- After any items in their order, the receiver knows how many of them belong to the current frame. -/
theorem counted_run (hns : ns.Pairwise (· < ·)) :
    Counted period (run period patience State.lost ns) ns := by
  induction ns using List.reverseRecOn with
  | nil => exact counted_lost
  | append_singleton ns n ih =>
      obtain ⟨hinit, -, hlast⟩ := List.pairwise_append.mp hns
      have hlt : ∀ x ∈ ns, x < n := fun x hx => hlast x hx n (List.mem_singleton.mpr rfl)
      rw [run_append]
      exact (ih hinit).receive hlt fun m hm => expects_le_of_run hlt hm

theorem frame_lt_of_mem_reports {rep : Report} (hs : Behind s ns) (hns : ns.Pairwise (· < ·))
    (hrep : rep ∈ reports period patience s ns) : ∃ n ∈ ns, rep.frame < (n + 1) / period := by
  induction ns generalizing s with
  | nil => cases hrep
  | cons n ns ih =>
      obtain ⟨hlt, htail⟩ := List.pairwise_cons.mp hns
      rw [reports, List.mem_append, Option.mem_toList] at hrep
      rcases hrep with hrep | hrep
      · obtain ⟨_, _, _, h⟩ := receive_report (fun m hm => hs m hm n List.mem_cons_self) hrep
        exact ⟨n, List.mem_cons_self, h⟩
      · obtain ⟨n', hn', h⟩ := ih (behind_receive hlt) htail hrep
        exact ⟨n', List.mem_cons_of_mem _ hn', h⟩

theorem behind_lost (ns : List ℕ) : Behind State.lost ns := fun _ hm => nomatch hm

/-- Every report gives the number of the items of its frame that come in, early or late. -/
theorem items_of_mem_reports {rep : Report} (hns : ns.Pairwise (· < ·))
    (hrep : rep ∈ reports period patience State.lost ns) : rep.items = itemsOf period ns rep.frame := by
  induction ns using List.reverseRecOn with
  | nil => cases hrep
  | append_singleton ns n ih =>
      obtain ⟨hinit, -, hlast⟩ := List.pairwise_append.mp hns
      have hlt : ∀ x ∈ ns, x < n := fun x hx => hlast x hx n (List.mem_singleton.mpr rfl)
      rw [reports_append, List.mem_append] at hrep
      rcases hrep with hrep | hrep
      · obtain ⟨x, hx, hframe⟩ := frame_lt_of_mem_reports (behind_lost ns) hinit hrep
        have hlater : rep.frame < n / period := hframe.trans_le (Nat.div_le_div_right (hlt x hx))
        rw [itemsOf_snoc, if_neg hlater.ne', add_zero]
        exact ih hinit hrep
      · rw [reports, reports, List.append_nil, Option.mem_toList] at hrep
        exact (counted_run hinit).report (fun m hm => expects_le_of_run hlt hm) hrep

/-! ## No long gaps -/

/-- The item that follows is not far off. -/
def Near (patience : ℕ) (m n : ℕ) : Prop := m < n ∧ n ≤ m + 1 + patience

theorem succ_div_le (hp : patience < period) (h : n ≤ m + patience) : (n + 1) / period ≤ m / period + 1 := by
  have hpos : 0 < period := by omega
  calc (n + 1) / period ≤ (m + period) / period := Nat.div_le_div_right (by omega)
    _ = m / period + 1 := Nat.add_div_right m hpos

/-- With a near item, a frame is reported when its end has been passed. -/
theorem receive_near (hp : patience < period) (hs : s.next = some m) (hmn : m ≤ n) (hle : n ≤ m + patience) :
    (receive period patience s n).1.next = some (n + 1) ∧
      (receive period patience s n).2.map Report.frame =
        if m / period < (n + 1) / period then some (m / period) else none := by
  have hpos : 0 < period := by omega
  have hone := succ_div_le hp hle
  have hmono : m / period ≤ n / period := Nat.div_le_div_right hmn
  have hstep : n / period ≤ (n + 1) / period := Nat.div_le_div_right (Nat.le_succ n)
  rcases hmono.eq_or_lt with hq | hq
  · rw [receive_same hs hle hq.symm, succ_div, ← hq]
    refine ⟨rfl, ?_⟩
    by_cases hend : (n + 1) % period = 0
    · simp [hend]
    · simp [hend]
  · rw [receive_cross hs hle hq, if_pos (hq.trans_le hstep)]
    exact ⟨rfl, rfl⟩

/-- Without long gaps the receiver stays in step, and reports every frame whose end it comes to, once and in order. -/
theorem reports_of_near (hp : patience < period) (hs : s.next = some (m + 1))
    (hns : (m :: ns).IsChain (Near patience)) :
    (run period patience s ns).next = some ((m :: ns).getLast (List.cons_ne_nil _ _) + 1) ∧
      (reports period patience s ns).map Report.frame =
        List.range' ((m + 1) / period)
          (((m :: ns).getLast (List.cons_ne_nil _ _) + 1) / period - (m + 1) / period) := by
  induction ns generalizing s m with
  | nil => simpa [reports] using hs
  | cons n ns ih =>
      obtain ⟨⟨hlt, hle⟩, htail⟩ := List.isChain_cons_cons.mp hns
      obtain ⟨hnext, hreport⟩ := receive_near hp hs hlt hle
      obtain ⟨hrun, hrep⟩ := ih hnext htail
      refine ⟨by rw [run_cons, hrun, List.getLast_cons_cons], ?_⟩
      rw [reports, List.map_append, hrep, List.getLast_cons_cons, ← Option.toList_map, hreport]
      have hone := succ_div_le hp hle
      have hmono : (m + 1) / period ≤ (n + 1) / period := Nat.div_le_div_right (by omega)
      have hend : (n + 1) / period ≤ ((n :: ns).getLast (List.cons_ne_nil _ _) + 1) / period := by
        refine Nat.div_le_div_right (Nat.succ_le_succ ?_)
        have hsorted : (n :: ns).Pairwise (· < ·) :=
          List.isChain_iff_pairwise.mp (htail.imp fun _ _ h => h.1)
        rcases List.mem_cons.mp (List.getLast_mem (List.cons_ne_nil n ns)) with h | h
        · exact h.ge
        · exact (List.rel_of_pairwise_cons hsorted h).le
      split
      · next hreport =>
          rw [Option.toList_some, List.singleton_append, show (n + 1) / period = (m + 1) / period + 1 by omega]
          rw [show ((n :: ns).getLast (List.cons_ne_nil _ _) + 1) / period - (m + 1) / period =
            ((n :: ns).getLast (List.cons_ne_nil _ _) + 1) / period - ((m + 1) / period + 1) + 1 by omega]
          rfl
      · next hreport =>
          rw [Option.toList_none, List.nil_append, show (n + 1) / period = (m + 1) / period by omega]

/-- The newest of the items that belong to a place. -/
def newest (period : ℕ) (ns : List ℕ) (r : ℕ) : Option ℕ := (ns.filter fun n => n % period == r).getLast?

theorem newest_cons (n : ℕ) (ns : List ℕ) (r : ℕ) :
    newest period (n :: ns) r = (newest period ns r).or (if n % period = r then some n else none) := by
  simp only [newest, List.filter_cons, beq_iff_eq]
  split
  · rw [List.getLast?_cons]
    cases (ns.filter fun n => n % period == r).getLast? with
    | none => rfl
    | some _ => rfl
  · rw [Option.or_none]

/-- Without long gaps every item is taken, so that each place holds its newest item. -/
theorem held_of_near (hp : patience < period) (hs : s.next = some (m + 1)) (hns : (m :: ns).IsChain (Near patience))
    (r : ℕ) :
    (run period patience s ns).held r = (newest period ns r).or (s.held r) := by
  induction ns generalizing s m with
  | nil => rfl
  | cons n ns ih =>
      obtain ⟨⟨hlt, hle⟩, htail⟩ := List.isChain_cons_cons.mp hns
      obtain ⟨hnext, _⟩ := receive_near hp hs hlt hle
      rw [run_cons, ih hnext htail, newest_cons, Option.or_assoc]
      rcases receive_cases period patience s n with ⟨got, htake⟩ | ⟨hdrop, _⟩
      · rw [htake]
        split
        · next hr => rw [← hr, take_held_self, Option.some_or]
        · next hr => rw [take_held_of_ne (Ne.symm hr), Option.none_or]
      · rw [hdrop] at hnext; cases hnext

/-- The receiver comes into step with an item that begins a frame, and stays there. -/
theorem run_lost_near (hone : 1 < period) (hp : patience < period) (h0 : n % period = 0)
    (hns : (n :: ns).IsChain (Near patience)) :
    (run period patience State.lost (n :: ns)).next = some ((n :: ns).getLast (List.cons_ne_nil _ _) + 1) ∧
      (reports period patience State.lost (n :: ns)).map Report.frame =
        List.range' (n / period) (((n :: ns).getLast (List.cons_ne_nil _ _) + 1) / period - n / period) ∧
      ∀ r, (run period patience State.lost (n :: ns)).held r = newest period (n :: ns) r := by
  have hbegin : receive period patience State.lost n = (take period State.lost 0 n, none) := by
    rw [receive_none rfl, if_pos h0]
  have hnext : (take period State.lost 0 n).next = some (n + 1) := rfl
  have hfirst : (n + 1) / period = n / period := by
    rw [succ_div, if_neg]
    rw [Nat.add_mod, h0, zero_add, Nat.mod_mod, Nat.mod_eq_of_lt hone]
    exact one_ne_zero
  obtain ⟨hrun, hreports⟩ := reports_of_near hp hnext hns
  rw [hfirst] at hreports
  rw [run_cons, reports, hbegin, Option.toList_none, List.nil_append]
  refine ⟨hrun, hreports, fun r => ?_⟩
  rw [held_of_near hp hnext hns, newest_cons]
  congr 1
  split
  · next hr => rw [← hr, take_held_self]
  · next hr => rw [take_held_of_ne (Ne.symm hr)]; rfl

/-! ## A whole frame -/

/-- The receiver is ready for an item that begins a frame: out of step, or expecting an item not long before. -/
def Ready (patience : ℕ) (s : State) (n : ℕ) : Prop :=
  ∀ m, s.next = some m → m ≤ n ∧ n ≤ m + patience ∧ (m = n → s.got = 0)

theorem receive_begin (hp : 0 < period) {q : ℕ} (hs : Ready patience s (q * period)) :
    (receive period patience s (q * period)).1 = take period s 0 (q * period) := by
  cases hnext : s.next with
  | none => rw [receive_none hnext, if_pos (Nat.mul_mod_left q period)]
  | some m =>
      obtain ⟨hle, hnear, hgot⟩ := hs m hnext
      have hq : q * period / period = q := Nat.mul_div_cancel q hp
      by_cases hm : m = q * period
      · rw [receive_same hnext hnear (by rw [hm]), hgot hm]
      · have hlt : m / period < q * period / period := by
          rw [hq, Nat.div_lt_iff_lt_mul hp]
          omega
        rw [receive_cross hnext hnear hlt]

theorem mul_add_div (hp : 0 < period) {q i : ℕ} (hi : i < period) : (q * period + i) / period = q := by
  rw [Nat.add_comm, Nat.add_mul_div_right _ _ hp, Nat.div_eq_of_lt hi, Nat.zero_add]

/-- The item that is expected, in the midst of a frame. -/
theorem receive_inner (patience : ℕ) {q i : ℕ} (hi : i < period) (hs : s.next = some (q * period + i)) :
    receive period patience s (q * period + i) =
      (take period s s.got (q * period + i), if i + 1 = period then some ⟨q, s.got + 1⟩ else none) := by
  have hp : 0 < period := by omega
  rw [receive_same hs (Nat.le_add_right _ _) rfl, mul_add_div hp hi]
  by_cases hend : i + 1 = period
  · rw [if_pos hend, if_pos]
    rw [Nat.add_assoc, hend, ← Nat.succ_mul, Nat.mul_mod_left]
  · rw [if_neg hend, if_neg]
    rw [Nat.add_assoc, Nat.mul_add_mod_of_lt (by omega)]
    exact Nat.succ_ne_zero i

/-- Receiving the first items of a frame, one after the other. -/
theorem run_begin {q : ℕ} (hs : Ready patience s (q * period)) {j : ℕ} (hj : j + 1 < period) :
    (run period patience s (List.range' (q * period) (j + 1))).next = some (q * period + (j + 1)) ∧
      (run period patience s (List.range' (q * period) (j + 1))).got = j + 1 ∧
      ∀ r < j + 1, (run period patience s (List.range' (q * period) (j + 1))).held r = some (q * period + r) := by
  have hp : 0 < period := by omega
  induction j with
  | zero =>
      have hmod : (q * period + 1) % period = 1 := Nat.mul_add_mod_of_lt hj
      rw [zero_add, List.range'_one, run_cons, receive_begin hp hs, run_nil]
      refine ⟨rfl, by simp [take, hmod], ?_⟩
      intro r hr
      obtain rfl : r = 0 := by omega
      simp [take]
  | succ j ih =>
      obtain ⟨hnext, hgot, hheld⟩ := ih (by omega)
      have hmod : (q * period + (j + 1) + 1) % period = j + 1 + 1 := Nat.mul_add_mod_of_lt hj
      have hplace : (q * period + (j + 1)) % period = j + 1 := Nat.mul_add_mod_of_lt (by omega)
      rw [List.range'_1_concat, run_append, run_cons, receive_inner patience (by omega) hnext, run_nil]
      refine ⟨rfl, by simp [take, hmod, hgot], ?_⟩
      intro r hr
      by_cases hlast : r = j + 1
      · simp [take, hplace, hlast]
      · rw [take_held_of_ne (by rwa [hplace])]
        exact hheld r (by omega)

theorem reports_begin {q : ℕ} (hs : s.next = none ∨ s.next = some (q * period) ∧ s.got = 0) {j : ℕ} (hj : j < period) :
    reports period patience s (List.range' (q * period) j) = [] := by
  have hready : Ready patience s (q * period) := by
    rintro m hm
    rcases hs with hs | ⟨hs, hgot⟩
    · rw [hs] at hm; cases hm
    · rw [hs] at hm; cases hm
      exact ⟨le_rfl, Nat.le_add_right _ _, fun _ => hgot⟩
  induction j with
  | zero => rfl
  | succ j ih =>
      rw [List.range'_1_concat, reports_append, ih (by omega), List.nil_append, reports, reports, List.append_nil]
      cases j with
      | zero =>
          rcases hs with hs | ⟨hs, _⟩
          · rw [List.range'_zero, run_nil, Nat.add_zero, receive_none hs, if_pos (Nat.mul_mod_left q period)]
            rfl
          · have hinner := receive_inner patience (i := 0) (by omega) hs
            rw [List.range'_zero, run_nil, hinner, if_neg (by omega)]
            rfl
      | succ j =>
          obtain ⟨hnext, _, _⟩ := run_begin hready (j := j) (by omega)
          rw [receive_inner patience (by omega) hnext, if_neg (by omega)]
          rfl

/-- The items that are left of a frame. -/
theorem run_rest {q i j : ℕ} (hij : i + (j + 1) = period) (hs : s.next = some (q * period + i)) :
    (run period patience s (List.range' (q * period + i) (j + 1))).next = some ((q + 1) * period) ∧
      (run period patience s (List.range' (q * period + i) (j + 1))).got = 0 := by
  have hstep := receive_inner patience (show i < period by omega) hs
  rw [List.range'_succ, run_cons, hstep]
  induction j generalizing i s with
  | zero =>
      have hend : q * period + i + 1 = (q + 1) * period := by rw [Nat.succ_mul]; omega
      exact ⟨by simp [take, hend], by simp [take, hend]⟩
  | succ j ih =>
      have hs' : (take period s s.got (q * period + i)).next = some (q * period + (i + 1)) := rfl
      have hstep' := receive_inner patience (show i + 1 < period by omega) hs'
      have hrest := ih (by omega) hs' hstep'
      rw [List.range'_succ, run_cons, show q * period + i + 1 = q * period + (i + 1) from rfl, hstep']
      exact hrest

theorem run_waiting (hs : s.next = none) (hns : ∀ n ∈ ns, n % period ≠ 0) : run period patience s ns = s := by
  induction ns with
  | nil => rfl
  | cons n ns ih =>
      rw [run_cons, receive_none hs, if_neg (hns n List.mem_cons_self)]
      exact ih fun n' hn' => hns n' (List.mem_cons_of_mem _ hn')

/-- A frame all of whose items come in is held as a whole, and reported with its last item. -/
theorem receive_last (hp : 1 < period) {q : ℕ} (hs : Ready patience s (q * period)) :
    (receive period patience (run period patience s (List.range' (q * period) (period - 1)))
        (q * period + (period - 1))).2 = some ⟨q, period⟩ ∧
      (run period patience s (List.range' (q * period) period)).next = some ((q + 1) * period) ∧
      (run period patience s (List.range' (q * period) period)).got = 0 ∧
      ∀ r < period, (run period patience s (List.range' (q * period) period)).held r = some (q * period + r) := by
  obtain ⟨j, rfl⟩ : ∃ j, period = j + 2 := ⟨period - 2, by omega⟩
  obtain ⟨hnext, hgot, hheld⟩ := run_begin hs (j := j) (by omega)
  have hlast := receive_inner patience (by omega : j + 1 < j + 2) hnext
  have hsum : q * (j + 2) + (j + 1) + 1 = (q + 1) * (j + 2) := by rw [Nat.succ_mul]; omega
  have hplace : (q * (j + 2) + (j + 1)) % (j + 2) = j + 1 := Nat.mul_add_mod_of_lt (by omega)
  have hrun : run (j + 2) patience s (List.range' (q * (j + 2)) (j + 2)) =
      (receive (j + 2) patience (run (j + 2) patience s (List.range' (q * (j + 2)) (j + 1)))
        (q * (j + 2) + (j + 1))).1 := by
    have hconcat : List.range' (q * (j + 2)) (j + 2) =
        List.range' (q * (j + 2)) (j + 1) ++ [q * (j + 2) + (j + 1)] := List.range'_1_concat
    rw [hconcat, run_append]
    rfl
  rw [show j + 2 - 1 = j + 1 from rfl, hrun, hlast]
  refine ⟨by simp [hgot], by simp only [take, hsum], by simp [take, hsum], ?_⟩
  intro r hr
  by_cases hr' : r = j + 1
  · simp [take, hplace, hr']
  · rw [take_held_of_ne (by rwa [hplace])]
    exact hheld r (by omega)

/-! ## Frames without a missing item -/

/-- If no item of the current frame is missing so far, all of them are held. -/
def Full (period : ℕ) (s : State) : Prop :=
  ∀ m, s.next = some m → s.got ≤ m % period ∧
    (s.got = m % period → ∀ r < m % period, s.held r = some (m / period * period + r))

theorem Full.lost (period : ℕ) : Full period State.lost := fun _ hm => nomatch hm

theorem held_take (hheld : ∀ r < n % period, s.held r = some (n / period * period + r)) (got : ℕ) {r : ℕ}
    (hr : r ≤ n % period) : (take period s got n).held r = some (n / period * period + r) := by
  rcases hr.eq_or_lt with rfl | hlt
  · rw [take_held_self, Nat.div_add_mod']
  · rw [take_held_of_ne hlt.ne, hheld r hlt]

theorem Full.take (hp : 0 < period) {got : ℕ} (hgot : got ≤ n % period)
    (hheld : got = n % period → ∀ r < n % period, s.held r = some (n / period * period + r)) :
    Full period (take period s got n) := by
  intro m hm
  cases hm
  have hlt := Nat.mod_lt n hp
  by_cases hend : (n + 1) % period = 0
  · simp only [Receiver.take, hend, if_true]
    exact ⟨le_rfl, fun _ r hr => absurd hr (Nat.not_lt_zero r)⟩
  · have hdiv : (n + 1) / period = n / period := by rw [succ_div, if_neg hend]
    have hmod : (n + 1) % period = n % period + 1 := by
      have h1 := Nat.div_add_mod n period
      have h2 := Nat.div_add_mod (n + 1) period
      rw [hdiv] at h2
      omega
    have hgot' : (Receiver.take period s got n).got = got + 1 := by simp only [Receiver.take, hend, if_false]
    rw [hgot', hmod, hdiv]
    refine ⟨Nat.succ_le_succ hgot, fun hall r hr => ?_⟩
    exact held_take (hheld (Nat.succ_injective hall)) got (Nat.lt_succ_iff.mp hr)

/-- A report of as many items as a frame has is a report of the whole frame. -/
theorem Full.receive (hp : 0 < period) (hs : Full period s) (hn : ∀ m, s.next = some m → m ≤ n) (patience : ℕ) :
    Full period (receive period patience s n).1 ∧
      ∀ rep, (receive period patience s n).2 = some rep → rep.items = period →
        ∀ r < period, (receive period patience s n).1.held r = some (rep.frame * period + r) := by
  have hlt := Nat.mod_lt n hp
  cases hnext : s.next with
  | none =>
      rw [receive_none hnext]
      split
      · next h0 =>
          refine ⟨Full.take hp (Nat.zero_le _) fun _ r hr => ?_, fun rep hrep => nomatch hrep⟩
          rw [h0] at hr
          exact absurd hr (Nat.not_lt_zero r)
      · exact ⟨hs, fun rep hrep => nomatch hrep⟩
  | some m =>
      obtain ⟨hgot, hheld⟩ := hs m hnext
      have hle := hn m hnext
      have hmono : m / period ≤ n / period := Nat.div_le_div_right hle
      by_cases hnear : n ≤ m + patience
      · rcases hmono.eq_or_lt with hq | hq
        · have hm := Nat.div_add_mod m period
          have hn' := Nat.div_add_mod n period
          rw [← hq] at hn'
          -- if nothing is missing, the item is the expected one
          have hall : s.got = n % period → ∀ r < n % period, s.held r = some (n / period * period + r) := by
            intro h r hr
            obtain rfl : m = n := by omega
            exact hheld h r hr
          rw [receive_same hnext hnear hq.symm]
          refine ⟨Full.take hp (by omega) hall, fun rep hrep hitems r hr => ?_⟩
          split at hrep
          · cases hrep
            have hlast : s.got + 1 = period := hitems
            have := held_take (hall (by omega)) s.got (show r ≤ n % period by omega)
            rwa [← hq] at this
          · cases hrep
        · rw [receive_cross hnext hnear hq]
          refine ⟨Full.take hp (Nat.zero_le _) fun h0 r hr => ?_, fun rep hrep hitems => ?_⟩
          · rw [← h0] at hr
            exact absurd hr (Nat.not_lt_zero r)
          · cases hrep
            have hm := Nat.mod_lt m hp
            have hlast : s.got = period := hitems
            omega
      · rw [receive_gap hnext (Nat.lt_of_not_le hnear)]
        exact ⟨fun _ hm => (nomatch hm), fun rep hrep => (nomatch hrep)⟩

/-- All items of a frame have come in. -/
theorem itemsOf_eq_period (hp : 0 < period) (hns : ns.Pairwise (· < ·)) {q : ℕ}
    (hall : ∀ r < period, q * period + r ∈ ns) : itemsOf period ns q = period := by
  have hnodup : (ns.filter fun n => n / period == q).Nodup := (hns.imp fun h => h.ne).filter _
  have hperm : List.Perm (ns.filter fun n => n / period == q) (List.range' (q * period) period) := by
    rw [List.perm_ext_iff_of_nodup hnodup List.nodup_range']
    intro n
    rw [List.mem_filter, List.mem_range'_1, beq_iff_eq, Nat.div_eq_iff hp]
    constructor
    · rintro ⟨_, hle, hlt⟩
      exact ⟨hle, by omega⟩
    · rintro ⟨hle, hlt⟩
      have hmem := hall (n - q * period) (by omega)
      rw [Nat.add_sub_cancel' hle] at hmem
      exact ⟨hmem, hle, by omega⟩
  rw [itemsOf, List.countP_eq_length_filter, hperm.length_eq, List.length_range']

end Receiver

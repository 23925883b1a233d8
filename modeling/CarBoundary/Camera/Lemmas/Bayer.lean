import CarBoundary.Camera.Bayer

/-!
# The shift buffers of the conversion
-/

namespace CarBoundary

open ShiftBuffer

variable {raw out : Bytes} {s : Demosaic} {x y : ℕ}

/-! ## The output -/

/-- The picture, byte by byte. -/
def Bayer.bytes (raw : Bytes) : Bytes := fun a => (Bayer.rgb raw (a / 3 % 640) (a / 3 / 640)).getD (a % 3) 0

/-- The picture has been written up to the place where the next byte goes. -/
def Demosaic.Written (raw out : Bytes) (s : Demosaic) : Prop :=
  ∀ a, s.out a = if a < s.dst then Bayer.bytes raw a else out a

theorem Bayer.bytes_pixel (hx : x < 640) (k : ℕ) (hk : k < 3) :
    Bayer.bytes raw (3 * (640 * y + x) + k) = (Bayer.rgb raw x y).getD k 0 := by
  have h1 : (3 * (640 * y + x) + k) / 3 = 640 * y + x := by omega
  have h2 : (3 * (640 * y + x) + k) % 3 = k := by omega
  have h3 : (640 * y + x) % 640 = x := by omega
  have h4 : (640 * y + x) / 640 = y := by omega
  rw [Bayer.bytes, h1, h2, h3, h4]

theorem Bayer.rgb_length (raw : Bytes) (x y : ℕ) : (Bayer.rgb raw x y).length = 3 := by
  unfold Bayer.rgb
  split <;> split <;> rfl

/-- The configurations store the colors of a pixel, if the shift buffers hold what they should. -/
theorem Demosaic.store_eq {prev next prev' next' hSum corners : UInt8}
    (hh : Holds s.hVals prev (Bayer.current raw x y) next) (hv : Holds s.vSums prev' (Bayer.aboveBelow raw x y) next')
    (hsides : hSum = Bayer.sides raw x y) (hcorners : corners = Bayer.corners raw x y) :
    s.store (decide (y % 2 = 1)) x hSum corners =
      { s with dst := s.dst + 3, out := memcpy s.dst (Bayer.rgb raw x y) s.out } := by
  subst hsides hcorners
  unfold Demosaic.store Bayer.rgb
  rw [hh.current, hv.current]
  by_cases hy : y % 2 = 0
  · by_cases hx : x % 2 = 0
    · simp [hy, hx, Demosaic.put]
    · simp [hy, hx, Demosaic.put]
  · have hy' : y % 2 = 1 := by omega
    by_cases hx : x % 2 = 0
    · simp [hy', hx, Demosaic.put]
    · simp [hy', hx, Demosaic.put]

theorem Demosaic.Written.store (h : s.Written raw out) (hdst : s.dst = 3 * (640 * y + x)) (hx : x < 640) :
    ∀ a, memcpy s.dst (Bayer.rgb raw x y) s.out a = if a < s.dst + 3 then Bayer.bytes raw a else out a := by
  intro a
  rw [memcpy, Bayer.rgb_length]
  by_cases hin : s.dst ≤ a ∧ a < s.dst + 3
  · have hpixel : Bayer.bytes raw (3 * (640 * y + x) + (a - s.dst)) = _ := Bayer.bytes_pixel hx (a - s.dst) (by omega)
    rw [if_pos hin, if_pos hin.2, ← hpixel, ← hdst, Nat.add_sub_cancel' hin.1]
  · rw [if_neg hin, h a]
    have hsame : a < s.dst ↔ a < s.dst + 3 := by omega
    simp only [hsame]

/-! ## A row -/

/-- Before the pixel in column `x`, which the shift buffers hold as the current one. -/
structure Demosaic.At (raw out : Bytes) (y x : ℕ) (s : Demosaic) : Prop where
  prevLine : s.prevLine = 640 * mirrorPrev y + x + 1
  curLine : s.curLine = 640 * y + x + 1
  nextLine : s.nextLine = 640 * mirrorNext 480 y + x + 1
  hVals : Holds s.hVals (Bayer.current raw (mirrorPrev x) y) (Bayer.current raw x y) 0
  vSums : Holds s.vSums (Bayer.aboveBelow raw (mirrorPrev x) y) (Bayer.aboveBelow raw x y) 0
  dst : s.dst = 3 * (640 * y + x)
  written : s.Written raw out

theorem Demosaic.At.column (h : s.At raw out y x) (hx : x < 639) :
    (s.column raw (decide (y % 2 = 1)) x).At raw out y (x + 1) := by
  have hnext : mirrorNext 640 x = x + 1 := by
    rw [mirrorNext, if_neg (by omega)]
  have hprev : mirrorPrev (x + 1) = x := by
    rw [mirrorPrev, if_neg (Nat.succ_ne_zero x), Nat.add_sub_cancel]
  have hcur : raw s.curLine = Bayer.current raw (x + 1) y := by
    rw [h.curLine]
    rfl
  have hvert : ((raw s.prevLine).toUInt32 + (raw s.nextLine).toUInt32) >>> 1 =
      (Bayer.aboveBelow raw (x + 1) y).toUInt32 := by
    rw [h.prevLine, h.nextLine, Bayer.aboveBelow, half_toUInt32]
    rfl
  have hh := h.hVals.insert (Bayer.current raw (x + 1) y)
  have hv := h.vSums.insert (Bayer.aboveBelow raw (x + 1) y)
  unfold Demosaic.column
  rw [hcur, hvert]
  dsimp only
  rw [Demosaic.store_eq (y := y) (by exact hh) (by exact hv)
    (by rw [hh.previous, hh.next, Bayer.sides, hnext]) (by rw [hv.previous, hv.next, Bayer.corners, hnext])]
  refine ⟨?_, ?_, ?_, ?_, ?_, ?_, ?_⟩
  · exact congrArg (· + 1) h.prevLine
  · exact congrArg (· + 1) h.curLine
  · exact congrArg (· + 1) h.nextLine
  · rw [hprev]; exact hh.shift
  · rw [hprev]; exact hv.shift
  · show s.dst + 3 = _
    rw [h.dst]
    omega
  · exact h.written.store h.dst (by omega)

/-- Before a row. The lines are where the boundary cases of the next row look for them. -/
structure Demosaic.Before (raw out : Bytes) (y : ℕ) (s : Demosaic) : Prop where
  curLine : s.curLine = 640 * y
  nextLine : y < 479 → s.nextLine = 640 * (y + 1)
  prevLine : y = 479 → s.prevLine = 640 * 478
  dst : s.dst = 3 * (640 * y)
  written : s.Written raw out

theorem Demosaic.Before.rowStart (h : s.Before raw out y) (hy : y < 480) : (s.rowStart raw y).At raw out y 0 := by
  -- the lines above and below, after the boundary cases
  have hlines : ∃ t : Demosaic, t = (if y > 0 ∧ y < 479 then { s with prevLine := s.curLine - 640 }
      else if y = 0 then { s with prevLine := s.nextLine } else { s with nextLine := s.prevLine }) ∧
      t.prevLine = 640 * mirrorPrev y ∧ t.curLine = 640 * y ∧ t.nextLine = 640 * mirrorNext 480 y ∧
      t.dst = s.dst ∧ t.out = s.out := by
    refine ⟨_, rfl, ?_⟩
    unfold mirrorPrev mirrorNext
    by_cases hmid : y > 0 ∧ y < 479
    · have h1 := h.curLine
      have h2 := h.nextLine hmid.2
      rw [if_pos hmid, if_neg (by omega), if_neg (by omega)]
      refine ⟨?_, h1, h2, rfl, rfl⟩
      show s.curLine - 640 = 640 * (y - 1)
      omega
    · by_cases hzero : y = 0
      · subst hzero
        have h2 := h.nextLine (by omega)
        rw [if_neg hmid, if_pos rfl, if_pos rfl, if_neg (by omega)]
        exact ⟨h2, h.curLine, h2, rfl, rfl⟩
      · have hlast : y = 479 := by omega
        subst hlast
        have h3 := h.prevLine rfl
        rw [if_neg hmid, if_neg hzero, if_neg hzero, if_pos rfl]
        exact ⟨h3, h.curLine, h3, rfl, rfl⟩
  obtain ⟨t, ht, hprev, hcur, hnext, hdst, hout⟩ := hlines
  unfold Demosaic.rowStart
  rw [← ht]
  have hmirror : mirrorPrev 0 = 1 := rfl
  have hcurrent : raw t.curLine = Bayer.current raw 0 y := by rw [hcur]; rfl
  have hsecond : raw (t.curLine + 1) = Bayer.current raw 1 y := by rw [hcur]; rfl
  have hvert (k : ℕ) : half (raw (t.prevLine + k)) (raw (t.nextLine + k)) = Bayer.aboveBelow raw k y := by
    rw [hprev, hnext]
    rfl
  refine ⟨congrArg (· + 1) hprev, congrArg (· + 1) hcur, congrArg (· + 1) hnext, ?_, ?_, ?_, ?_⟩
  · dsimp only
    rw [hcurrent, hsecond, hmirror]
    exact (holds_shiftLeft _).insert_front _
  · dsimp only
    rw [half_current, half_previous, hvert, hvert, hmirror]
    exact (holds_shiftLeft _).insert_front _
  · exact hdst.trans h.dst
  · intro a
    dsimp only
    rw [hout, hdst]
    exact h.written a

theorem Demosaic.At.rowEnd (h : s.At raw out y 639) (hy : y < 480) :
    (s.rowEnd (decide (y % 2 = 1))).Before raw out (y + 1) := by
  have hnext : mirrorNext 640 639 = 638 := rfl
  have hprev : mirrorPrev 639 = 638 := rfl
  -- on either side there is the same column
  have hh := h.hVals.insert (Bayer.current raw (mirrorPrev 639) y)
  have hv := h.vSums.insert (Bayer.aboveBelow raw (mirrorPrev 639) y)
  rw [← h.hVals.previous] at hh
  rw [← h.vSums.previous] at hv
  unfold Demosaic.rowEnd
  dsimp only
  rw [Demosaic.store_eq (y := y) (x := 639) (by rwa [h.hVals.previous] at hh ⊢) (by rwa [h.vSums.previous] at hv ⊢)
    (by rw [hh.next, h.hVals.previous, Bayer.sides, hnext, hprev, half_self])
    (by rw [hv.next, h.vSums.previous, Bayer.corners, hnext, hprev, half_self])]
  refine ⟨?_, fun hlt => ?_, fun hlast => ?_, ?_, ?_⟩
  · exact h.curLine
  · have hline := h.nextLine
    rw [mirrorNext, if_neg (by omega)] at hline
    exact hline
  · have hline := h.prevLine
    obtain rfl : y = 478 := by omega
    exact hline
  · show s.dst + 3 = _
    rw [h.dst]
    omega
  · exact h.written.store h.dst (by omega)

theorem Demosaic.Before.row (h : s.Before raw out y) (hy : y < 480) : (s.row raw y).Before raw out (y + 1) := by
  have hcolumns : ∀ n ≤ 639, ((List.range n).foldl (fun s x => s.column raw (decide (y % 2 = 1)) x)
      (s.rowStart raw y)).At raw out y n := by
    intro n hn
    induction n with
    | zero => exact h.rowStart hy
    | succ n ih =>
        rw [List.range_succ, List.foldl_append, List.foldl_cons, List.foldl_nil]
        exact (ih (Nat.le_of_succ_le hn)).column hn
  exact (hcolumns 639 le_rfl).rowEnd hy

theorem convertBayerToRgb_apply (raw proc : Bytes) (a : ℕ) :
    convertBayerToRgb raw proc a = if a < 3 * (640 * 480) then Bayer.bytes raw a else proc a := by
  have hrows : ∀ n ≤ 480, ((List.range n).foldl (fun s y => s.row raw y) (⟨0, 0, 640, 0, 0, 0, proc⟩ : Demosaic)).Before
      raw proc n := by
    intro n hn
    induction n with
    | zero => exact ⟨rfl, fun _ => rfl, fun h => absurd h (by decide), rfl, fun a => (if_neg (Nat.not_lt_zero a)).symm⟩
    | succ n ih =>
        rw [List.range_succ, List.foldl_append, List.foldl_cons, List.foldl_nil]
        exact (ih (Nat.le_of_succ_le hn)).row hn
  have hlast := hrows 480 le_rfl
  rw [convertBayerToRgb, hlast.written a, hlast.dst]

/-! ## The formulas of the comment -/

namespace Bayer

theorem sides_toNat (raw : Bytes) (x y : ℕ) : (sides raw x y).toNat =
    ((current raw (mirrorPrev x) y).toNat + (current raw (mirrorNext 640 x) y).toNat) / 2 := half_toNat _ _

theorem aboveBelow_toNat (raw : Bytes) (x y : ℕ) : (aboveBelow raw x y).toNat =
    ((current raw x (mirrorPrev y)).toNat + (current raw x (mirrorNext 480 y)).toNat) / 2 := half_toNat _ _

/-- Each color is what its formula says or one less. -/
def Near (value : UInt8) (n : ℕ) : Prop := value.toNat ≤ n ∧ n ≤ value.toNat + 1

theorem near_of_eq {value : UInt8} {n : ℕ} (h : value.toNat = n) : Near value n := ⟨h.le, by omega⟩

theorem near_four (raw : Bytes) (x y : ℕ) : Near (half (sides raw x y) (aboveBelow raw x y))
    (((current raw (mirrorPrev x) y).toNat + (current raw (mirrorNext 640 x) y).toNat +
      (current raw x (mirrorPrev y)).toNat + (current raw x (mirrorNext 480 y)).toNat) / 4) := half_half _ _ _ _

theorem rgb_near (raw : Bytes) (x y : ℕ) : List.Forall₂ Near (rgb raw x y) (documented raw x y) := by
  have hhere : Near (current raw x y) (current raw x y).toNat := near_of_eq rfl
  have hsides := near_of_eq (sides_toNat raw x y)
  have habove := near_of_eq (aboveBelow_toNat raw x y)
  have hfour := near_four raw x y
  have hcorners := half_half (current raw (mirrorPrev x) (mirrorPrev y)) (current raw (mirrorPrev x) (mirrorNext 480 y))
    (current raw (mirrorNext 640 x) (mirrorPrev y)) (current raw (mirrorNext 640 x) (mirrorNext 480 y))
  unfold rgb documented
  by_cases hy : y % 2 = 0
  · by_cases hx : x % 2 = 0
    · simp only [hy, hx, if_true]
      exact .cons hsides (.cons hhere (.cons habove .nil))
    · simp only [hy, hx, if_true, if_false]
      exact .cons hhere (.cons hfour (.cons hcorners .nil))
  · by_cases hx : x % 2 = 0
    · simp only [hy, hx, if_true, if_false]
      exact .cons hcorners (.cons hfour (.cons hhere .nil))
    · simp only [hy, hx, if_false]
      exact .cons habove (.cons hhere (.cons hsides .nil))

/-- No rounding is lost where only two pixels are averaged. -/
theorem rgb_exact {x y : ℕ} (raw : Bytes) (h : x % 2 = y % 2) : (rgb raw x y).map UInt8.toNat = documented raw x y := by
  unfold rgb documented
  by_cases hy : y % 2 = 0
  · have hx : x % 2 = 0 := h.trans hy
    simp [hy, hx, sides_toNat, aboveBelow_toNat]
  · have hx : ¬ x % 2 = 0 := fun hx => hy (h ▸ hx)
    simp [hy, hx, sides_toNat, aboveBelow_toNat]

end Bayer

/-! ## The pixels that are read -/

theorem mirrorPrev_lt {n i : ℕ} (hi : i < n) (hn : 1 < n) : mirrorPrev i < n := by
  rw [mirrorPrev]
  split_ifs
  · exact hn
  · omega

theorem mirrorNext_lt {n i : ℕ} (hi : i < n) (hn : 1 < n) : mirrorNext n i < n := by
  rw [mirrorNext]
  split_ifs
  · omega
  · omega

/-- The picture is computed from the frame alone. -/
theorem Bayer.bytes_congr {raw' : Bytes} (h : ∀ a < 640 * 480, raw' a = raw a) {a : ℕ} (ha : a < 3 * (640 * 480)) :
    Bayer.bytes raw' a = Bayer.bytes raw a := by
  have hcurrent {x y : ℕ} (hx : x < 640) (hy : y < 480) : current raw' x y = current raw x y := h _ (by omega)
  have hx : a / 3 % 640 < 640 := Nat.mod_lt _ (by decide)
  have hy : a / 3 / 640 < 480 := by omega
  have hleft := mirrorPrev_lt hx (by decide)
  have hright := mirrorNext_lt hx (by decide)
  have habove := mirrorPrev_lt hy (by decide)
  have hbelow := mirrorNext_lt hy (by decide)
  simp only [Bayer.bytes, Bayer.rgb, corners, aboveBelow, sides, hcurrent, hx, hy, hleft, hright, habove, hbelow]

end CarBoundary

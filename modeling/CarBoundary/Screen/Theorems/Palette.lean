import CarBoundary.Screen.Palette
import Mathlib.Tactic.Ring

/-!
# The colors of the layers

The palette has room for the grids up to two meters high, and above the layer on the ground its colors get
darker with the height. The component of that layer is 256, which carries into the next channel, so that it is
drawn darker than the layers above it (`palette_iff`).
-/

namespace CarBoundary

/-! ## The components of a packed color -/

theorem maskedByte_toNat (word : BitVec 32) (mask : BitVec 32) (k : ℕ) (hmask : mask >>> k = 0xFF) :
    (((word &&& mask) >>> k).setWidth 8).toNat = word.toNat / 2 ^ k % 2 ^ 8 := by
  have hlow : (0xFF : BitVec 32).toNat = 2 ^ 8 - 1 := rfl
  rw [BitVec.ushiftRight_and_distrib, hmask, BitVec.toNat_setWidth, BitVec.toNat_and, BitVec.toNat_ushiftRight,
    hlow, Nat.and_two_pow_sub_one_eq_mod, Nat.mod_mod, Nat.shiftRight_eq_div_pow]

theorem redOf_toNat (color : BitVec 32) : (redOf color).toNat = color.toNat / 2 ^ 16 % 2 ^ 8 :=
  maskedByte_toNat color 0xFF0000 16 (by decide)

theorem greenOf_toNat (color : BitVec 32) : (greenOf color).toNat = color.toNat / 2 ^ 8 % 2 ^ 8 :=
  maskedByte_toNat color 0xFF00 8 (by decide)

theorem blueOf_toNat (color : BitVec 32) : (blueOf color).toNat = color.toNat % 2 ^ 8 := by
  have h := maskedByte_toNat color 0xFF 0 (by decide)
  rw [BitVec.ushiftRight_zero, Nat.pow_zero, Nat.div_one] at h
  exact h

/-! ## The shade of a layer -/

/-- The common component of red and green, before it is packed. -/
def shade (g : Grid) (i : ℕ) : ℕ := 256 * (g.cubeHeight - i) / g.cubeHeight

variable {g : Grid} {z z' : ℕ}

theorem shade_zero (g : Grid) : shade g 0 = 256 := by
  rw [shade, Nat.sub_zero, Nat.mul_div_cancel _ g.cubeHeight_pos]

theorem shade_lt (hz : 0 < z) : shade g z < 256 := by
  have hH := g.cubeHeight_pos
  rw [shade, Nat.div_lt_iff_lt_mul hH]
  omega

theorem shade_le_of_le (h : z ≤ z') : shade g z' ≤ shade g z := by
  apply Nat.div_le_div_right
  omega

theorem shade_lt_of_lt (hH : g.cubeHeight ≤ 256) (h : z < z') (hz' : z' < g.cubeHeight) :
    shade g z' < shade g z := by
  have hstep : 256 * (g.cubeHeight - z') + g.cubeHeight ≤ 256 * (g.cubeHeight - z) := by omega
  calc shade g z' < shade g z' + 1 := Nat.lt_succ_self _
    _ = (256 * (g.cubeHeight - z') + g.cubeHeight) / g.cubeHeight := (Nat.add_div_right _ g.cubeHeight_pos).symm
    _ ≤ shade g z := Nat.div_le_div_right hstep

theorem shade_eq_zero_iff : shade g z = 0 ↔ 256 * (g.cubeHeight - z) < g.cubeHeight := by
  rw [shade, Nat.div_eq_zero_iff]
  have hH := g.cubeHeight_pos
  omega

theorem shade_le (g : Grid) (i : ℕ) : shade g i ≤ 256 := by
  rw [← shade_zero g]
  exact shade_le_of_le (Nat.zero_le i)

theorem paletteColor_toNat (g : Grid) (i : ℕ) : (paletteColor g i).toNat = 255 + 2 ^ 8 * (257 * shade g i) := by
  have h := shade_le g i
  have hor : 0xFF ||| ((0x0101 * shade g i) <<< 8) = 255 + 2 ^ 8 * (257 * shade g i) := by
    rw [Nat.or_comm, ← Nat.shiftLeft_add_eq_or_of_lt (by norm_num), Nat.shiftLeft_eq]
    ring
  rw [paletteColor, ← shade, hor, BitVec.toNat_ofNat, Nat.mod_eq_of_lt (by omega)]

/-- The color tells the shade. -/
theorem paletteColor_eq_iff : paletteColor g z = paletteColor g z' ↔ shade g z = shade g z' := by
  rw [← BitVec.toNat_inj, paletteColor_toNat, paletteColor_toNat]
  constructor
  · intro h
    omega
  · intro h
    rw [h]

theorem components_of_pos (hz : 0 < z) :
    (redOf (paletteColor g z)).toNat = shade g z ∧ (greenOf (paletteColor g z)).toNat = shade g z := by
  have h := shade_lt (g := g) hz
  have hred : (255 + 2 ^ 8 * (257 * shade g z)) / 2 ^ 16 = shade g z := by omega
  have hgreen : (255 + 2 ^ 8 * (257 * shade g z)) / 2 ^ 8 = 257 * shade g z := by omega
  rw [redOf_toNat, greenOf_toNat, paletteColor_toNat, hred, hgreen]
  omega

/-- The component 256 of the layer on the ground carries: red becomes 1 and green 0. -/
theorem components_zero (g : Grid) :
    (redOf (paletteColor g 0)).toNat = 1 ∧ (greenOf (paletteColor g 0)).toNat = 0 := by
  rw [redOf_toNat, greenOf_toNat, paletteColor_toNat, shade_zero]
  decide

theorem blueOf_paletteColor (g : Grid) (i : ℕ) : blueOf (paletteColor g i) = 0xFF := by
  apply BitVec.eq_of_toNat_eq
  rw [blueOf_toNat, paletteColor_toNat, Nat.add_mul_mod_self_left]
  rfl

/-! ## The palette -/

/-- Every index that is written or read lies in the array. -/
def PaletteInRange (cfg : Config) : Prop :=
  (∀ i ∈ paletteWrites cfg.grid, i < cubeColorLength) ∧
    ∀ env x y, ∀ i ∈ paletteRead cfg env x y, i < cubeColorLength

/-- The higher of two layers is gray and not lighter than the lower one, and both are full blue. -/
structure LayersOrdered (g : Grid) (z z' : ℕ) : Prop where
  gray : redOf (initPalette g z') = greenOf (initPalette g z')
  red : redOf (initPalette g z') ≤ redOf (initPalette g z)
  green : greenOf (initPalette g z') ≤ greenOf (initPalette g z)
  strict : g.cubeHeight ≤ 256 → redOf (initPalette g z') < redOf (initPalette g z) ∧
    greenOf (initPalette g z') < greenOf (initPalette g z)
  blue : blueOf (initPalette g z) = 0xFF ∧ blueOf (initPalette g z') = 0xFF

def PaletteOrdered (g : Grid) : Prop := ∀ z z', z < z' → z' < g.cubeHeight → LayersOrdered g z z'

theorem paletteInRange_iff (cfg : Config) : PaletteInRange cfg ↔ cfg.envHeight ≤ 2 := by
  have hH : cfg.grid.cubeHeight = cfg.envHeight * 10 := rfl
  simp only [PaletteInRange, paletteWrites_eq, List.mem_range, cubeColorLength]
  constructor
  · rintro ⟨hwrites, _⟩
    by_contra hlt
    exact absurd (hwrites 20 (by omega)) (lt_irrefl 20)
  · intro h
    refine ⟨fun i hi => by omega, fun env x y i hi => ?_⟩
    have := lt_cubeHeight_of_paletteRead hi
    omega

theorem layersOrdered_iff_shade (h : z < z') (hz' : z' < g.cubeHeight) : LayersOrdered g z z' ↔
    shade g z' ≤ (redOf (paletteColor g z)).toNat ∧ shade g z' ≤ (greenOf (paletteColor g z)).toNat ∧
      (g.cubeHeight ≤ 256 →
        shade g z' < (redOf (paletteColor g z)).toNat ∧ shade g z' < (greenOf (paletteColor g z)).toNat) := by
  obtain ⟨hred, hgreen⟩ := components_of_pos (g := g) (Nat.zero_lt_of_lt h)
  have hcolor := initPalette_eq (h.trans hz')
  have hcolor' := initPalette_eq hz'
  constructor
  · rintro ⟨_, hr, hg, hstrict, _⟩
    rw [hcolor, hcolor', BitVec.le_def, hred] at hr
    rw [hcolor, hcolor', BitVec.le_def, hgreen] at hg
    rw [hcolor, hcolor', BitVec.lt_def, BitVec.lt_def, hred, hgreen] at hstrict
    exact ⟨hr, hg, hstrict⟩
  · rintro ⟨hr, hg, hstrict⟩
    constructor
    · rw [hcolor', ← BitVec.toNat_inj, hred, hgreen]
    · rw [hcolor, hcolor', BitVec.le_def, hred]
      exact hr
    · rw [hcolor, hcolor', BitVec.le_def, hgreen]
      exact hg
    · rw [hcolor, hcolor', BitVec.lt_def, BitVec.lt_def, hred, hgreen]
      exact hstrict
    · rw [hcolor, hcolor']
      exact ⟨blueOf_paletteColor g z, blueOf_paletteColor g z'⟩

theorem layersOrdered_iff (h : z < z') (hz' : z' < g.cubeHeight) :
    LayersOrdered g z z' ↔ 0 < z ∨ 256 * (g.cubeHeight - z') < g.cubeHeight := by
  rw [layersOrdered_iff_shade h hz']
  cases z with
  | zero =>
      rw [(components_zero g).1, (components_zero g).2, Nat.le_zero, shade_eq_zero_iff]
      constructor
      · rintro ⟨_, hzero, _⟩
        exact Or.inr hzero
      · intro hcases
        have hzero := hcases.resolve_left (lt_irrefl 0)
        refine ⟨(shade_eq_zero_iff.mpr hzero).le.trans (Nat.zero_le 1), hzero, fun hH => ?_⟩
        -- a grid of at most 256 layers has no layer whose shade is zero
        omega
  | succ z =>
      obtain ⟨hred, hgreen⟩ := components_of_pos (g := g) (Nat.succ_pos z)
      rw [hred, hgreen]
      have hle : shade g z' ≤ shade g (z + 1) := shade_le_of_le h.le
      exact iff_of_true ⟨hle, hle, fun hH => ⟨shade_lt_of_lt hH h hz', shade_lt_of_lt hH h hz'⟩⟩
        (Or.inl (Nat.succ_pos z))

/-- No layer of the array has the shade zero. -/
theorem layersOrdered_in_array (h : z < z') (hz' : z' < g.cubeHeight) :
    z' < cubeColorLength ∧ LayersOrdered g z z' ↔ z' < cubeColorLength ∧ 0 < z := by
  rw [layersOrdered_iff h hz', cubeColorLength]
  constructor
  · rintro ⟨hin, hpos | hzero⟩
    · exact ⟨hin, hpos⟩
    · omega
  · rintro ⟨hin, hpos⟩
    exact ⟨hin, .inl hpos⟩

theorem not_paletteOrdered (cfg : Config) : ¬ PaletteOrdered cfg.grid := by
  intro hord
  have hH : cfg.grid.cubeHeight = cfg.envHeight * 10 := rfl
  have hpos := cfg.envHeight_pos
  have h1 : 1 < cfg.grid.cubeHeight := by omega
  rcases (layersOrdered_iff Nat.one_pos h1).mp (hord 0 1 Nat.one_pos h1) with h | h
  · exact lt_irrefl 0 h
  · omega

/-- The palette stays in the array exactly for grids of up to two meters. Of the layers in the array two are ordered
exactly if the lower one is not on the ground; the colors as such are also ordered if the upper one is so high that its
shade is zero. In every configuration the ground breaks the order. -/
theorem palette_iff (cfg : Config) :
    (PaletteInRange cfg ↔ cfg.envHeight ≤ 2) ∧
    (∀ z z', z < z' → z' < cfg.grid.cubeHeight →
      (LayersOrdered cfg.grid z z' ↔ 0 < z ∨ 256 * (cfg.grid.cubeHeight - z') < cfg.grid.cubeHeight)) ∧
    (∀ z z', z < z' → z' < cfg.grid.cubeHeight →
      (z' < cubeColorLength ∧ LayersOrdered cfg.grid z z' ↔ z' < cubeColorLength ∧ 0 < z)) ∧
    ¬ (PaletteInRange cfg ∧ PaletteOrdered cfg.grid) :=
  ⟨paletteInRange_iff cfg, fun _ _ h hz' => layersOrdered_iff h hz', fun _ _ h hz' => layersOrdered_in_array h hz',
    fun h => not_paletteOrdered cfg h.2⟩

theorem shipped_upper_ordered : LayersOrdered Config.shipped.grid 1 19 :=
  ((palette_iff Config.shipped).2.1 1 19 (by decide) (by decide)).mpr (Or.inl Nat.one_pos)

def threeMeters : Config := { Config.shipped with envHeight := 3, envHeight_pos := by decide }

/-- In the shipped grid the layer on the ground is nearly pure blue, and the layer above it nearly white. A grid
of three meters writes beyond the array. -/
theorem ground_darker_than_above :
    (redOf (initPalette Config.shipped.grid 0) = 1 ∧ greenOf (initPalette Config.shipped.grid 0) = 0 ∧
      redOf (initPalette Config.shipped.grid 1) = 243 ∧ greenOf (initPalette Config.shipped.grid 1) = 243) ∧
    ¬ (PaletteInRange Config.shipped ∧ PaletteOrdered Config.shipped.grid) ∧
    ¬ (PaletteInRange threeMeters ∧ PaletteOrdered threeMeters.grid) ∧
    20 ∈ paletteWrites threeMeters.grid ∧ ¬ PaletteInRange threeMeters := by
  refine ⟨?_, fun h => not_paletteOrdered _ h.2, fun h => not_paletteOrdered _ h.2, by decide, ?_⟩
  · rw [initPalette_eq (by decide), initPalette_eq (by decide)]
    decide
  · rw [paletteInRange_iff]
    decide

end CarBoundary

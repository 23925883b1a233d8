import CarBoundary.Sensor.Lemmas.Landing

/-!
# Which points of a march can share a cube

The samples are one horizontal unit apart, so that two of them share a cube only if they are neighbours.
-/

namespace CarBoundary

variable {K : Type*} [Field K] [LinearOrder K] {g : Grid} {dev : KDevice K} {i j : ℕ} {d : K}

/-- The point lies in a column of the grid, above or below the line of sight, `s` steps from the base. -/
structure OnTrack (dev : KDevice K) (i : ℕ) (s : K) (p : Point K) : Prop where
  x_eq : p.x = (basePoint dev).x + s * dev.dx i
  y_eq : p.y = (basePoint dev).y + s * dev.dy i
  x_nonneg : 0 ≤ p.x
  y_nonneg : 0 ≤ p.y

theorem onTrack_sample {n : K} (h : inbounds g (sample dev i j n) = true) : OnTrack dev i n (sample dev i j n) :=
  ⟨rfl, rfl, (inbounds_iff.mp h).1.1, (inbounds_iff.mp h).2.1.1⟩

theorem onTrack_beyond {m : K}
    (h : inbounds g ((landPoint dev i j d).along (direction dev i j) m) = true) :
    OnTrack dev i (reach dev j d + m) ((landPoint dev i j d).along (direction dev i j) m) := by
  refine ⟨?_, ?_, (inbounds_iff.mp h).1.1, (inbounds_iff.mp h).2.1.1⟩
  · simp only [Point.along, landPoint_eq, direction]
    ring
  · simp only [Point.along, landPoint_eq, direction]
    ring

variable [FloorRing K]

theorem cubeOf_ix {c : Point K} (h : 0 ≤ c.x) : (cubeOf g c).ix = ⌊c.x⌋ := ToInt.toInt_of_nonneg h

theorem cubeOf_iy {c : Point K} (h : 0 ≤ c.y) : (cubeOf g c).iy = ⌊c.y⌋ := ToInt.toInt_of_nonneg h

variable [IsStrictOrderedRing K]

theorem OnTrack.near (hu : dev.dx i ^ 2 + dev.dy i ^ 2 = 1) {s u : K} {p q : Point K} (hp : OnTrack dev i s p)
    (hq : OnTrack dev i u q) (h : cubeOf g p = cubeOf g q) : u < s + 3 / 2 := by
  have hx : ⌊p.x⌋ = ⌊q.x⌋ := by rw [← cubeOf_ix hp.x_nonneg (g := g), h, cubeOf_ix hq.x_nonneg]
  have hy : ⌊p.y⌋ = ⌊q.y⌋ := by rw [← cubeOf_iy hp.y_nonneg (g := g), h, cubeOf_iy hq.y_nonneg]
  rw [hp.x_eq, hq.x_eq] at hx
  rw [hp.y_eq, hq.y_eq] at hy
  exact Line.lt_add_of_floor_eq hu hx hy

namespace Sighting

variable (h : Sighting g dev i j d) (hdvh : 0 < dev.dvh j)
include h hdvh

theorem onTrack_landPoint (hl : Lands g dev i j d) : OnTrack dev i (reach dev j d) (landPoint dev i j d) := by
  obtain ⟨hx, hy⟩ := h.landPoint_mem hdvh hl
  refine ⟨?_, ?_, hx.1, hy.1⟩
  · rw [landPoint_eq]
  · rw [landPoint_eq]

theorem landSteps_sub_one_le : (landSteps dev i j d : K) - 1 ≤ reach dev j d :=
  Line.pred_passSteps_le _ _ (h.reach_pos hdvh)

theorem landSteps_le_of_clear_eq (hl : Lands g dev i j d) {n : ℕ} (hin : inbounds g (sample dev i j n) = true)
    (he : cubeOf g (sample dev i j n) = cubeOf g (landPoint dev i j d)) : landSteps dev i j d ≤ n + 2 := by
  have hnear := (onTrack_sample hin).near h.unitH (h.onTrack_landPoint hdvh hl) he
  have hlast := h.landSteps_sub_one_le hdvh
  by_contra hlt
  have hfar : (n : K) + 3 ≤ landSteps dev i j d := by exact_mod_cast (by omega : n + 3 ≤ landSteps dev i j d)
  linarith

theorem eq_of_clear_eq_guess {n m : ℕ} (hn : n < landSteps dev i j d) (hin : inbounds g (sample dev i j n) = true)
    (hm : 0 < m) (hmin : inbounds g ((landPoint dev i j d).along (direction dev i j) m) = true)
    (he : cubeOf g (sample dev i j n) = cubeOf g ((landPoint dev i j d).along (direction dev i j) m)) :
    m = 1 ∧ n = landSteps dev i j d - 1 := by
  have hnear := (onTrack_sample hin).near h.unitH (onTrack_beyond hmin) he
  have hlast := h.landSteps_sub_one_le hdvh
  have hn' : (n : K) + 1 ≤ landSteps dev i j d := by exact_mod_cast hn
  have hm1 : (1 : K) ≤ m := by exact_mod_cast hm
  constructor
  · by_contra hne
    have hm2 : (2 : K) ≤ m := by exact_mod_cast (by omega : 2 ≤ m)
    linarith
  · by_contra hne
    have hfar : (n : K) + 2 ≤ landSteps dev i j d := by exact_mod_cast (by omega : n + 2 ≤ landSteps dev i j d)
    linarith

theorem eq_one_of_known_eq_guess (hl : Lands g dev i j d) {m : ℕ} (hm : 0 < m)
    (hmin : inbounds g ((landPoint dev i j d).along (direction dev i j) m) = true)
    (he : cubeOf g (landPoint dev i j d) = cubeOf g ((landPoint dev i j d).along (direction dev i j) m)) : m = 1 := by
  have hnear := (h.onTrack_landPoint hdvh hl).near h.unitH (onTrack_beyond hmin) he
  by_contra hne
  have hm2 : (2 : K) ≤ m := by exact_mod_cast (by omega : 2 ≤ m)
  linarith

omit hdvh in
theorem le_of_guess_eq_guess {m n : ℕ}
    (hm : inbounds g ((landPoint dev i j d).along (direction dev i j) m) = true)
    (hn : inbounds g ((landPoint dev i j d).along (direction dev i j) n) = true)
    (he : cubeOf g ((landPoint dev i j d).along (direction dev i j) m) =
      cubeOf g ((landPoint dev i j d).along (direction dev i j) n)) : n ≤ m + 1 := by
  have hnear := (onTrack_beyond hm).near h.unitH (onTrack_beyond hn) he
  by_contra hlt
  have hfar : (m : K) + 2 ≤ n := by exact_mod_cast (by omega : m + 2 ≤ n)
  linarith

end Sighting

end CarBoundary

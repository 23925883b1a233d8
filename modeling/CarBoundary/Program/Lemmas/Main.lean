import CarBoundary.Program.Main
import CarBoundary.Screen.Lemmas.Pixels
import CarBoundary.Screen.Theorems.Order

/-!
# What the loop shows

The picture of a round is one that is drawn from scratch, and the loop shows the pictures of its rounds in their
order.
-/

namespace CarBoundary

/-! ## Painting over a picture -/

section

variable {F : Type*} [Mul F] [Div F] [NatCast F] [ToInt F] {cfg : Config} {cubeColor : ℕ → BitVec 32} {mapRGB : MapRGB}

theorem paint_eq_foldl_write (env : Env) (s : Surface) :
    paint F cfg cubeColor mapRGB env s =
      { s with pixels := (screenPositions cfg).foldl (fun mem p =>
          Block.write s.bytesPerPixel (s.position p.1 (s.height - p.2 - 1))
            (byteAt (mapColor mapRGB (pixelCall F cfg cubeColor env p).color)) mem) s.pixels } := by
  rw [paint, drawDepths_eq]
  exact foldl_setPixel mapRGB _ _ s

/-- Nothing of the picture that was there before is left. -/
theorem paint_paint (env env' : Env) (s : Surface) :
    paint F cfg cubeColor mapRGB env (paint F cfg cubeColor mapRGB env' s) = paint F cfg cubeColor mapRGB env s := by
  rw [paint_eq_foldl_write env s, paint_eq_foldl_write env' s, paint_eq_foldl_write]
  exact congrArg (fun pixels => { s with pixels }) (Block.foldl_write_foldl_write _ s.pixels)

end

/-! ## Events -/

/-- Whether `sdl_pollevent` ends the program. -/
def SdlEvent.ends : SdlEvent → Bool
  | .keyDown | .quit => true
  | .videoExpose | .other => false

def Round.ends (r : Round) : Bool := r.events.any SdlEvent.ends

theorem Round.ends_iff {r : Round} : r.ends = true ↔ .keyDown ∈ r.events ∨ .quit ∈ r.events := by
  rw [Round.ends, List.any_eq_true]
  constructor
  · rintro ⟨e, he, hends⟩
    cases e with
    | keyDown => exact .inl he
    | quit => exact .inr he
    | videoExpose | other => cases hends
  · rintro (he | he)
    · exact ⟨_, he, rfl⟩
    · exact ⟨_, he, rfl⟩

/-- How often `sdl_pollevent` shows the last picture again. -/
def Round.exposes (r : Round) : ℕ := (r.events.takeWhile fun e => !e.ends).count .videoExpose

theorem sdlPollevent_eq {σ : Type*} (present : Surface → σ → σ) (render : Surface) (events : List SdlEvent)
    (screen : σ) :
    sdlPollevent present render events screen =
      (events.any SdlEvent.ends,
        (List.replicate ((events.takeWhile fun e => !e.ends).count .videoExpose) render).foldl
          (fun screen pic => present pic screen) screen) := by
  induction events generalizing screen with
  | nil => rfl
  | cons e events ih =>
      cases e with
      | keyDown => rfl
      | quit => rfl
      | videoExpose => simp [sdlPollevent, ih, SdlEvent.ends, List.replicate_succ]
      | other => simp [sdlPollevent, ih, SdlEvent.ends]

/-! ## Pictures -/

namespace Globals

theorem device_of_mem_fetches {F : Type*} {G : Globals F} {fetched : ℕ → Option Frame} {d : KDevice F × Option Frame}
    (hd : d ∈ G.fetches fetched) (h : d.2.isSome) : 0 ≤ d.1.device ∧ d.1.device < 64 := by
  obtain ⟨k, hk, rfl⟩ := List.mem_mapIdx.mp hd
  dsimp only [syncGetDepth] at h ⊢
  by_cases hindex : G.devices[k].device < 0 ∨ G.devices[k].device ≥ maxKinects
  · rw [if_pos hindex] at h
    cases h
  · rw [maxKinects] at hindex
    omega

variable {F : Type*} [Add F] [Mul F] [Div F] [NatCast F] [LT F] [LE F] [DecidableLT F] [DecidableLE F] [ToInt F]
variable (G : Globals F)

/-- The picture of the frames, drawn with arrays that are all zero. -/
def picture (fetched : ℕ → Option Frame) (render : Surface) : Surface :=
  paint F G.cfg G.cubeColor G.mapRGB (kinectPoll G.cfg.grid G.tables (G.fetches fetched) Env.initial) render

/-- The pictures that are brought to the screen if the rounds find the picture `last` on the surface. -/
def shown (render : Surface) : Surface → List Round → List Surface
  | _, [] => []
  | last, r :: rs =>
      List.replicate r.exposes last ++
        if r.ends then [] else G.picture r.fetched render :: shown render (G.picture r.fetched render) rs

variable {G} {fetched : ℕ → Option Frame} {render last : Surface}

/-- What the arrays held before does not show in the picture. -/
theorem paint_kinectPoll (hgrid : ScalesIntoGrid F G.cfg) (env : Env) (s : Surface) :
    paint F G.cfg G.cubeColor G.mapRGB (kinectPoll G.cfg.grid G.tables (G.fetches fetched) env) s =
      G.picture fetched s := by
  have hid : ∀ m ∈ readingsMarks G.cfg.grid G.tables (pollReadings (G.fetches fetched)), m.HasId :=
    readingsMarks_hasId (fun _ hr => hr) fun d hd hs => by
      rw [d.1.id_eq]
      exact deviceId_ne_zero (device_of_mem_fetches hd hs).1 (device_of_mem_fetches hd hs).2
  rw [picture, kinectPoll_eq, kinectPoll_eq]
  exact (Env.writeAll_agree (List.Perm.refl _) hid env Env.initial).paint_eq hgrid _ _ s

theorem picture_picture (fetched' : ℕ → Option Frame) (s : Surface) :
    G.picture fetched (G.picture fetched' s) = G.picture fetched s := paint_paint _ _ s

/-- A round whose writes all lie in the arrays brings its picture to the screen. -/
theorem exists_round {σ : Type*} (present : Surface → σ → σ) (hgrid : ScalesIntoGrid F G.cfg) {r : Round}
    (hin : G.InRange r.fetched) (p : Program σ) :
    ∃ env, G.round present r p =
      some ⟨env, G.picture r.fetched p.render, present (G.picture r.fetched p.render) p.screen⟩ := by
  refine ⟨kinectPoll G.cfg.grid G.tables (G.fetches r.fetched) p.env, ?_⟩
  simp only [round, if_pos hin, paint_kinectPoll hgrid]

/-- The rounds that are drawn, as the loop has not ended before. -/
def drawn (rounds : List Round) : List Round := rounds.takeWhile fun r => !r.ends

/-- The surface shows nothing but what the last round has drawn. -/
theorem exists_loop {σ : Type*} (present : Surface → σ → σ) (hgrid : ScalesIntoGrid F G.cfg) {rs : List Round}
    (hin : ∀ r ∈ drawn rs, G.InRange r.fetched) (p : Program σ)
    (hrender : ∀ fetched, G.picture fetched p.render = G.picture fetched render) :
    ∃ out, G.loop present rs p = some out ∧ out.1 = rs.any Round.ends ∧
      out.2.screen = (G.shown render p.render rs).foldl (fun screen pic => present pic screen) p.screen := by
  induction rs generalizing p with
  | nil => exact ⟨_, rfl, rfl, rfl⟩
  | cons r rs ih =>
      rw [loop, sdlPollevent_eq, ← Round.ends, shown, List.foldl_append, ← Round.exposes]
      cases hends : r.ends with
      | true => exact ⟨_, rfl, by simp [hends], rfl⟩
      | false =>
          rw [drawn, List.takeWhile_cons, hends, Bool.not_false, if_pos rfl] at hin
          -- the picture that the next rounds find is the one of this round
          let p' : Program σ := { p with
            screen := (List.replicate r.exposes p.render).foldl (fun screen pic => present pic screen) p.screen }
          obtain ⟨env, hround⟩ := exists_round present hgrid (hin r List.mem_cons_self) p'
          rw [show G.picture r.fetched p'.render = _ from hrender r.fetched] at hround
          obtain ⟨out, hloop, hdone, hscreen⟩ := ih (fun r' hr' => hin r' (List.mem_cons_of_mem r hr'))
            ⟨env, G.picture r.fetched render, present (G.picture r.fetched render) p'.screen⟩
            fun fetched => picture_picture _ _
          refine ⟨out, ?_, by simpa [hends] using hdone, by simpa using hscreen⟩
          simp only [hround, Option.bind_some, hloop, p']

/-- As long as the loop goes on, the last picture that was brought to the screen is that of the last round. -/
theorem getLast?_shown {rs : List Round} {r : Round} (h : (rs ++ [r]).any Round.ends = false) (last : Surface) :
    (G.shown render last (rs ++ [r])).getLast? = some (G.picture r.fetched render) := by
  induction rs generalizing last with
  | nil =>
      have hr : r.ends = false := by simpa using h
      simp [shown, hr]
  | cons r' rs ih =>
      rw [List.cons_append, List.any_cons, Bool.or_eq_false_iff] at h
      rw [List.cons_append, shown, h.1]
      simp [List.getLast?_append, List.getLast?_cons, ih h.2]

/-- The exit status, and what the program has brought to the screen. -/
theorem main_eq {σ : Type*} (present : Surface → σ → σ) (hgrid : ScalesIntoGrid F G.cfg) {rs : List Round}
    (hin : ∀ r ∈ drawn rs, G.InRange r.fetched) (render : Surface) (screen : σ) :
    G.main present (some render) rs screen =
      some (if rs.any Round.ends then some 0 else none,
        (G.shown render render rs).foldl (fun screen pic => present pic screen) screen) := by
  obtain ⟨⟨done, p⟩, hloop, hdone, hscreen⟩ :=
    exists_loop present hgrid hin ⟨Env.initial, render, screen⟩ fun fetched => rfl
  rw [main, hloop, Option.map_some]
  dsimp only at hdone hscreen ⊢
  rw [hdone, hscreen]

theorem getLast?_main (hgrid : ScalesIntoGrid F G.cfg) {rs : List Round} {r : Round}
    (hends : (rs ++ [r]).any Round.ends = false) (hin : ∀ r' ∈ rs ++ [r], G.InRange r'.fetched) (render : Surface) :
    (G.main (fun pic screen => screen ++ [pic]) (some render) (rs ++ [r]) []).bind (·.2.getLast?) =
      some (G.picture r.fetched render) := by
  have hdrawn : ∀ r' ∈ drawn (rs ++ [r]), G.InRange r'.fetched := fun r' hr' =>
    hin r' ((List.takeWhile_sublist _).subset hr')
  have hlog := Loop.foldl_snoc (fun pic : Surface => pic) (G.shown render render (rs ++ [r])) []
  rw [List.map_id', List.nil_append] at hlog
  rw [main_eq _ hgrid hdrawn, hlog, Option.bind_some, getLast?_shown hends]

end Globals

end CarBoundary

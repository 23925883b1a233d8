import CarBoundary.Sensor.Poll

/-!
# The log is what the program writes

Polling with any memory is a fold over the log of its marks, since the loops read nothing but their position.
-/

namespace CarBoundary

variable {F : Type*} [Add F] [Mul F] [NatCast F] [LT F] [LE F] [DecidableLT F] [DecidableLE F] [ToInt F]
variable {σ : Type*} {g : Grid} {t : Tables F} {write : Mark → σ → σ}

/-! ## A plotted distance -/

/-- The positions at which Step 1 clears. -/
def clearTrail (g : Grid) (dev : KDevice F) (i j : ℕ) (d : F) : List (Point F) :=
  let land := landPoint dev i j d
  let c := basePoint dev
  Loop.trail (clearing g land (decide (c.x ≤ land.x)) (decide (c.y ≤ land.y)))
    (advance (direction dev i j)) g.maxRounds c

def clearEnd (g : Grid) (dev : KDevice F) (i j : ℕ) (d : F) : Point F :=
  let land := landPoint dev i j d
  let c := basePoint dev
  Loop.run (clearing g land (decide (c.x ≤ land.x)) (decide (c.y ≤ land.y)))
    (advance (direction dev i j)) g.maxRounds c

/-- The position from which Step 3 starts, before its first advance. -/
def guessBase (g : Grid) (dev : KDevice F) (i j : ℕ) (d : F) : Point F :=
  if inbounds g (clearEnd g dev i j d) then landPoint dev i j d else clearEnd g dev i j d

def guessTrail (g : Grid) (dev : KDevice F) (i j : ℕ) (d : F) : List (Point F) :=
  Loop.trail (inbounds g) (advance (direction dev i j)) g.maxRounds
    (advance (direction dev i j) (guessBase g dev i j d))

def clearMarks (g : Grid) (dev : KDevice F) (i j : ℕ) (d : F) : List Mark :=
  (clearTrail g dev i j d).map fun c => .clear (cubeOf g c) dev.id

def knownMarks (g : Grid) (dev : KDevice F) (i j : ℕ) (d : F) : List Mark :=
  if inbounds g (clearEnd g dev i j d) then [.known (cubeOf g (landPoint dev i j d)) dev.id] else []

def guessMarks (g : Grid) (dev : KDevice F) (i j : ℕ) (d : F) : List Mark :=
  (guessTrail g dev i j d).map fun c => .guess (cubeOf g c)

theorem plotDistance_eq_steps (dev : KDevice F) (i j : ℕ) (d : F) (s : σ) :
    plotDistance g write dev i j d s =
      (clearMarks g dev i j d ++ knownMarks g dev i j d ++ guessMarks g dev i j d).foldl
        (fun s m => write m s) s := by
  have hend : Loop.run (clearing g (landPoint dev i j d) (decide ((basePoint dev).x ≤ (landPoint dev i j d).x))
      (decide ((basePoint dev).y ≤ (landPoint dev i j d).y))) (advance (direction dev i j)) g.maxRounds
      (basePoint dev) = clearEnd g dev i j d := rfl
  simp only [plotDistance, step1, step3, List.foldl_append, clearMarks, guessMarks, guessTrail, clearTrail,
    List.foldl_map]
  rw [Loop.march_snd, step2, Loop.march_fst, Loop.march_snd, hend, knownMarks, guessBase]
  by_cases h : inbounds g (clearEnd g dev i j d) = true
  · simp [h]
  · simp [h, Loop.march_fst, Loop.march_snd, hend]

theorem foldl_logMark (ms log : List Mark) : ms.foldl (fun log m => logMark m log) log = log ++ ms := by
  have h := Loop.foldl_snoc (fun m : Mark => m) ms log
  rw [List.map_id'] at h
  exact h

theorem distanceMarks_eq (dev : KDevice F) (i j : ℕ) (d : F) :
    distanceMarks g dev i j d = clearMarks g dev i j d ++ knownMarks g dev i j d ++ guessMarks g dev i j d := by
  rw [distanceMarks, plotDistance_eq_steps, foldl_logMark, List.nil_append]

theorem plotDistance_eq (dev : KDevice F) (i j : ℕ) (d : F) (s : σ) :
    plotDistance g write dev i j d s = (distanceMarks g dev i j d).foldl (fun s m => write m s) s := by
  rw [distanceMarks_eq, plotDistance_eq_steps]

/-! ## A reading, a device, a poll -/

variable [Div F]

theorem Reading.marks_eq (r : Reading F) :
    r.marks g t = if worthPlotting (r.distance t) then distanceMarks g r.dev r.i r.j (r.distance t) else [] := rfl

theorem plotReading_eq (r : Reading F) (s : σ) :
    plotReading g t write r s = (r.marks g t).foldl (fun s m => write m s) s := by
  rw [Reading.marks_eq, plotReading]
  split
  · exact plotDistance_eq _ _ _ _ _
  · rfl

def readingsMarks (g : Grid) (t : Tables F) (rs : List (Reading F)) : List Mark := rs.flatMap fun r => r.marks g t

theorem foldl_plotReading (rs : List (Reading F)) (s : σ) :
    rs.foldl (fun s r => plotReading g t write r s) s =
      (readingsMarks g t rs).foldl (fun s m => write m s) s := by
  induction rs generalizing s with
  | nil => rfl
  | cons r rs ih =>
      simp only [List.foldl_cons, readingsMarks, List.flatMap_cons, List.foldl_append]
      rw [plotReading_eq]
      exact ih _

theorem pollOneDevice_eq (dev : KDevice F) (frame : Option Frame) (s : σ) :
    pollOneDevice g t write dev frame s =
      (deviceReadings dev frame).foldl (fun s r => plotReading g t write r s) s := by
  cases frame with
  | none => rfl
  | some fdepths => simp [pollOneDevice, deviceReadings, List.foldl_flatMap, List.foldl_map]

theorem pollDevices_eq (devices : List (KDevice F × Option Frame)) (s : σ) :
    pollDevices g t write devices s =
      (pollReadings devices).foldl (fun s r => plotReading g t write r s) s := by
  induction devices generalizing s with
  | nil => rfl
  | cons dv devices ih =>
      simp only [pollDevices, pollReadings, List.foldl_cons, List.flatMap_cons, List.foldl_append] at ih ⊢
      rw [pollOneDevice_eq]
      exact ih _

theorem kinectPoll_eq (devices : List (KDevice F × Option Frame)) (env : Env) :
    kinectPoll g t devices env = (env.memset g).writeAll g (readingsMarks g t (pollReadings devices)) := by
  rw [kinectPoll, pollDevices_eq, foldl_plotReading]
  rfl

end CarBoundary

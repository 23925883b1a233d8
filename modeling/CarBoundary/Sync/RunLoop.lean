import CarBoundary.Lib.Machine
import CarBoundary.Lib.Threads

/-!
# The run loop and its tasks

`libfreenect_sync.c`: the threads `init`, and the clients in `setup_kinect` and `freenect_sync_stop`, as far as they are
about `thread_running`, `pending_runloop_tasks` and `runloop_lock`. There are any number of clients, and each thread
takes its steps when it likes. What is done under `pending_runloop_tasks_lock` is one step, and so is `init_thread`.
The calls of the library that a thread makes with the lock return, and so does `pthread_join` once the thread that it
waits for has ended.
-/

namespace CarBoundary

/-- Where a thread `init` is. -/
inductive LoopPc where
  /-- `init_thread` has not created it yet. -/
  | absent
  /-- In `pending_runloop_tasks_wait_zero`, about to look at the counter. -/
  | checking
  /-- In `pthread_cond_wait`. -/
  | asleep
  | wanting
  /-- In `freenect_process_events`. -/
  | processing
  /-- The loop has been left, with the lock. -/
  | closing
  | finished
deriving DecidableEq

/-- Where a client is in `setup_kinect` or `freenect_sync_stop`. -/
inductive ClientPc where
  | outside
  | wanting
  /-- It has the lock, and has found `thread_running` as it is in `thread_running_prev`. -/
  | holding (prev : Bool)
  | working (prev : Bool)
  /-- It has left the lock, and is to join the thread if it has stopped it. -/
  | leaving (joins : Bool)
  /-- `freenect_sync_stop` has found `thread_running` set. -/
  | stopping
  /-- About to call `pthread_join(thread, NULL)`. -/
  | ending
  | joining (k : ℕ)
deriving DecidableEq

/-- Between `pending_runloop_tasks_inc` and `pending_runloop_tasks_dec`. -/
def ClientPc.Inside : ClientPc → Prop
  | .wanting | .holding _ | .working _ | .leaving _ => True
  | .outside | .stopping | .ending | .joining _ => False

instance : DecidablePred ClientPc.Inside := fun pc => by
  cases pc <;> (unfold ClientPc.Inside; infer_instance)

/-- Between `pthread_mutex_lock(&runloop_lock)` and `pthread_mutex_unlock(&runloop_lock)`. -/
def ClientPc.InLock : ClientPc → Prop
  | .holding _ | .working _ => True
  | _ => False

def LoopPc.InLock : LoopPc → Prop
  | .processing | .closing => True
  | _ => False

inductive Owner (ι : Type*) where
  | loop (k : ℕ)
  | client (i : ι)
deriving DecidableEq

/-- The threads that `init_thread` creates are numbered. The last one is `thread`. -/
structure RunLoop (ι : Type*) where
  loops : ℕ → LoopPc
  threads : ℕ
  running : Bool
  client : ι → ClientPc
  pending : ℤ
  lock : Option (Owner ι)

inductive Action (ι : Type*) where
  | check (k : ℕ)
  | wake (k : ℕ)
  | acquire (k : ℕ)
  | process (k : ℕ) (ok : Bool)
  | close (k : ℕ)
  | inc (i : ι)
  | take (i : ι)
  | enter (i : ι)
  | release (i : ι) (ok : Bool)
  | dec (i : ι) (k : ℕ)
  | stop (i : ι)
  | halt (i : ι)
  | join (i : ι)
  | joined (i : ι)
deriving DecidableEq

/-- A new call of a client, or a wakeup for nothing. -/
def Action.FromOutside {ι : Type*} : Action ι → Prop
  | .inc _ | .stop _ | .wake _ => True
  | _ => False

namespace RunLoop

variable {ι : Type*} [DecidableEq ι]

def start : RunLoop ι := ⟨fun _ => .absent, 0, false, fun _ => .outside, 0, none⟩

def moveLoop (s : RunLoop ι) (k : ℕ) (pc : LoopPc) : RunLoop ι := { s with loops := Function.update s.loops k pc }

def moveClient (s : RunLoop ι) (i : ι) (pc : ClientPc) : RunLoop ι := { s with client := Function.update s.client i pc }

def setLock (s : RunLoop ι) (owner : Option (Owner ι)) : RunLoop ι := { s with lock := owner }

def setRunning (s : RunLoop ι) (running : Bool) : RunLoop ι := { s with running }

/-- `pending_runloop_tasks_inc`. There is no result if the assertion fails. -/
def tasksInc (s : RunLoop ι) : Option (RunLoop ι) :=
  if s.pending ≥ 0 then some { s with pending := s.pending + 1 } else none

/-- `pending_runloop_tasks_dec`. The signal wakes up one of the threads that sleep, if there are any. -/
def tasksDec (s : RunLoop ι) (k : ℕ) : Option (RunLoop ι) :=
  let s := { s with pending := s.pending - 1 }
  if s.pending ≥ 0 then
    if s.pending = 0 ∧ ∃ j < s.threads, s.loops j = .asleep then
      if s.loops k = .asleep then some (s.moveLoop k .checking) else none
    else some s
  else none

def initThread (s : RunLoop ι) : RunLoop ι :=
  { s with loops := Function.update s.loops s.threads .checking, threads := s.threads + 1, running := true }

/-- A step of one of the threads. `wake` is a wakeup for which nobody has signalled, `take` and `acquire` go on to the
first look at `thread_running`, and `release` tells whether there is a device. A call of `freenect_sync_stop` that does
not find `thread_running` set does nothing. -/
def step (s : RunLoop ι) : Action ι → Option (RunLoop ι)
  | .check k =>
      if s.loops k = .checking then some (s.moveLoop k (if s.pending = 0 then .wanting else .asleep)) else none
  | .wake k => if s.loops k = .asleep then some (s.moveLoop k .checking) else none
  | .acquire k =>
      if s.loops k = .wanting ∧ s.lock = none then
        some ((s.moveLoop k (if s.running then .processing else .closing)).setLock (some (.loop k)))
      else none
  | .process k ok =>
      if s.loops k = .processing then
        some (if ok then (s.moveLoop k .checking).setLock none else s.moveLoop k .closing)
      else none
  | .close k => if s.loops k = .closing then some ((s.moveLoop k .finished).setLock none) else none
  | .inc i => if s.client i = .outside then (s.tasksInc).map fun s => s.moveClient i .wanting else none
  | .take i =>
      if s.client i = .wanting ∧ s.lock = none then
        some ((s.moveClient i (.holding s.running)).setLock (some (.client i)))
      else none
  | .enter i =>
      match s.client i with
      | .holding prev =>
          let s' := s.moveClient i (.working prev)
          some (if s.running then s' else s'.initThread)
      | _ => none
  | .release i ok =>
      match s.client i with
      | .working prev =>
          let stops := !ok && !prev
          some (((s.setRunning (s.running && !stops)).moveClient i (.leaving stops)).setLock none)
      | _ => none
  | .dec i k =>
      match s.client i with
      | .leaving joins => (s.tasksDec k).map fun s => s.moveClient i (if joins then .ending else .outside)
      | _ => none
  | .stop i => if s.client i = .outside ∧ s.running then some (s.moveClient i .stopping) else none
  | .halt i => if s.client i = .stopping then some ((s.setRunning false).moveClient i .ending) else none
  | .join i => if s.client i = .ending then some (s.moveClient i (.joining (s.threads - 1))) else none
  | .joined i =>
      match s.client i with
      | .joining k => if s.loops k = .finished then some (s.moveClient i .outside) else none
      | _ => none

/-! ## Properties of states -/

def Holds (s : RunLoop ι) : Owner ι → Prop
  | .loop k => (s.loops k).InLock
  | .client i => (s.client i).InLock

/-- There is at most one loop that has been started and has not ended. -/
def Alone (s : RunLoop ι) : Prop :=
  ∀ j k, s.loops j ≠ .absent → s.loops j ≠ .finished → s.loops k ≠ .absent → s.loops k ≠ .finished → j = k

end RunLoop

end CarBoundary

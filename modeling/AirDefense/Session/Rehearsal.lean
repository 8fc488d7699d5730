import AirDefense.Engagement.Task

/-!
# Rehearsals

A rehearsal runs the tasks of an engagement by hand.  Its schedule starts
nothing by itself: it puts each task on record, up to an allowance, and whoever
rehearses takes a task off the record and runs it to its end.  No time is lost
on pauses, and the clock ticks with every step.
-/

namespace AirDefense

/-- When the context of a task that is run by hand is stopped. -/
inductive StopPlan where
  | never
  | atOnce
  /-- When the task has started so many others. -/
  | afterStarts (count : Nat)
deriving DecidableEq, Repr

namespace StopPlan

def isRunning (p : StopPlan) (started : Nat) : Bool :=
  match p with
  | never => true
  | atOnce => false
  | afterStarts count => started < count

end StopPlan

structure Recorded where
  duty : Duty
  spec : TaskSpec
  taken : Bool
deriving DecidableEq, Repr

structure Rehearsal where
  world : World
  records : List Recorded
  /-- Tasks that may still be put on record; none for any number. -/
  allowance : Option Nat
  running : Bool
  clock : Nat
  flights : List Flight
  launcher : Option Task

namespace Rehearsal

def ofSettings? (s : Settings) (allowance : Option Nat) : Except Fault Rehearsal := do
  let world <- World.ofSettings? s
  return {
    world
    records := []
    allowance
    running := true
    clock := 0
    flights := []
    launcher := none }

def ofValid? (s : Settings) (allowance : Option Nat) :
    Checked (Except Invalid Rehearsal) := do
  match <- s.validate with
  | .error i => return .error i
  | .ok () => return .ok (<- ofSettings? s allowance)

/-!
## The record
-/

def isAccepting (r : Rehearsal) : Bool :=
  r.allowance ≠ some 0

def enter (r : Rehearsal) (duty : Duty) : Rehearsal :=
  { r with
    records := r.records ++ [⟨duty, duty.spec r.world.settings, false⟩]
    allowance := r.allowance.map (· - 1) }

def start (r : Rehearsal) (duty : Duty) : Except Refusal (Nat × Rehearsal) :=
  if r.isAccepting then .ok (r.records.length, r.enter duty)
  else .error ⟨(duty.spec r.world.settings).name⟩

def startAll (r : Rehearsal) : List Duty -> Except Refusal (List Nat) × Rehearsal
  | [] => (.ok [], r)
  | duty :: rest =>
      match r.start duty with
      | .error refusal => (.error refusal, r)
      | .ok (task, r) =>
          let (tasks, r) := r.startAll rest
          (tasks.map (task :: ·), r)

/-- Takes a task off the record, once. -/
def takeOff (r : Rehearsal) (task : Nat) : Option (Duty × Rehearsal) :=
  match r.records[task]? with
  | none => none
  | some record =>
      if record.taken then none
      else some (record.duty,
        { r with records := r.records.set task { record with taken := true } })

/-!
## Running by hand
-/

def conditions (r : Rehearsal) (plan : StopPlan) (started : Nat) : Conditions :=
  { running := plan.isRunning started
    accepting := r.isAccepting
    now := Single.ofInt r.clock }

structure Worker (σ : Type) where
  step : Conditions -> σ -> World -> σ × World
  starts? : Conditions -> σ -> Option MissileId
  isHalted : σ -> World -> Bool

def taskWorker : Worker Task :=
  { step := Task.step
    starts? := Task.starts?
    isHalted := fun t w => t.rest = .over || t.isStuck w }

def attemptWorker : Worker Attempt :=
  { step := Attempt.step
    starts? := Attempt.starts?
    isHalted := fun a w =>
      a.isOver || (a = .queued && w.pool.handed.isEmpty && !w.pool.closed) }

def step (worker : Worker σ) (plan : StopPlan) (started : Nat) (s : σ) (r : Rehearsal) :
    σ × Nat × Rehearsal :=
  let c := r.conditions plan started
  let (after, world) := worker.step c s r.world
  let moved := { r with world, clock := r.clock + 1 }
  match worker.starts? c s with
  | some id => (after, started + 1, moved.enter (.flight id))
  | none => (after, started, moved)

def run (worker : Worker σ) (plan : StopPlan) :
    Nat -> Nat -> σ -> Rehearsal -> σ × Rehearsal
  | 0, _, s, r => (s, r)
  | n + 1, started, s, r =>
      if worker.isHalted s r.world then (s, r)
      else
        let (s, started, r) := r.step worker plan started s
        run worker plan n started s r

def longestRun : Nat := 10000000

def perform (r : Rehearsal) (plan : StopPlan) (t : Task) : Task × Rehearsal :=
  run taskWorker plan longestRun 0 t r

def engage (r : Rehearsal) (plan : StopPlan) : Attempt × Rehearsal :=
  run attemptWorker plan longestRun 0 .seeking r

def fly (r : Rehearsal) (flight periods : Nat) : Option (Except Fault (List Phase)) × Rehearsal :=
  match r.flights[flight]? with
  | none => (none, r)
  | some f =>
      let (phases, f, world) := f.periods periods r.world
      (some (match f.fault? with
          | some fault => .error fault
          | none => .ok phases),
        { r with world, flights := r.flights.set flight f.resume })

/-!
## A launcher beside the rehearsal
-/

/-- Lets the launcher go on until it waits for a slot or is over. -/
def letLauncher (r : Rehearsal) : Rehearsal :=
  match r.launcher with
  | none => r
  | some t =>
      let (t, r) := r.perform .never t
      { r with launcher := some t }

def isLauncherParked (r : Rehearsal) : Bool :=
  r.launcher.any fun t => t.rest = .parked

def request (r : Rehearsal) : Bool × Rehearsal :=
  let (admitted, admission) := r.world.admission.request
  (admitted, letLauncher { r with world := { r.world with admission } })

def close (r : Rehearsal) : Rehearsal :=
  letLauncher { r with world := r.world.close }

def stop (r : Rehearsal) : Rehearsal :=
  { r.close with running := false }

end Rehearsal
end AirDefense

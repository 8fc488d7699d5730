import AirDefense.Engagement.Snapshot
import AirDefense.Engagement.Task

/-!
# Runs

A run keeps its tasks on one schedule and lets them go on in the order of their
times.  Time is counted in nanoseconds since the run began.  A task that is due
takes one step; what it then waits for decides when it is due again.
-/

namespace AirDefense

inductive Activity where
  | task (t : Task)
  | display
deriving DecidableEq

structure Entry where
  number : Nat
  activity : Activity
  cadence : Cadence
  /-- When it goes on; none while it waits for a slot. -/
  wakeAt : Option Nat
deriving DecidableEq

structure Run where
  now : Nat
  world : World
  roster : Roster
  entries : List Entry
  launchers : List String
  latest : Option Snapshot

namespace Run

def ofSettings? (s : Settings) : Except Fault Run := do
  let world <- World.ofSettings? s
  return { now := 0, world, roster := .empty, entries := [], launchers := [], latest := none }

def ofValid? (s : Settings) : Checked (Except Invalid Run) := do
  match <- s.validate with
  | .error i => return .error i
  | .ok () => return .ok (<- ofSettings? s)

/-!
## Starting tasks
-/

def enlist (r : Run) (spec : TaskSpec) (begin : Cadence -> Activity) : Except Refusal Run := do
  let (number, roster) <- r.roster.start spec.name
  let cadence := Cadence.start (spec.period * Cadence.millisecond) r.now
  let wakeAt :=
    match spec.activation with
    | .now => r.now
    | .deferred => cadence.activation r.now
  return { r with
    roster
    entries := r.entries ++ [⟨number, begin cadence, cadence, some wakeAt⟩] }

def begin (r : Run) (duty : Duty) : Except Refusal Run :=
  r.enlist (duty.spec r.world.settings) fun cadence => .task (duty.begin cadence.deltaTime)

def startEach : List Duty -> Run -> Except Refusal Unit × Run
  | [], r => (.ok (), r)
  | duty :: rest, r =>
      match r.begin duty with
      | .error refusal => (.error refusal, r)
      | .ok started =>
          startEach rest { started with
            launchers := started.launchers ++ [(duty.spec r.world.settings).name] }

def start (r : Run) : Except Refusal Unit × Run :=
  startEach Duty.launchers r

def startDisplay (r : Run) : Except Refusal Run :=
  r.enlist
    { name := "display"
      period := r.world.settings.displayPeriod
      priority := r.world.settings.displayPriority
      activation := .now }
    fun _ => .display

/-!
## Going on
-/

def seconds (r : Run) : Float32 :=
  let second := 1000 * Cadence.millisecond
  Single.ofInt (r.now / second : Nat)
    + Single.ofInt (r.now % second : Nat) / Single.ofInt second

def conditions (r : Run) : Conditions :=
  { running := r.roster.running, accepting := r.roster.running, now := r.seconds }

def dueTime (r : Run) (e : Entry) : Option Nat :=
  match e.wakeAt, e.activity with
  | some time, _ => some time
  | none, .task t => if t.isStuck r.world then none else some r.now
  | none, .display => none

/-- The entry that goes on next, and when. -/
def next? (r : Run) : Option (Entry × Nat) :=
  (r.entries.filterMap fun e => (r.dueTime e).map fun time => (e, time)).foldl
    (fun best candidate =>
      match best with
      | some (e, time) => if time <= candidate.2 then some (e, time) else some candidate
      | none => some candidate)
    none

def replace (r : Run) (e : Entry) : Run :=
  { r with entries := r.entries.map fun old => if old.number = e.number then e else old }

def remove (r : Run) (e : Entry) : Run :=
  { r with entries := r.entries.filter fun old => old.number ≠ e.number }

/-- An entry waits for its next period, beginning now. -/
def awaitPeriod (r : Run) (e : Entry) : Run :=
  r.replace { e with
    cadence := e.cadence.await r.now
    wakeAt := some (e.cadence.activation r.now) }

def settle (r : Run) (e : Entry) (t : Task) : Run :=
  let e := { e with activity := .task t }
  match t.rest with
  | .busy => r.replace { e with wakeAt := some r.now }
  | .nextPeriod => r.awaitPeriod e
  | .cooldown =>
      r.replace { e with
        wakeAt := some (r.now + r.world.settings.attacker.cooldown * Cadence.millisecond) }
  | .parked => r.replace { e with wakeAt := none }
  | .over => r.remove e

def stepTask (r : Run) (e : Entry) (t : Task) : Run :=
  let c := r.conditions
  let (after, world) := t.step c r.world
  let moved := { r with world }.settle e after
  match t.starts? c with
  | none => moved
  | some id =>
      match moved.begin (.flight id) with
      | .ok started => started
      | .error _ => moved

def stepDisplay (r : Run) (e : Entry) : Run :=
  if r.roster.running then
    { r with latest := some (Snapshot.ofWorld r.world) }.awaitPeriod e
  else r.remove e

def goOn (r : Run) (e : Entry) : Run :=
  match e.activity with
  | .task t => r.stepTask e t
  | .display => r.stepDisplay e

def advanceSteps (time : Nat) : Nat -> Run -> Run
  | 0, r => r
  | n + 1, r =>
      match r.next? with
      | some (e, due) =>
          if due <= time then advanceSteps time n ({ r with now := max r.now due }.goOn e)
          else { r with now := max r.now time }
      | none => { r with now := max r.now time }

def drainSteps : Nat -> Run -> Run
  | 0, r => r
  | n + 1, r =>
      match r.next? with
      | some (e, due) => drainSteps n ({ r with now := max r.now due }.goOn e)
      | none => r

/-- Steps that no run needs at once. -/
def longest : Nat := 100000000

def advance (r : Run) (time : Nat) : Run :=
  advanceSteps time longest r

def drain (r : Run) : Run :=
  let drained := drainSteps longest r
  { drained with roster := drained.roster.takeBatch.2 }

def pending (r : Run) : Nat :=
  r.roster.pending fun number => !(r.entries.any fun e => e.number = number)

/-!
## Operating
-/

def request (r : Run) : Bool × Run :=
  let (admitted, admission) := r.world.admission.request
  (admitted, { r with world := { r.world with admission } })

def requestStop (r : Run) : Run :=
  { r with roster := r.roster.stop }

/-- Ends the run: missiles in flight clear themselves and return their slots. -/
def stop (r : Run) : Run :=
  let r := r.requestStop
  { r with world := r.world.close }

def isDrawing (r : Run) : Bool :=
  r.entries.any fun e =>
    match e.activity, e.wakeAt with
    | .task t, none => t.isStuck r.world && t = .attack .parked
    | _, _ => false

def awaitDrawer : Nat -> Run -> Run
  | 0, r => r
  | n + 1, r =>
      if r.isDrawing then r
      else
        match r.next? with
        | some (e, due) => awaitDrawer n ({ r with now := max r.now due }.goOn e)
        | none => r

end Run
end AirDefense

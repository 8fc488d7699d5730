import AirDefense.Schedule.Cadence

/-!
# Rosters

The tasks that a schedule has started and not yet joined.  Starting a task is
three steps: the running flag is looked at, the task is started under the next
number, and its handle is put on the roster.  Whoever joins all tasks takes the
handles off in batches until a batch is empty.
-/

namespace AirDefense

inductive Activation where
  | now
  /-- After one full period. -/
  | deferred
deriving DecidableEq, Repr, Inhabited

namespace Activation

def name : Activation -> String
  | now => "Now"
  | deferred => "Deferred"

end Activation

structure TaskSpec where
  name : String
  period : Nat
  /-- Kept on record; nothing depends on it. -/
  priority : Nat
  activation : Activation
deriving DecidableEq, Repr

structure Refusal where
  name : String
deriving DecidableEq, Repr

namespace Refusal

def message (r : Refusal) : String :=
  s!"scheduler is stopped; refusing to start {r.name}"

end Refusal

structure Roster where
  running : Bool
  nextTask : Nat
  /-- Tasks that nobody has taken off yet, in the order they were put on. -/
  handles : List Nat
deriving DecidableEq, Repr

namespace Roster

def empty : Roster :=
  { running := true, nextTask := 0, handles := [] }

def stop (r : Roster) : Roster :=
  { r with running := false }

/-- The first step of starting a task. -/
def allow (r : Roster) (name : String) : Except Refusal Unit :=
  if r.running then .ok () else .error ⟨name⟩

/-- The second step: the task gets its number. -/
def begin (r : Roster) : Nat × Roster :=
  (r.nextTask, { r with nextTask := r.nextTask + 1 })

/-- The third step: its handle goes on the roster. -/
def enlist (r : Roster) (task : Nat) : Roster :=
  { r with handles := r.handles ++ [task] }

def start (r : Roster) (name : String) : Except Refusal (Nat × Roster) := do
  r.allow name
  let (task, r) := r.begin
  return (task, r.enlist task)

def takeBatch (r : Roster) : List Nat × Roster :=
  (r.handles, { r with handles := [] })

def pending (r : Roster) (finished : Nat -> Bool) : Nat :=
  (r.handles.filter fun task => !finished task).length

/-!
## Joining
-/

inductive Joining where
  | gathering
  | awaiting (batch : List Nat)
  | returned
deriving DecidableEq, Repr

namespace Joining

/-- One step; `finished` tells which tasks have finished by now. -/
def step (j : Joining) (finished : Nat -> Bool) (r : Roster) : Joining × Roster :=
  match j with
  | gathering =>
      match r.takeBatch with
      | ([], r) => (returned, r)
      | (batch, r) => (awaiting batch, r)
  | awaiting [] => (gathering, r)
  | awaiting (task :: rest) => (if finished task then awaiting rest else j, r)
  | returned => (j, r)

end Joining
end Roster
end AirDefense

import AirDefense.Number.Single

/-!
# Cadence

When a periodic task goes on.  Time is counted in nanoseconds from some origin.
A task that comes in time waits for its deadline, and the next deadline is one
period later; a task that comes too late goes on at once, and the next deadline
is one period after that, so that lost periods are not made up for.
-/

namespace AirDefense

structure Cadence where
  period : Nat
  deadline : Nat
  activations : Nat
  overruns : Nat
deriving DecidableEq, Repr

namespace Cadence

def millisecond : Nat := 1000000

/-- The first deadline is one period after the start. -/
def start (period now : Nat) : Cadence :=
  { period, deadline := now + period, activations := 0, overruns := 0 }

def isLate (c : Cadence) (now : Nat) : Bool :=
  c.deadline < now

def activation (c : Cadence) (now : Nat) : Nat :=
  if c.isLate now then now else c.deadline

/-- Waits, beginning at `now`. -/
def await (c : Cadence) (now : Nat) : Cadence :=
  { c with
    deadline := c.activation now + c.period
    activations := c.activations + 1
    overruns := c.overruns + if c.isLate now then 1 else 0 }

def millisecondsPerSecond : Float32 := Single.ofInt 1000

/-- The period in seconds, from its whole milliseconds. -/
def deltaTime (c : Cadence) : Float32 :=
  Single.ofInt (c.period / millisecond : Nat) / millisecondsPerSecond

end Cadence

structure TaskContext where
  name : String
  cadence : Cadence
  running : Bool
deriving DecidableEq, Repr

namespace TaskContext

def detached (name : String) (period now : Nat) : TaskContext :=
  { name, cadence := .start period now, running := true }

def stop (c : TaskContext) : TaskContext :=
  { c with running := false }

end TaskContext
end AirDefense

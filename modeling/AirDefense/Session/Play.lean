import AirDefense.Report
import AirDefense.Session.Command
import AirDefense.Session.Run

/-!
# Sessions

A session is a run that listens to an operator.  It ends when the operator
quits, when its time is up, or, if it is not timed, when its input ends.
-/

namespace AirDefense

structure Session where
  run : Run
  /-- When the session ends; none if it is not timed. -/
  deadline : Option Nat
  requests : Nat
  admitted : Nat

inductive Finding where
  | heard (h : Heard)
  | silence
  | disconnected
deriving DecidableEq, Repr

namespace Session

def begin (r : Run) (length : Option Nat) : Except Refusal Session := do
  let (started, r) := r.start
  started
  let r <- r.startDisplay
  return { run := r, deadline := length.map (r.now + ·), requests := 0, admitted := 0 }

def isExpired (s : Session) : Bool :=
  s.deadline.any (· <= s.run.now)

def pollInterval : Nat := 50 * Cadence.millisecond

def launch (s : Session) : Session :=
  let (admitted, run) := s.run.request
  { s with
    run
    requests := s.requests + 1
    admitted := s.admitted + if admitted then 1 else 0 }

inductive Turn where
  | again (pause : Nat)
  | ending
deriving DecidableEq, Repr

/-- Only a timed session goes on without input. -/
def withoutInput (s : Session) : Turn :=
  if s.deadline.isSome then .again pollInterval else .ending

def take (s : Session) : Finding -> Session × Turn
  | .heard (.operator .launchAttack) => (s.launch, .again 0)
  | .heard (.operator .quit) => (s, .ending)
  | .heard .closed => (s, s.withoutInput)
  | .silence => (s, .again pollInterval)
  | .disconnected => (s, s.withoutInput)

def finish (s : Session) : Session :=
  { s with run := s.run.stop.drain }

/-!
## Known input
-/

def findingOf (keepsOpen : Bool) : List Heard -> Finding
  | h :: _ => .heard h
  | [] => if keepsOpen then .silence else .disconnected

def playSteps (keepsOpen : Bool) : Nat -> List Heard -> Session -> Session
  | 0, _, s => s
  | n + 1, input, s =>
      if s.isExpired then s
      else
        match s.take (findingOf keepsOpen input) with
        | (s, .ending) => s
        | (s, .again pause) =>
            playSteps keepsOpen n input.tail { s with run := s.run.advance (s.run.now + pause) }

def play (s : Session) (input : List Heard) (keepsOpen : Bool) : Session :=
  (playSteps keepsOpen Run.longest input s).finish

end Session

/-!
## Summaries
-/

structure Summary where
  requests : Nat
  admitted : Nat
  elapsed : Nat
  final : Snapshot
deriving DecidableEq, Repr

namespace Summary

def ofSession (s : Session) : Summary :=
  { requests := s.requests
    admitted := s.admitted
    elapsed := s.run.now / Cadence.millisecond
    final := Snapshot.ofWorld s.run.world }

def toJson (s : Summary) : Json.Value :=
  .record
    [ ("requests", .ofNat s.requests),
      ("admitted", .ofNat s.admitted),
      ("elapsed_ms", .ofNat s.elapsed),
      ("final_snapshot", s.final.toJson) ]

end Summary
end AirDefense

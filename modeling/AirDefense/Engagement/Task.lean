import AirDefense.Engagement.Flight
import AirDefense.Engagement.Launcher
import AirDefense.Schedule.Roster

/-!
# Tasks of a run

Two launchers and one flight for each missile.  A task has a duty, which is what
it was started for, and a state.  It works in steps until it has to wait: for
its next period, for a pause to end, or for a slot.
-/

namespace AirDefense

inductive Duty where
  | attack
  | defence
  | flight (id : MissileId)
deriving DecidableEq, Repr

namespace Duty

def flightSpec (s : Settings) (id : MissileId) : TaskSpec :=
  match id.side with
  | .attacker =>
      { name := s!"attacker-{id.slot}"
        period := s.attacker.missilePeriod
        priority := s.attacker.missilePriority
        activation := .now }
  | .defender =>
      { name := s!"interceptor-{id.slot}"
        period := s.defender.missilePeriod
        priority := s.defender.missilePriority
        activation := .now }

def spec (s : Settings) : Duty -> TaskSpec
  | attack =>
      { name := "attacker-launcher"
        period := s.attacker.launcherPeriod
        priority := s.attacker.launcherPriority
        activation := .now }
  | defence =>
      { name := "defender-launcher"
        period := s.defender.launcherPeriod
        priority := s.defender.launcherPriority
        activation := .now }
  | flight id => flightSpec s id

def launchers : List Duty := [attack, defence]

end Duty

inductive Rest where
  | busy
  | nextPeriod
  | cooldown
  | parked
  | over
deriving DecidableEq, Repr

inductive Task where
  | attack (l : AttackLauncher)
  | defence (l : DefenceLauncher)
  | checking (f : Flight)
  | flying (f : Flight)
  | pausing (f : Flight)
  | landed (f : Flight)
deriving DecidableEq

namespace Duty

/-- The task at its start; flights count `dt` seconds a period. -/
def begin (dt : Float32) : Duty -> Task
  | attack => .attack .idle
  | defence => .defence .idle
  | flight id => .checking (.start id dt)

end Duty

namespace Task

/-!
## Steps
-/

def afterStep (f : Flight) : Task :=
  if !f.isSettled then flying f
  else if f.fault?.isSome || f.phase = .cleared then landed f
  else pausing f

/--
One step.  At the head of each period a flight whose run has been asked to stop
marks its own missile.
-/
def step (c : Conditions) (t : Task) (w : World) : Task × World :=
  match t with
  | attack l =>
      let (l, w) := l.step c w
      (attack l, w)
  | defence l =>
      let (l, w) := l.step c w
      (defence l, w)
  | checking f => (flying f, if c.running then w else w.markDeleted f.id)
  | flying f =>
      let (f, w) := f.step w
      (afterStep f, w)
  | pausing f => (checking f, w)
  | landed f => (landed f, w)

def starts? (c : Conditions) : Task -> Option MissileId
  | attack l => l.starts? c
  | defence l => l.starts? c
  | _ => none

/-!
## Waiting
-/

def restOfAttack : AttackLauncher -> Rest
  | .cooling => .cooldown
  | .parked => .parked
  | .ended => .over
  | .broken _ => .over
  | _ => .busy

def restOfDefence : DefenceLauncher -> Rest
  | .attempting (.pausing _) => .nextPeriod
  | .attempting .queued => .parked
  | .attempting _ => .busy
  | .pausing => .nextPeriod
  | .ended => .over
  | .broken _ => .over
  | .idle => .busy

def rest : Task -> Rest
  | attack l => restOfAttack l
  | defence l => restOfDefence l
  | checking _ => .busy
  | flying _ => .busy
  | pausing _ => .nextPeriod
  | landed _ => .over

/-- A task that waits for a slot would not find one now. -/
def isStuck (t : Task) (w : World) : Bool :=
  match t with
  | attack .parked => w.admission.readyLength = 0 && !w.admission.closed
  | defence (.attempting .queued) => w.pool.handed.isEmpty && !w.pool.closed
  | _ => false

def fault? : Task -> Option Fault
  | attack (.broken fault) => some fault
  | defence (.broken fault) => some fault
  | landed f => f.fault?
  | _ => none

end Task
end AirDefense

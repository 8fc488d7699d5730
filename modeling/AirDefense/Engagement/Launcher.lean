import AirDefense.Engagement.Attempt

/-!
# Launchers

The attackers' launcher draws an admitted slot, launches an attacker from it and
pauses.  The defence's launcher makes one attempt a period.  Both stop when they
find that the run is asked to stop.
-/

namespace AirDefense

inductive AttackLauncher where
  | idle
  | drawing
  | parked
  | drawn (slot : Nat)
  | armed (slot : Nat)
  | loaded (slot : Nat) (missile : Missile)
  | launching (id : MissileId)
  | cooling
  | retreating (id : MissileId)
  | returning (slot : Nat)
  | ended
  | broken (fault : Fault)
deriving DecidableEq

namespace AttackLauncher

def take : SlotAnswer -> AttackLauncher
  | .granted slot => drawn slot
  | .refused => ended
  | .parked => parked

def step (c : Conditions) (l : AttackLauncher) (w : World) : AttackLauncher × World :=
  match l with
  | idle => (if c.running then drawing else ended, w)
  | drawing =>
      let (answer, admission) := w.admission.enter
      (take answer, { w with admission })
  | parked =>
      let (answer, admission) := w.admission.wake
      (take answer, { w with admission })
  | drawn slot => (if c.running then armed slot else returning slot, w)
  | armed slot =>
      match w.drawAttacker with
      | (.ok m, w) => (loaded slot m, w)
      | (.error fault, w) => (broken fault, w)
  | loaded slot m =>
      match w.spawn? .attacker slot m with
      | .ok (id, w) => (launching id, w)
      | .error fault => (broken fault, w)
  | launching id => (if c.accepting then cooling else retreating id, w)
  | cooling => (idle, w)
  | retreating id =>
      match w.vacate? id with
      | .ok (_, w) => (returning id.slot, w)
      | .error fault => (broken fault, w)
  | returning slot =>
      match w.returnSlot? .attacker slot with
      | .ok w => (ended, w)
      | .error fault => (broken fault, w)
  | ended => (l, w)
  | broken _ => (l, w)

def starts? (c : Conditions) : AttackLauncher -> Option MissileId
  | launching id => if c.accepting then some id else none
  | _ => none

end AttackLauncher

inductive DefenceLauncher where
  | idle
  | attempting (attempt : Attempt)
  | pausing
  | ended
  | broken (fault : Fault)
deriving DecidableEq

namespace DefenceLauncher

def afterAttempt : Attempt -> DefenceLauncher
  | .ended _ => pausing
  | .broken fault => broken fault
  | a => attempting a

def step (c : Conditions) (l : DefenceLauncher) (w : World) : DefenceLauncher × World :=
  match l with
  | idle => (if c.running then attempting .seeking else ended, w)
  | attempting a =>
      let (a, w) := a.step c w
      (afterAttempt a, w)
  | pausing => (idle, w)
  | ended => (l, w)
  | broken _ => (l, w)

def starts? (c : Conditions) : DefenceLauncher -> Option MissileId
  | attempting a => a.starts? c
  | _ => none

end DefenceLauncher
end AirDefense

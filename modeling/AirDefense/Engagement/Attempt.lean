import AirDefense.Engagement.World

/-!
# Attempts at an interception

One attempt of the defence: take a slot, reserve an interceptor, claim an
attacker, watch it until its speed settles, predict where it can be met, and
launch.  An attempt that fails on the way takes back what it did.
-/

namespace AirDefense

structure Conditions where
  running : Bool
  /-- A task that is started now is accepted. -/
  accepting : Bool
  now : Float32

structure Watch where
  interceptor : MissileId
  claim : Claim
  log : SampleLog Float32
  remaining : Nat
deriving DecidableEq

inductive Attempt where
  | seeking
  | queued
  | equipped (slot : Nat)
  | reserved (interceptor : MissileId)
  | watching (watch : Watch)
  | pausing (watch : Watch)
  | watched (watch : Watch)
  | aiming (watch : Watch)
  | launching (interceptor : MissileId)
  | retreating (interceptor : MissileId)
  | returning (slot : Nat)
  | ended (launched : Option MissileId)
  | broken (fault : Fault)
deriving DecidableEq

namespace Attempt

def take (answer : SlotAnswer) : Attempt :=
  match answer with
  | .granted slot => equipped slot
  | .refused => ended none
  | .parked => queued

def launchPoint? (s : Settings) (watch : Watch) : Except Fault Point := do
  let bounds <- s.launchBounds?
  let geometry := s.geometry bounds
  let prediction :=
    predict s.predictor.searchLimits geometry (Single.ofInt watch.claim.position.x)
      watch.log.samples
  let x <- s.clampLaunch? bounds prediction.x
  return ⟨x, geometry.launchY⟩

def reserve (slot : Nat) (w : World) : Attempt × World :=
  let m := Missile.launchedAt .defender .origin (Single.ofInt 0) w.settings.defender.angle
  match w.spawn? .defender slot m with
  | .ok (id, w) => (reserved id, w)
  | .error fault => (broken fault, w)

def claimTarget (interceptor : MissileId) (w : World) : Attempt × World :=
  match Claim.take w.grid w.fleet interceptor with
  | (none, _, _) => (retreating interceptor, w)
  | (some claim, grid, fleet) =>
      (watching
        { interceptor, claim, log := .empty, remaining := w.settings.predictor.maxSamples },
        { w with grid, fleet })

def readTarget (c : Conditions) (watch : Watch) (w : World) : Attempt :=
  match watch.remaining with
  | 0 => watched watch
  | remaining + 1 =>
      match w.fleet.attackers.find? watch.claim.target with
      | none => watched watch
      | some m =>
          if m.deleted then watched watch
          else
            match watch.log.offer w.settings.predictor.sampleLimits
                ⟨m.point.x, m.point.y, c.now⟩ with
            | (true, log) => watched { watch with log }
            | (false, log) => pausing { watch with log, remaining }

/-- A reading, provided there can be room for all that may be made. -/
def observe (c : Conditions) (watch : Watch) (w : World) : Attempt :=
  if PredictorSettings.sampleRoom < w.settings.predictor.maxSamples then broken .capacityOverflow
  else readTarget c watch w

def aim (watch : Watch) (w : World) : Attempt × World :=
  match launchPoint? w.settings watch with
  | .error fault => (broken fault, w)
  | .ok point =>
      let d := w.settings.defender
      (launching watch.interceptor,
        w.setArena .defender (w.fleet.defenders.update watch.interceptor fun m =>
          m.launchFrom point d.speed d.angle))

def step (c : Conditions) (a : Attempt) (w : World) : Attempt × World :=
  match a with
  | seeking =>
      let (answer, pool) := w.pool.enter
      (take answer, { w with pool })
  | queued =>
      let (answer, pool) := w.pool.wake
      (take answer, { w with pool })
  | equipped slot => reserve slot w
  | reserved id => (w.inGrid? .low (claimTarget id)).getD (a, w)
  | watching watch => (observe c watch w, w)
  | pausing watch => (if c.running then watching watch else watched watch, w)
  | watched watch =>
      (if c.running then aiming watch else retreating watch.interceptor, w)
  | aiming watch => aim watch w
  | launching id => (if c.accepting then ended (some id) else retreating id, w)
  | retreating id =>
      match w.vacate? id with
      | .ok (_, w) => (returning id.slot, w)
      | .error fault => (broken fault, w)
  | returning slot =>
      match w.returnSlot? .defender slot with
      | .ok w => (ended none, w)
      | .error fault => (broken fault, w)
  | ended _ => (a, w)
  | broken _ => (a, w)

/-- The missile whose flight starts with the next step. -/
def starts? (c : Conditions) : Attempt -> Option MissileId
  | launching id => if c.accepting then some id else none
  | _ => none

def isOver : Attempt -> Bool
  | ended _ => true
  | broken _ => true
  | _ => false

end Attempt
end AirDefense

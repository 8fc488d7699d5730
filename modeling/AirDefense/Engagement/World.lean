import AirDefense.Field.Lock
import AirDefense.Fleet.Claim
import AirDefense.Intercept.Launch
import AirDefense.Settings.Validation
import AirDefense.Slots.Admission
import AirDefense.Spawn.Draw

/-!
# The world

Everything the tasks of one run share: the grid behind its lock, both arenas,
the attackers' admission queue, the interceptors' slot pool and the key stream
of the spawn draws.

A task changes the world in sections.  A section on an arena, a queue or the
stream is one step; so is a section on the grid, which needs the lock to be
free.
-/

namespace AirDefense

structure World where
  settings : Settings
  grid : Grid
  lock : FieldLock
  fleet : Fleet
  admission : AdmissionQueue
  pool : SlotPool
  stream : KeyStream

namespace World

/-- A fresh world; the settings are not validated. -/
def ofSettings? (s : Settings) : Except Fault World := do
  let grid <- Grid.ofSettings? s.field
  let fleet <- Fleet.build? s.attacker.capacity s.defender.capacity
  let admission <- AdmissionQueue.ofCapacity? s.attacker.capacity
  let pool <- SlotPool.ofCapacity? s.defender.capacity
  return {
    settings := s
    grid
    lock := .idle
    fleet
    admission
    pool
    stream := .ofSeed s.seed }

/-!
## Sections
-/

/--
A section on the grid: the lock is taken, the section runs, and the lock is
given back.  There is no outcome while somebody else holds the lock.
-/
def inGrid? (w : World) (t : Tier) (act : World -> α × World) : Option (α × World) :=
  match w.lock.enter t with
  | (some _, _) => none
  | (none, held) =>
      let (x, w) := act { w with lock := held }
      match w.lock.release? t with
      | .ok lock => some (x, { w with lock })
      | .error _ => some (x, w)

def setArena (w : World) (side : Side) (a : Arena) : World :=
  { w with fleet := w.fleet.setArena side a }

def markDeleted (w : World) (id : MissileId) : World :=
  { w with fleet := w.fleet.markDeleted id }

def spawn? (w : World) (side : Side) (slot : Nat) (m : Missile) :
    Except Fault (MissileId × World) := do
  let (id, arena) <- (w.fleet.arena side).spawn? slot m
  return (id, w.setArena side arena)

def vacate? (w : World) (id : MissileId) : Except Fault (Missile × World) := do
  let (m, arena) <- (w.fleet.arena id.side).vacate? id
  return (m, w.setArena id.side arena)

def returnSlot? (w : World) (side : Side) (slot : Nat) : Except Fault World :=
  match side with
  | .attacker => do
      let admission <- w.admission.release? slot
      return { w with admission }
  | .defender => do
      let pool <- w.pool.release? slot
      return { w with pool }

/--
Takes a slot of a side without waiting: an attackers' slot is requested by a
launcher that then draws it.
-/
def takeSlot (w : World) : Side -> Option Nat × World
  | .defender =>
      let (slot, pool) := w.pool.tryAcquire
      (slot, { w with pool })
  | .attacker =>
      if w.admission.closed || w.admission.freeLength = 0 then (none, w)
      else
        match w.admission.enter.2.request.2.wake with
        | (.granted slot, admission) => (some slot, { w with admission })
        | (_, admission) => (none, { w with admission })

/-- Draws an attacker; a draw that faults has used up what it read. -/
def drawAttacker (w : World) : Except Fault Missile × World :=
  let (m, stream) := Draw.attacker w.settings.field w.settings.attacker w.stream
  (m, { w with stream })

def launchAttacker (w : World) (slot : Nat) : Except Fault MissileId × World :=
  match w.drawAttacker with
  | (.error f, w) => (.error f, w)
  | (.ok m, w) =>
      match w.spawn? .attacker slot m with
      | .error f => (.error f, w)
      | .ok (id, w) => (.ok id, w)

def abandon (w : World) (id : MissileId) : Except Fault Unit × World :=
  match w.vacate? id with
  | .error f => (.error f, w)
  | .ok (_, vacated) =>
      match vacated.returnSlot? id.side id.slot with
      | .error f => (.error f, vacated)
      | .ok returned => (.ok (), returned)

def close (w : World) : World :=
  { w with admission := w.admission.close, pool := w.pool.close }

end World
end AirDefense

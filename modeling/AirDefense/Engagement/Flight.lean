import AirDefense.Engagement.World

/-!
# Flights

The task of one missile, from its first move to the return of its slot.  Once a
period a flight moves its missile, or ends it: it clears its cell, takes the
missile out of the arena, and gives the slot back, in this order.

One period is a few steps, each of them one section on the world.  What other
tasks do between two steps is what makes a flight find its missile deleted
after it has moved.
-/

namespace AirDefense

inductive Phase where
  | spawned
  | moving
  /-- It hit something in its own move; one period is left to clear up. -/
  | collided
  /-- Somebody else asked it to stop. -/
  | externallyDeleted
  | cleared
deriving DecidableEq, Repr, Inhabited

namespace Phase

def name : Phase -> String
  | spawned => "Spawned"
  | moving => "Moving"
  | collided => "Collided"
  | externallyDeleted => "ExternallyDeleted"
  | cleared => "Cleared"

end Phase

/-- What a flight does next within its period. -/
inductive FlightStage where
  | ready
  /-- The missile has moved; the grid does not know yet. -/
  | moved (leg : Leg)
  /-- The missile has to go; its cell is looked up. -/
  | ending
  | clearing (cell : Position)
  | vacating
  | returning
  | broken (fault : Fault)
deriving DecidableEq, Repr

structure Flight where
  id : MissileId
  dt : Float32
  phase : Phase
  stage : FlightStage
deriving DecidableEq

namespace Flight

def start (id : MissileId) (dt : Float32) : Flight :=
  { id, dt, phase := .spawned, stage := .ready }

/-- The cell of a missile at its new position; an attacker keeps its mark. -/
def movedCell (previous : Option Cell) (id : MissileId) : Cell :=
  match id.side, previous with
  | .attacker, some (.attacker _ trackedBy) => .attacker id trackedBy
  | _, _ => .missile id

/-!
## Steps
-/

def breakOff (f : Flight) (fault : Fault) : Flight :=
  { f with stage := .broken fault }

def stop (f : Flight) : Flight :=
  { f with phase := .externallyDeleted, stage := .ending }

def depart (f : Flight) (w : World) : Flight × World :=
  match (w.fleet.arena f.id.side).advance f.id f.dt with
  | none => (f.stop, w)
  | some (leg, arena) => ({ f with stage := .moved leg }, w.setArena f.id.side arena)

/--
Moves the missile on the grid, with the grid held: the old cell is cleared
first, and a missile that was destroyed in the meantime goes no further.
-/
def enterCell (f : Flight) (leg : Leg) (w : World) : Flight × World :=
  let (previous, grid) := w.grid.clear leg.origin f.id
  let cleared := { w with grid }
  if !(cleared.fleet.isActive f.id) then (f.stop, cleared)
  else
    match cleared.grid.resolve? cleared.fleet f.id leg.destination
        cleared.settings.field.missileRadius with
    | .error fault => (f.breakOff fault, cleared)
    | .ok (some _, grid, fleet) =>
        ({ f with phase := .collided, stage := .ready }, { cleared with grid, fleet })
    | .ok (none, _, _) =>
        match cleared.grid.put? leg.destination (movedCell previous f.id) with
        | .error fault => (f.breakOff fault, cleared)
        | .ok grid => ({ f with phase := .moving, stage := .ready }, { cleared with grid })

def lookUp (f : Flight) (w : World) : Flight × World :=
  match w.fleet.find? f.id with
  | some m => ({ f with stage := .clearing m.cell }, w)
  | none => ({ f with stage := .vacating }, w)

def clearCell (f : Flight) (cell : Position) (w : World) : Flight × World :=
  ({ f with stage := .vacating }, { w with grid := (w.grid.clear cell f.id).2 })

def vacate (f : Flight) (w : World) : Flight × World :=
  match w.vacate? f.id with
  | .ok (_, w) => ({ f with stage := .returning }, w)
  | .error fault => (f.breakOff fault, w)

def giveBack (f : Flight) (w : World) : Flight × World :=
  match w.returnSlot? f.id.side f.id.slot with
  | .ok w => ({ f with phase := .cleared, stage := .ready }, w)
  | .error fault => (f.breakOff fault, w)

/-- One step.  A flight that needs the grid while it is held stays as it is. -/
def step (f : Flight) (w : World) : Flight × World :=
  match f.stage with
  | .ready =>
      match f.phase with
      | .spawned => f.depart w
      | .moving => f.depart w
      | .collided => f.lookUp w
      | .externallyDeleted => f.lookUp w
      | .cleared => (f, w)
  | .moved leg => (w.inGrid? .middle (f.enterCell leg)).getD (f, w)
  | .ending => f.lookUp w
  | .clearing cell => (w.inGrid? .middle (f.clearCell cell)).getD (f, w)
  | .vacating => f.vacate w
  | .returning => f.giveBack w
  | .broken _ => (f, w)

/-!
## Periods
-/

def isSettled (f : Flight) : Bool :=
  match f.stage with
  | .ready => true
  | .broken _ => true
  | _ => false

def steps : Nat -> Flight -> World -> Flight × World
  | 0, f, w => (f, w)
  | n + 1, f, w =>
      let (f, w) := f.step w
      if f.isSettled then (f, w) else steps n f w

def longestPeriod : Nat := 6

def period (f : Flight) (w : World) : Flight × World :=
  steps longestPeriod f w

/-- Several periods: the phases they end in, up to the first one that breaks off. -/
def periods : Nat -> Flight -> World -> List Phase × Flight × World
  | 0, f, w => ([], f, w)
  | n + 1, f, w =>
      let (f, w) := f.period w
      match f.stage with
      | .broken _ => ([], f, w)
      | _ =>
          let (phases, last, w) := periods n f w
          (f.phase :: phases, last, w)

def resume (f : Flight) : Flight :=
  { f with stage := .ready }

def fault? (f : Flight) : Option Fault :=
  match f.stage with
  | .broken fault => some fault
  | _ => none

end Flight
end AirDefense

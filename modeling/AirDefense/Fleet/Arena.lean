import AirDefense.Fault
import AirDefense.Fleet.Missile

/-!
# Arenas

An arena holds the missiles of one side, one a slot.  A slot counts its
missiles, and a missile is addressed by slot and count: an address that was
kept too long names nothing.
-/

namespace AirDefense

structure ArenaSlot where
  generation : UInt32
  missile : Option Missile
deriving DecidableEq

namespace ArenaSlot

def vacant : ArenaSlot := ⟨0, none⟩

end ArenaSlot

structure Arena where
  side : Side
  slots : Array ArenaSlot
deriving DecidableEq

structure Leg where
  origin : Position
  destination : Position
deriving DecidableEq, Repr

namespace Arena

def ofCapacity (side : Side) (capacity : Nat) : Arena :=
  { side, slots := Array.replicate capacity .vacant }

/-- Slots that there can be room for: sixty-four bytes each, and less than 2 ^ 63 in all. -/
def room : Nat := 144115188075855871

/-- An arena of so many slots, if there can be room for them. -/
def build? (side : Side) (capacity : Nat) : Except Fault Arena :=
  if room < capacity then .error .capacityOverflow else .ok (.ofCapacity side capacity)

def capacity (a : Arena) : Nat := a.slots.size

/-- The missile that `id` names, if it is still there. -/
def find? (a : Arena) (id : MissileId) : Option Missile :=
  if id.side = a.side then
    match a.slots[id.slot]? with
    | some slot => if slot.generation = id.generation then slot.missile else none
    | none => none
  else none

def isLive (a : Arena) (id : MissileId) : Bool :=
  (a.find? id).isSome

def isActive (a : Arena) (id : MissileId) : Bool :=
  (a.find? id).any fun m => !m.deleted

def putMissile (a : Arena) (slot : Nat) (missile : Option Missile) : Arena :=
  { a with slots := a.slots.modify slot fun s => { s with missile } }

def update (a : Arena) (id : MissileId) (f : Missile -> Missile) : Arena :=
  match a.find? id with
  | some m => a.putMissile id.slot (some (f m))
  | none => a

def markDeleted (a : Arena) (id : MissileId) : Arena :=
  a.update id fun m => { m with deleted := true }

def assign (a : Arena) (id : MissileId) (target : Option MissileId) : Arena :=
  a.update id fun m => { m with target }

def spawn? (a : Arena) (slot : Nat) (m : Missile) : Except Fault (MissileId × Arena) :=
  if m.side ≠ a.side then .error .wrongArena
  else
    match a.slots[slot]? with
    | none => .error (.noSuchSlot a.side slot)
    | some s =>
        if s.missile.isSome then .error (.slotOccupied a.side slot)
        else
          let generation := s.generation + 1
          .ok (⟨a.side, slot, generation⟩,
            { a with slots := a.slots.setIfInBounds slot ⟨generation, some m⟩ })

def advance (a : Arena) (id : MissileId) (dt : Float32) : Option (Leg × Arena) :=
  match a.find? id with
  | some m =>
      if m.deleted then none
      else
        let moved := m.fly dt
        some (⟨m.cell, moved.cell⟩, a.putMissile id.slot (some moved))
  | none => none

/-- Takes a missile out of its slot.  Only slot and count are looked at. -/
def vacate? (a : Arena) (id : MissileId) : Except Fault (Missile × Arena) :=
  match a.slots[id.slot]? with
  | none => .error (.noSuchSlot a.side id.slot)
  | some s =>
      if s.generation ≠ id.generation then .error (.vacatedAfterReuse id)
      else
        match s.missile with
        | none => .error (.vacatedTwice id)
        | some m => .ok (m, a.putMissile id.slot none)

def liveIds (a : Arena) : List MissileId :=
  (List.range a.slots.size).filterMap fun slot =>
    match a.slots[slot]? with
    | some s => s.missile.map fun _ => ⟨a.side, slot, s.generation⟩
    | none => none

end Arena

structure Fleet where
  attackers : Arena
  defenders : Arena
deriving DecidableEq

namespace Fleet

def ofCapacities (attackers defenders : Nat) : Fleet :=
  { attackers := .ofCapacity .attacker attackers
    defenders := .ofCapacity .defender defenders }

def build? (attackers defenders : Nat) : Except Fault Fleet := do
  let attackers <- Arena.build? .attacker attackers
  let defenders <- Arena.build? .defender defenders
  return { attackers, defenders }

def arena (f : Fleet) : Side -> Arena
  | .attacker => f.attackers
  | .defender => f.defenders

def setArena (f : Fleet) (side : Side) (a : Arena) : Fleet :=
  match side with
  | .attacker => { f with attackers := a }
  | .defender => { f with defenders := a }

def find? (f : Fleet) (id : MissileId) : Option Missile :=
  (f.arena id.side).find? id

def isActive (f : Fleet) (id : MissileId) : Bool :=
  (f.arena id.side).isActive id

def markDeleted (f : Fleet) (id : MissileId) : Fleet :=
  f.setArena id.side ((f.arena id.side).markDeleted id)

def isEngaged (f : Fleet) (target : MissileId) : Bool :=
  f.defenders.liveIds.any fun d =>
    (f.defenders.find? d).any fun m => m.target = some target

def liveCount (f : Fleet) : Nat :=
  f.attackers.liveIds.length + f.defenders.liveIds.length

end Fleet
end AirDefense

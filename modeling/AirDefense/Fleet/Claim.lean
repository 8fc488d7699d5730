import AirDefense.Field.Collision

/-!
# Claims

An interceptor claims the first attacker, row by row, that is not claimed yet.
A claim is written twice: into the attacker's cell and into the interceptor.
It lapses when the interceptor is gone.
-/

namespace AirDefense

structure Claim where
  target : MissileId
  position : Position
deriving DecidableEq, Repr

namespace Fleet

/-- Neither the mark in the cell nor any interceptor stands for a live claim. -/
def isUnclaimed (f : Fleet) (target : MissileId) (trackedBy : Option MissileId) : Bool :=
  f.attackers.isActive target
    && !(trackedBy.any f.defenders.isLive)
    && !(f.isEngaged target)

end Fleet

namespace Claim

def ofCell (f : Fleet) : Position × Cell -> Option Claim
  | (p, .attacker id trackedBy) =>
      if f.isUnclaimed id trackedBy then some ⟨id, p⟩ else none
  | _ => none

def first? (g : Grid) (f : Fleet) : Option Claim :=
  g.missileEntries.findSome? (ofCell f)

def take (g : Grid) (f : Fleet) (interceptor : MissileId) :
    Option Claim × Grid × Fleet :=
  match first? g f with
  | none => (none, g, f)
  | some claim =>
      (some claim,
        g.stamp claim.position interceptor,
        { f with defenders := f.defenders.assign interceptor (some claim.target) })

end Claim
end AirDefense

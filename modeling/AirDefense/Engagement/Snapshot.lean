import AirDefense.Engagement.World

/-!
# Snapshots

What an observer is shown: the score, the missiles on the grid, and how many
slots are free.
-/

namespace AirDefense

structure MissileView where
  side : Side
  slot : Nat
  x : Int
  y : Int
  /-- Attackers only: a live interceptor has claimed it. -/
  tracked : Bool
deriving DecidableEq, Repr, Inhabited

structure Snapshot where
  score : Score
  missiles : List MissileView
  attackerSlotsFree : Nat
  defenderSlotsFree : Nat
deriving DecidableEq, Repr, Inhabited

namespace MissileView

def ofCell? (f : Fleet) : Position × Cell -> Option MissileView
  | (p, .attacker id trackedBy) =>
      some ⟨id.side, id.slot, p.x, p.y, trackedBy.any f.defenders.isLive⟩
  | (p, .defender id) => some ⟨id.side, id.slot, p.x, p.y, false⟩
  | _ => none

end MissileView

namespace Snapshot

def missilesOf (g : Grid) (f : Fleet) : List MissileView :=
  g.missileEntries.filterMap (MissileView.ofCell? f)

def count (s : Snapshot) (side : Side) : Nat :=
  (s.missiles.filter fun m => m.side = side).length

/-!
## Taking a snapshot

The grid is held while the score, the missiles and the two numbers of free
slots are read one after the other.
-/

/-- How far a snapshot has come. -/
inductive Progress where
  | waiting
  | holding (score : Score) (missiles : List MissileView)
  | counting (score : Score) (missiles : List MissileView) (attackerSlotsFree : Nat)
  | releasing (snapshot : Snapshot)
  | done (snapshot : Snapshot)

namespace Progress

def step (p : Progress) (w : World) : Progress × World :=
  match p with
  | waiting =>
      match w.lock.enter .high with
      | (some _, _) => (p, w)
      | (none, lock) =>
          (holding w.grid.score (missilesOf w.grid w.fleet), { w with lock })
  | holding score missiles => (counting score missiles w.admission.freeLength, w)
  | counting score missiles free =>
      (releasing
        { score, missiles, attackerSlotsFree := free, defenderSlotsFree := w.pool.available },
        w)
  | releasing s =>
      match w.lock.release? .high with
      | .ok lock => (done s, { w with lock })
      | .error _ => (p, w)
  | done _ => (p, w)

end Progress

def ofWorld (w : World) : Snapshot :=
  { score := w.grid.score
    missiles := missilesOf w.grid w.fleet
    attackerSlotsFree := w.admission.freeLength
    defenderSlotsFree := w.pool.available }

end Snapshot
end AirDefense

import AirDefense.Field.Grid
import AirDefense.Fleet.Arena

/-!
# Collisions

What a missile runs into when it moves: the first obstacle, row by row, of the
square around its new position.  A missile that is hit is taken off the grid
and asked to stop.
-/

namespace AirDefense

inductive Collision where
  | offGrid
  | wall
  | goal
  /-- The mover destroyed a missile of the other side. -/
  | intercept (victim : MissileId)
  /-- The mover ran into a missile of its own side. -/
  | friendly (victim : MissileId)
deriving DecidableEq, Repr

namespace Grid

/-- The collision with a missile; its own cell means none to a mover. -/
def collisionWithMissile (mover id : MissileId) : Option Collision :=
  if id = mover then none
  else if id.side = mover.side.opponent then some (.intercept id)
  else some (.friendly id)

def collisionWith (mover : MissileId) : Cell -> Option Collision
  | .empty => none
  | .wall => some .wall
  | .goal => if mover.side = .attacker then some .goal else none
  | .attacker id _ => collisionWithMissile mover id
  | .defender id => collisionWithMissile mover id

def span (first last : Int) : List Int :=
  (List.range (last - first + 1).toNat).map fun (n : Nat) => first + n

def square? (g : Grid) (centre : Position) (radius : Int) : Except Fault (List Position) := do
  let left <- Bounded.sub? centre.x radius
  let right <- Bounded.add? centre.x radius
  let top <- Bounded.sub? centre.y radius
  let bottom <- Bounded.add? centre.y radius
  return (span (max top 0) (min bottom (g.height - 1))).flatMap fun y =>
    (span (max left 0) (min right (g.width - 1))).map fun x => ⟨x, y⟩

def firstCollision (g : Grid) (mover : MissileId) (ps : List Position) :
    Option (Position × Collision) :=
  ps.findSome? fun p =>
    ((g.cell? p).bind (collisionWith mover)).map fun c => (p, c)

def settle (g : Grid) (p : Position) : Collision -> Grid
  | .goal => g.addAttackerPoint
  | .intercept _ => (g.write p .empty).addDefenderPoint
  | .friendly _ => g.write p .empty
  | .offGrid => g
  | .wall => g

def strike (f : Fleet) : Collision -> Fleet
  | .intercept victim => f.markDeleted victim
  | .friendly victim => f.markDeleted victim
  | _ => f

/-- Finds the collision of a mover at `p`, and applies what it does. -/
def resolve? (g : Grid) (f : Fleet) (mover : MissileId) (p : Position) (radius : Int) :
    Except Fault (Option Collision × Grid × Fleet) :=
  if !g.inBounds p then .ok (some .offGrid, g, f)
  else do
    let around <- g.square? p radius
    return match g.firstCollision mover around with
      | none => (none, g, f)
      | some (spot, c) => (some c, g.settle spot c, strike f c)

end Grid
end AirDefense

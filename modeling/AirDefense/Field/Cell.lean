import AirDefense.Identity

/-!
# Cells

What one position of the field can hold.
-/

namespace AirDefense

inductive Cell where
  | empty
  | wall
  | goal
  | attacker (occupant : MissileId) (trackedBy : Option MissileId)
  | defender (occupant : MissileId)
deriving DecidableEq, Repr, Inhabited

namespace Cell

def missile (id : MissileId) : Cell :=
  match id.side with
  | .attacker => attacker id none
  | .defender => defender id

def occupant? : Cell -> Option MissileId
  | attacker id _ => some id
  | defender id => some id
  | _ => none

def isEmpty : Cell -> Bool
  | empty => true
  | _ => false

@[simp] theorem occupant?_missile (id : MissileId) :
    (missile id).occupant? = some id := by
  unfold missile
  cases id.side <;> rfl

end Cell

end AirDefense

import AirDefense.Field.Cell

/-!
# Faults

A fault is a broken contract: a slot given back twice, a missile placed off
the field, a sum that leaves the 32-bit range.  A fault is a cause; `message`
gives each cause its wording.
-/

namespace AirDefense

inductive Fault where
  | addOverflow
  | subtractOverflow
  | multiplyOverflow
  /-- A field of negative area, or more slots or samples than there can be room for. -/
  | capacityOverflow
  | noSlots
  | slotOutOfRange (slot capacity : Nat)
  | slotNotInUse (slot : Nat)
  | slotReleasedTwice (slot : Nat)
  | wrongArena
  | noSuchSlot (side : Side) (slot : Nat)
  | slotOccupied (side : Side) (slot : Nat)
  | vacatedAfterReuse (id : MissileId)
  | vacatedTwice (id : MissileId)
  | placedOffGrid (cell : Cell) (position : Position)
  | releasedWithoutHolder (tier : Tier)
  | emptyDrawRange
  | drawFromNonFinite
  | drawToNonFinite
  | drawRangeOverflow
  /-- The bounds are integers in their shortest form. -/
  | launchBoundsCrossed (least greatest : Int)
  | durationOverflow
  /-- No word of the stream is accepted.  Where this stands, the draw goes on for ever. -/
  | unendingDraw
deriving DecidableEq, Repr

/-!
## Wording

Identities and cells inside a message are spelled field by field.
-/

def MissileId.describe (id : MissileId) : String :=
  s!"EntityId \x7b side: {id.side.name}, index: {id.slot}, generation: {id.generation.toNat} \x7d"

def Position.describe (p : Position) : String :=
  s!"CellPos \x7b x: {p.x}, y: {p.y} \x7d"

def Cell.describe : Cell -> String
  | .empty => "Empty"
  | .wall => "Wall"
  | .goal => "Goal"
  | .attacker id none =>
      s!"Attacker \x7b occupant: {id.describe}, tracked_by: None \x7d"
  | .attacker id (some claimant) =>
      s!"Attacker \x7b occupant: {id.describe}, tracked_by: Some({claimant.describe}) \x7d"
  | .defender id => s!"Defender \x7b occupant: {id.describe} \x7d"

namespace Fault

def message : Fault -> String
  | addOverflow => "attempt to add with overflow"
  | subtractOverflow => "attempt to subtract with overflow"
  | multiplyOverflow => "attempt to multiply with overflow"
  | capacityOverflow => "capacity overflow"
  | noSlots => "slot chain needs at least one index"
  | slotOutOfRange slot capacity =>
      s!"slot index {slot} out of range (capacity {capacity})"
  | slotNotInUse slot => s!"slot index {slot} released while not in use"
  | slotReleasedTwice slot => s!"slot index {slot} released twice"
  | wrongArena => "missile spawned into the wrong arena"
  | noSuchSlot side slot => s!"{side.name} arena index {slot} out of range"
  | slotOccupied side slot =>
      s!"{side.name} slot {slot} reused before its task finished"
  | vacatedAfterReuse id => s!"vacating {id.describe} after its slot was reused"
  | vacatedTwice id => s!"vacating {id.describe} twice"
  | placedOffGrid cell position =>
      s!"placing {cell.describe} off the grid at {position.describe}"
  | releasedWithoutHolder tier =>
      s!"grid lock released at {tier.name} without a holder"
  | emptyDrawRange => "cannot sample empty range"
  | drawFromNonFinite =>
      "UniformSampler::sample_single called with \x60low\x60 non-finite."
  | drawToNonFinite =>
      "UniformSampler::sample_single called with \x60high\x60 non-finite."
  | drawRangeOverflow => "UniformSampler::sample_single: range overflow"
  | launchBoundsCrossed least greatest =>
      s!"min > max, or either was NaN. min = {least}.0, max = {greatest}.0"
  | durationOverflow =>
      "cannot convert float seconds to Duration: value is either too big or NaN"
  | unendingDraw => "no word of the stream is accepted"

end Fault

end AirDefense

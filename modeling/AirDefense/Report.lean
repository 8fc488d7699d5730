import AirDefense.Engagement.Flight
import AirDefense.Engagement.Snapshot
import AirDefense.Schedule.Roster

/-!
# Reports

The JSON forms of identities, scores and snapshots: how each is written, and
how it is read back.
-/

namespace AirDefense

open Json

namespace Side

def accept : Accept Side :=
  .oneOf [(attacker.name, attacker), (defender.name, defender)]

def toJson (s : Side) : Value := .ofString s.name

end Side

namespace Tier

def accept : Accept Tier :=
  .oneOf (all.map fun t => (t.name, t))

def toJson (t : Tier) : Value := .ofString t.name

end Tier

namespace Phase

def all : List Phase := [spawned, moving, collided, externallyDeleted, cleared]

def accept : Accept Phase :=
  .oneOf (all.map fun p => (p.name, p))

def toJson (p : Phase) : Value := .ofString p.name

end Phase

namespace Activation

def accept : Accept Activation :=
  .oneOf [(now.name, now), (deferred.name, deferred)]

def toJson (a : Activation) : Value := .ofString a.name

end Activation

namespace MissileId

def fields : List (RecordField MissileId) :=
  [ .of "side" Side.accept fun s id => { id with side := s },
    .of "index" (.natural 64) fun n id => { id with slot := n },
    .of "generation" (.natural 32) fun n id => { id with generation := UInt32.ofNat n } ]

def accept : Accept MissileId :=
  Record.accept fields .refuse ⟨.attacker, 0, 0⟩

def toJson (id : MissileId) : Value :=
  .record
    [ ("side", id.side.toJson),
      ("index", .ofNat id.slot),
      ("generation", .ofNat id.generation.toNat) ]

end MissileId

namespace Position

def fields : List (RecordField Position) :=
  [ .of "x" .int32 fun n p => { p with x := n },
    .of "y" .int32 fun n p => { p with y := n } ]

def accept : Accept Position :=
  Record.accept fields .refuse ⟨0, 0⟩

def toJson (p : Position) : Value :=
  .record [("x", .ofInt p.x), ("y", .ofInt p.y)]

end Position

namespace Score

def fields : List (RecordField Score) :=
  [ .of "attacker_points" (.natural 64) fun n s => { s with attackerPoints := n },
    .of "defender_points" (.natural 64) fun n s => { s with defenderPoints := n } ]

def accept : Accept Score :=
  Record.accept fields .refuse .zero

def toJson (s : Score) : Value :=
  .record
    [ ("attacker_points", .ofNat s.attackerPoints),
      ("defender_points", .ofNat s.defenderPoints) ]

end Score

namespace MissileView

def fields : List (RecordField MissileView) :=
  [ .of "side" Side.accept fun s m => { m with side := s },
    .of "slot" (.natural 64) fun n m => { m with slot := n },
    .of "x" .int32 fun n m => { m with x := n },
    .of "y" .int32 fun n m => { m with y := n },
    .of "tracked" .boolean fun b m => { m with tracked := b } ]

def accept : Accept MissileView :=
  Record.accept fields .refuse ⟨.attacker, 0, 0, 0, false⟩

def toJson (m : MissileView) : Value :=
  .record
    [ ("side", m.side.toJson),
      ("slot", .ofNat m.slot),
      ("x", .ofInt m.x),
      ("y", .ofInt m.y),
      ("tracked", .bool m.tracked) ]

end MissileView

namespace Snapshot

def fields : List (RecordField Snapshot) :=
  [ .of "score" Score.accept fun x s => { s with score := x },
    .of "missiles" (.list MissileView.accept) fun ms s => { s with missiles := ms },
    .of "attacker_slots_free" (.natural 64) fun n s => { s with attackerSlotsFree := n },
    .of "defender_slots_free" (.natural 64) fun n s => { s with defenderSlotsFree := n } ]

def accept : Accept Snapshot :=
  Record.accept fields .refuse ⟨.zero, [], 0, 0⟩

def toJson (s : Snapshot) : Value :=
  .record
    [ ("score", s.score.toJson),
      ("missiles", .ofList (s.missiles.map MissileView.toJson)),
      ("attacker_slots_free", .ofNat s.attackerSlotsFree),
      ("defender_slots_free", .ofNat s.defenderSlotsFree) ]

def text (s : Snapshot) : String := s.toJson.text

def ofText (text : String) : Except Complaint Snapshot :=
  (Document.ofText text).read accept

end Snapshot
end AirDefense

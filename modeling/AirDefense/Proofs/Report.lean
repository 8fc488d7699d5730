import AirDefense.Proofs.Json.Printing
import AirDefense.Proofs.Json.Records
import AirDefense.Report

/-!
# Snapshots that are read back

The text of a snapshot holds all of it: reading the text gives the snapshot again, whatever its
numbers are and however many missiles it shows.  A record that is printed has all its members
in their order, so it is read as the array of its values would be.
-/

namespace AirDefense

open Json

theorem Side.accept_toJson (s : Side) : accept s.toJson = .ok s := by
  cases s <;> rfl

/-!
## Scores
-/

namespace Score

variable {s : Score}

/-- Points are numbers of 64 bits. -/
structure Fits (s : Score) : Prop where
  attacker : s.attackerPoints < powerOfTwo 64
  defender : s.defenderPoints < powerOfTwo 64

theorem plain_toJson (s : Score) : s.toJson.Plain :=
  Value.plain_record (by simp)

theorem accept_toJson (h : s.Fits) : accept s.toJson = .ok s := by
  have hattacker := Accept.natural_ofNat (by decide) h.attacker
  have hdefender := Accept.natural_ofNat (by decide) h.defender
  refine (Record.accept_zip fields [.ofNat s.attackerPoints, .ofNat s.defenderPoints]
    (by decide) rfl).trans ?_
  simp [fields, Items.ofList, Record.ofItems, RecordField.of, Except.map, hattacker, hdefender]

end Score

/-!
## Missiles
-/

namespace MissileView

variable {m : MissileView}

/-- A slot has 64 bits, and a place has 32 bits with sign. -/
structure Fits (m : MissileView) : Prop where
  slot : m.slot < powerOfTwo 64
  x : Bounded.Fits m.x
  y : Bounded.Fits m.y

theorem plain_toJson (m : MissileView) : m.toJson.Plain :=
  Value.plain_record (by simp [Side.toJson, Value.Plain])

theorem accept_toJson (h : m.Fits) : accept m.toJson = .ok m := by
  have hside := Side.accept_toJson m.side
  have hslot := Accept.natural_ofNat (by decide) h.slot
  have hx := Accept.int32_ofInt h.x
  have hy := Accept.int32_ofInt h.y
  refine (Record.accept_zip fields
    [m.side.toJson, .ofNat m.slot, .ofInt m.x, .ofInt m.y, .bool m.tracked] (by decide)
    rfl).trans ?_
  simp [fields, Items.ofList, Record.ofItems, RecordField.of, Except.map, Accept.boolean, hside,
    hslot, hx, hy]

end MissileView

/-!
## Snapshots
-/

namespace Snapshot

variable {s : Snapshot}

/-- All numbers are of their type. -/
structure Fits (s : Snapshot) : Prop where
  score : s.score.Fits
  missiles : forall m, m ∈ s.missiles -> m.Fits
  attackerSlotsFree : s.attackerSlotsFree < powerOfTwo 64
  defenderSlotsFree : s.defenderSlotsFree < powerOfTwo 64

theorem plain_toJson (s : Snapshot) : s.toJson.Plain := by
  have hmissiles : (Value.ofList (s.missiles.map MissileView.toJson)).Plain := by
    refine Value.plain_ofList fun v hv => ?_
    rcases List.mem_map.mp hv with ⟨m, _, rfl⟩
    exact m.plain_toJson
  exact Value.plain_record (by simp [Score.plain_toJson, hmissiles])

theorem accept_toJson (h : s.Fits) : accept s.toJson = .ok s := by
  have hscore := Score.accept_toJson h.score
  have hmissiles := Accept.list_ofList fun m hm => MissileView.accept_toJson (h.missiles m hm)
  have hattackers := Accept.natural_ofNat (by decide) h.attackerSlotsFree
  have hdefenders := Accept.natural_ofNat (by decide) h.defenderSlotsFree
  refine (Record.accept_zip fields
    [s.score.toJson, .ofList (s.missiles.map MissileView.toJson), .ofNat s.attackerSlotsFree,
      .ofNat s.defenderSlotsFree] (by decide) rfl).trans ?_
  simp [fields, Items.ofList, Record.ofItems, RecordField.of, Except.map, hscore, hmissiles,
    hattackers, hdefenders]

theorem ofText_of_textWrites {text : String} (h : s.Fits) (htext : TextWrites text s.toJson) :
    ofText text = .ok s := by
  unfold ofText
  rw [Document.read_of_textWrites htext]
  exact accept_toJson h

/--
The text of a snapshot is read back as a snapshot with the same score, the same missiles in
their order and the same counts, and so with as many missiles of either side.
-/
theorem text_read_back {s : Snapshot} (h : s.Fits) :
    exists t, ofText s.text = .ok t ∧
      t.score = s.score ∧ t.missiles = s.missiles ∧
        t.attackerSlotsFree = s.attackerSlotsFree ∧ t.defenderSlotsFree = s.defenderSlotsFree ∧
          forall side, t.count side = s.count side :=
  ⟨s, ofText_of_textWrites h (textWrites_text s.plain_toJson), rfl, rfl, rfl, rfl, fun _ => rfl⟩

def outermost : Snapshot :=
  { score := ⟨18446744073709551615, 0⟩
    missiles :=
      [ ⟨.attacker, 18446744073709551615, -2147483648, 2147483647, true⟩,
        ⟨.defender, 0, 2147483647, -2147483648, false⟩ ]
    attackerSlotsFree := 18446744073709551615
    defenderSlotsFree := 0 }

theorem text_read_back_outermost :
    outermost.Fits ∧
      exists t, ofText outermost.text = .ok t ∧
        t.score = outermost.score ∧ t.missiles = outermost.missiles ∧
          t.attackerSlotsFree = outermost.attackerSlotsFree ∧
            t.defenderSlotsFree = outermost.defenderSlotsFree ∧
              forall side, t.count side = outermost.count side := by
  have hfits : outermost.Fits :=
    { score := ⟨by decide, by decide⟩
      missiles := by
        intro m hm
        simp only [outermost, List.mem_cons, List.not_mem_nil, or_false] at hm
        rcases hm with rfl | rfl <;> exact ⟨by decide, by decide, by decide⟩
      attackerSlotsFree := by decide
      defenderSlotsFree := by decide }
  exact ⟨hfits, text_read_back hfits⟩

end Snapshot
end AirDefense

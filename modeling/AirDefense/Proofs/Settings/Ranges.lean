import AirDefense.Proofs.Faults
import AirDefense.Proofs.Json.Records
import AirDefense.Settings.Validation

/-!
# Settings of 32 bits

The integers among the settings, counts and lengths of time apart, have 32 bits with sign.
Settings that were read from a document do, and so do the default ones.
-/

namespace AirDefense

open Json

structure FieldSettings.InRange (f : FieldSettings) : Prop where
  width : Bounded.Fits f.width
  height : Bounded.Fits f.height
  wall : Bounded.Fits f.wallThickness
  goal : Bounded.Fits f.goalStartRow
  radius : Bounded.Fits f.missileRadius

def DefenderSettings.InRange (d : DefenderSettings) : Prop :=
  forall row, d.launchRow = some row -> Bounded.Fits row

/-- All integers have 32 bits that are integers of 32 bits. -/
structure Settings.InRange (s : Settings) : Prop where
  field : s.field.InRange
  defender : s.defender.InRange

/-!
## Default settings
-/

theorem FieldSettings.inRange_default : InRange {} :=
  { width := by decide
    height := by decide
    wall := by decide
    goal := by decide
    radius := by decide }

theorem DefenderSettings.inRange_default : InRange {} := by
  intro row hrow
  cases hrow

/-!
## Settings from a document
-/

theorem FieldSettings.inRange_of_accept (v : Value) (f : FieldSettings)
    (h : FieldSettings.accept v = .ok f) : f.InRange := by
  refine Record.accept_keeps (fun field hfield => ?_) FieldSettings.inRange_default v f h
  simp only [fields, List.mem_cons, List.not_mem_nil, or_false] at hfield
  rcases hfield with rfl | rfl | rfl | rfl | rfl
  · exact RecordField.keeps_of Accept.fits_of_int32 fun n s hn hs => { hs with width := hn }
  · exact RecordField.keeps_of Accept.fits_of_int32 fun n s hn hs => { hs with height := hn }
  · exact RecordField.keeps_of Accept.fits_of_int32 fun n s hn hs => { hs with wall := hn }
  · exact RecordField.keeps_of Accept.fits_of_int32 fun n s hn hs => { hs with goal := hn }
  · exact RecordField.keeps_of Accept.fits_of_int32 fun n s hn hs => { hs with radius := hn }

theorem DefenderSettings.inRange_of_accept (v : Value) (d : DefenderSettings)
    (h : DefenderSettings.accept v = .ok d) : d.InRange := by
  refine Record.accept_keeps (fun field hfield => ?_) DefenderSettings.inRange_default v d h
  simp only [fields, List.mem_cons, List.not_mem_nil, or_false] at hfield
  rcases hfield with rfl | rfl | rfl | rfl | rfl | rfl | rfl | rfl
  case inr.inr.inr.inr.inr.inr.inr =>
    exact RecordField.keeps_of (Accept.of_optional Accept.fits_of_int32) fun row d hrow _ => hrow
  all_goals exact RecordField.keeps_of_set fun _ _ hd => hd

namespace Settings

theorem inRange_of_accept (v : Value) (s : Settings) (h : Settings.accept v = .ok s) :
    s.InRange := by
  refine Record.accept_keeps (fun field hfield => ?_)
    ⟨FieldSettings.inRange_default, DefenderSettings.inRange_default⟩ v s h
  simp only [fields, List.mem_cons, List.not_mem_nil, or_false] at hfield
  rcases hfield with rfl | rfl | rfl | rfl | rfl | rfl | rfl
  case inr.inl =>
    exact RecordField.keeps_of FieldSettings.inRange_of_accept
      fun f s hf hs => { hs with field := hf }
  case inr.inr.inr.inl =>
    exact RecordField.keeps_of DefenderSettings.inRange_of_accept
      fun d s hd hs => { hs with defender := hd }
  all_goals exact RecordField.keeps_of_set fun _ _ hs => ⟨hs.field, hs.defender⟩

/-- Settings from a document have integers of 32 bits, and are valid. -/
theorem ofText_spec {text : String} {s : Settings} (h : ofText text = .ok (.ok s)) :
    s.InRange ∧ s.validate = .ok (.ok ()) := by
  unfold ofText at h
  split at h
  · cases h
  · rename_i read hread
    rcases bind_eq_ok.mp h with ⟨outcome, hvalid, h⟩
    cases outcome with
    | error i => cases h
    | ok u =>
        cases h
        rcases bind_eq_ok.mp hread with ⟨x, haccept, hx⟩
        split at hx
        · cases hx
        · cases hx
          exact ⟨inRange_of_accept _ _ haccept, hvalid⟩

end Settings
end AirDefense

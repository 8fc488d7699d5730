import AirDefense.Proofs.Json.Overrides
import AirDefense.Proofs.Settings.Ranges

/-!
# Settings documents

A settings document is an override of the default settings: it is read as the defaults with
those settings replaced that it lists, on both levels, in whatever order it lists them and
whatever else it holds.
-/

namespace AirDefense

open Json

/-!
## The field
-/

namespace FieldSettings

variable {f : FieldSettings}

/-- The settings of `f` under the chosen keys, and those of `d` under all others. -/
def override (S : Choice) (f d : FieldSettings) : FieldSettings where
  width := if S "width" then f.width else d.width
  height := if S "height" then f.height else d.height
  wallThickness := if S "wall_thickness" then f.wallThickness else d.wallThickness
  goalStartRow := if S "goal_start_y" then f.goalStartRow else d.goalStartRow
  missileRadius := if S "missile_radius" then f.missileRadius else d.missileRadius

def entries (f : FieldSettings) : List Entry :=
  [ ("width", (· = .ofInt f.width)),
    ("height", (· = .ofInt f.height)),
    ("wall_thickness", (· = .ofInt f.wallThickness)),
    ("goal_start_y", (· = .ofInt f.goalStartRow)),
    ("missile_radius", (· = .ofInt f.missileRadius)) ]

theorem takesAll (h : f.InRange) :
    Record.TakesAll (fun S => f.override S {}) fields f.entries where
  nodup := by decide
  takes := by
    refine .cons (RecordField.takes_int32 h.width ?_)
      (.cons (RecordField.takes_int32 h.height ?_)
        (.cons (RecordField.takes_int32 h.wall ?_)
          (.cons (RecordField.takes_int32 h.goal ?_)
            (.cons (RecordField.takes_int32 h.radius ?_) .nil))))
    all_goals
      intro S
      simp [override, Choice.insert]
  congr := by
    intro S T hST
    simp only [fields, RecordField.of, List.forall_mem_cons] at hST
    simp [override, hST]

end FieldSettings

/-!
## The attackers
-/

namespace AttackerSettings

variable {a : AttackerSettings}

/-- All integers are of their type. -/
structure Fits (a : AttackerSettings) : Prop where
  capacity : a.capacity < powerOfTwo 64
  missilePeriod : a.missilePeriod < powerOfTwo 64
  missilePriority : a.missilePriority < powerOfTwo 8
  launcherPeriod : a.launcherPeriod < powerOfTwo 64
  launcherPriority : a.launcherPriority < powerOfTwo 8
  cooldown : a.cooldown < powerOfTwo 64

theorem fits_default : Fits {} :=
  ⟨by decide, by decide, by decide, by decide, by decide, by decide⟩

def override (S : Choice) (a d : AttackerSettings) : AttackerSettings where
  capacity := if S "capacity" then a.capacity else d.capacity
  missilePeriod := if S "missile_period_ms" then a.missilePeriod else d.missilePeriod
  missilePriority := if S "missile_priority" then a.missilePriority else d.missilePriority
  launcherPeriod := if S "launcher_period_ms" then a.launcherPeriod else d.launcherPeriod
  launcherPriority := if S "launcher_priority" then a.launcherPriority else d.launcherPriority
  cooldown := if S "cooldown_ms" then a.cooldown else d.cooldown
  maxSpeed := if S "max_speed" then a.maxSpeed else d.maxSpeed
  maxAngle := if S "max_angle" then a.maxAngle else d.maxAngle

def entries (reads : Numeral -> Float32 -> Prop) (a : AttackerSettings) : List Entry :=
  [ ("capacity", (· = .ofNat a.capacity)),
    ("missile_period_ms", (· = .ofNat a.missilePeriod)),
    ("missile_priority", (· = .ofNat a.missilePriority)),
    ("launcher_period_ms", (· = .ofNat a.launcherPeriod)),
    ("launcher_priority", (· = .ofNat a.launcherPriority)),
    ("cooldown_ms", (· = .ofNat a.cooldown)),
    ("max_speed", Value.IsSingle reads a.maxSpeed),
    ("max_angle", Value.IsSingle reads a.maxAngle) ]

theorem takesAll (h : a.Fits) :
    Record.TakesAll (fun S => a.override S {}) fields (a.entries Numeral.ReadsSingle) where
  nodup := by decide
  takes := by
    refine .cons (RecordField.takes_natural (by decide) h.capacity ?_)
      (.cons (RecordField.takes_natural (by decide) h.missilePeriod ?_)
        (.cons (RecordField.takes_natural (by decide) h.missilePriority ?_)
          (.cons (RecordField.takes_natural (by decide) h.launcherPeriod ?_)
            (.cons (RecordField.takes_natural (by decide) h.launcherPriority ?_)
              (.cons (RecordField.takes_natural (by decide) h.cooldown ?_)
                (.cons (RecordField.takes_single ?_)
                  (.cons (RecordField.takes_single ?_) .nil)))))))
    all_goals
      intro S
      simp [override, Choice.insert]
  congr := by
    intro S T hST
    simp only [fields, RecordField.of, List.forall_mem_cons] at hST
    simp [override, hST]

end AttackerSettings

/-!
## The defenders
-/

namespace DefenderSettings

variable {d : DefenderSettings}

structure Fits (d : DefenderSettings) : Prop where
  capacity : d.capacity < powerOfTwo 64
  missilePeriod : d.missilePeriod < powerOfTwo 64
  missilePriority : d.missilePriority < powerOfTwo 8
  launcherPeriod : d.launcherPeriod < powerOfTwo 64
  launcherPriority : d.launcherPriority < powerOfTwo 8
  launchRow : d.InRange

theorem fits_default : Fits {} :=
  ⟨by decide, by decide, by decide, by decide, by decide, inRange_default⟩

def override (S : Choice) (d e : DefenderSettings) : DefenderSettings where
  capacity := if S "capacity" then d.capacity else e.capacity
  missilePeriod := if S "missile_period_ms" then d.missilePeriod else e.missilePeriod
  missilePriority := if S "missile_priority" then d.missilePriority else e.missilePriority
  launcherPeriod := if S "launcher_period_ms" then d.launcherPeriod else e.launcherPeriod
  launcherPriority := if S "launcher_priority" then d.launcherPriority else e.launcherPriority
  speed := if S "speed" then d.speed else e.speed
  angle := if S "angle" then d.angle else e.angle
  launchRow := if S "launch_y" then d.launchRow else e.launchRow

def entries (reads : Numeral -> Float32 -> Prop) (d : DefenderSettings) : List Entry :=
  [ ("capacity", (· = .ofNat d.capacity)),
    ("missile_period_ms", (· = .ofNat d.missilePeriod)),
    ("missile_priority", (· = .ofNat d.missilePriority)),
    ("launcher_period_ms", (· = .ofNat d.launcherPeriod)),
    ("launcher_priority", (· = .ofNat d.launcherPriority)),
    ("speed", Value.IsSingle reads d.speed),
    ("angle", Value.IsSingle reads d.angle),
    ("launch_y", (· = d.launchRow.elim .null .ofInt)) ]

theorem takesAll (h : d.Fits) :
    Record.TakesAll (fun S => d.override S {}) fields (d.entries Numeral.ReadsSingle) where
  nodup := by decide
  takes := by
    refine .cons (RecordField.takes_natural (by decide) h.capacity ?_)
      (.cons (RecordField.takes_natural (by decide) h.missilePeriod ?_)
        (.cons (RecordField.takes_natural (by decide) h.missilePriority ?_)
          (.cons (RecordField.takes_natural (by decide) h.launcherPeriod ?_)
            (.cons (RecordField.takes_natural (by decide) h.launcherPriority ?_)
              (.cons (RecordField.takes_single ?_)
                (.cons (RecordField.takes_single ?_)
                  (.cons (RecordField.takes_optional h.launchRow ?_) .nil)))))))
    all_goals
      intro S
      simp [override, Choice.insert]
  congr := by
    intro S T hST
    simp only [fields, RecordField.of, List.forall_mem_cons] at hST
    simp [override, hST]

end DefenderSettings

/-!
## The predictor
-/

namespace PredictorSettings

variable {p : PredictorSettings}

structure Fits (p : PredictorSettings) : Prop where
  minSamples : p.minSamples < powerOfTwo 64
  maxSamples : p.maxSamples < powerOfTwo 64
  maxIterations : p.maxIterations < powerOfTwo 32

theorem fits_default : Fits {} :=
  ⟨by decide, by decide, by decide⟩

def override (S : Choice) (p d : PredictorSettings) : PredictorSettings where
  minSamples := if S "min_samples" then p.minSamples else d.minSamples
  maxSamples := if S "max_samples" then p.maxSamples else d.maxSamples
  speedTolerance := if S "speed_tolerance" then p.speedTolerance else d.speedTolerance
  searchTolerance := if S "search_tolerance" then p.searchTolerance else d.searchTolerance
  maxIterations := if S "max_iterations" then p.maxIterations else d.maxIterations

def entries (reads : Numeral -> Float32 -> Prop) (p : PredictorSettings) : List Entry :=
  [ ("min_samples", (· = .ofNat p.minSamples)),
    ("max_samples", (· = .ofNat p.maxSamples)),
    ("speed_tolerance", Value.IsSingle reads p.speedTolerance),
    ("search_tolerance", Value.IsSingle reads p.searchTolerance),
    ("max_iterations", (· = .ofNat p.maxIterations)) ]

theorem takesAll (h : p.Fits) :
    Record.TakesAll (fun S => p.override S {}) fields (p.entries Numeral.ReadsSingle) where
  nodup := by decide
  takes := by
    refine .cons (RecordField.takes_natural (by decide) h.minSamples ?_)
      (.cons (RecordField.takes_natural (by decide) h.maxSamples ?_)
        (.cons (RecordField.takes_single ?_)
          (.cons (RecordField.takes_single ?_)
            (.cons (RecordField.takes_natural (by decide) h.maxIterations ?_) .nil))))
    all_goals
      intro S
      simp [override, Choice.insert]
  congr := by
    intro S T hST
    simp only [fields, RecordField.of, List.forall_mem_cons] at hST
    simp [override, hST]

end PredictorSettings

/-!
## All settings
-/

namespace Settings

variable {c : Settings}

/--
Which settings are listed: those on top, and inside each of the four records.  A record that is
not listed on top lists nothing.
-/
structure Selection where
  top : Choice
  field : Choice
  attacker : Choice
  defender : Choice
  predictor : Choice

/-- All integers are of their type. -/
structure Fits (c : Settings) : Prop where
  seed : c.seed < powerOfTwo 64
  field : c.field.InRange
  attacker : c.attacker.Fits
  defender : c.defender.Fits
  predictor : c.predictor.Fits
  displayPeriod : c.displayPeriod < powerOfTwo 64
  displayPriority : c.displayPriority < powerOfTwo 8

theorem fits_default : Fits {} where
  seed := by decide
  field := FieldSettings.inRange_default
  attacker := AttackerSettings.fits_default
  defender := DefenderSettings.fits_default
  predictor := PredictorSettings.fits_default
  displayPeriod := by decide
  displayPriority := by decide

/-- The selected settings of `c`, and those of `d` where none is selected. -/
def override (S : Selection) (c d : Settings) : Settings where
  seed := if S.top "seed" then c.seed else d.seed
  field := if S.top "grid" then c.field.override S.field d.field else d.field
  attacker := if S.top "attacker" then c.attacker.override S.attacker d.attacker else d.attacker
  defender := if S.top "defender" then c.defender.override S.defender d.defender else d.defender
  predictor :=
    if S.top "predictor" then c.predictor.override S.predictor d.predictor else d.predictor
  displayPeriod := if S.top "display_period_ms" then c.displayPeriod else d.displayPeriod
  displayPriority := if S.top "display_priority" then c.displayPriority else d.displayPriority

def entries (reads : Numeral -> Float32 -> Prop) (S : Selection) (c : Settings) : List Entry :=
  [ ("seed", (· = .ofNat c.seed)),
    ("grid", Value.Lists c.field.entries S.field),
    ("attacker", Value.Lists (c.attacker.entries reads) S.attacker),
    ("defender", Value.Lists (c.defender.entries reads) S.defender),
    ("predictor", Value.Lists (c.predictor.entries reads) S.predictor),
    ("display_period_ms", (· = .ofNat c.displayPeriod)),
    ("display_priority", (· = .ofNat c.displayPriority)) ]

/-- The text is a document that lists the selected settings of `c`. -/
def IsDocument (reads : Numeral -> Float32 -> Prop) (S : Selection) (c : Settings)
    (text : String) : Prop :=
  exists v, TextWrites text v ∧ v.Lists (c.entries reads S) S.top

theorem takesAll (h : c.Fits) (S : Selection) :
    Record.TakesAll (fun T => c.override { S with top := T } {}) fields
      (c.entries Numeral.ReadsSingle S) where
  nodup := by decide
  takes := by
    refine .cons (RecordField.takes_natural (by decide) h.seed ?_)
      (.cons (Record.takes_lists (FieldSettings.takesAll h.field) ?_)
        (.cons (Record.takes_lists (AttackerSettings.takesAll h.attacker) ?_)
          (.cons (Record.takes_lists (DefenderSettings.takesAll h.defender) ?_)
            (.cons (Record.takes_lists (PredictorSettings.takesAll h.predictor) ?_)
              (.cons (RecordField.takes_natural (by decide) h.displayPeriod ?_)
                (.cons (RecordField.takes_natural (by decide) h.displayPriority ?_) .nil))))))
    all_goals
      intro S
      simp [override, Choice.insert]
  congr := by
    intro S T hST
    simp only [fields, RecordField.of, List.forall_mem_cons] at hST
    simp [override, hST]

theorem read_of_isDocument {S : Selection} {text : String} (h : c.Fits)
    (htext : c.IsDocument Numeral.ReadsSingle S text) :
    (Document.ofText text).read accept = .ok (c.override S {}) := by
  rcases htext with ⟨v, hwrites, hlists⟩
  rw [Document.read_of_textWrites hwrites]
  exact Record.accept_of_lists (takesAll h S) hlists hwrites.skip?_eq_none

/--
A document that lists selected settings is read as the default settings with exactly those
replaced.  They are what it gives if they are valid, and otherwise it gives the complaint of
validation.  So all documents that list the same settings give the same.
-/
theorem document_overrides {c : Settings} {S : Selection} {text : String} (h : c.Fits)
    (htext : c.IsDocument Numeral.ReadsSingle S text) :
    (Document.ofText text).read accept = .ok (c.override S {}) ∧
      ((c.override S {}).validate = .ok (.ok ()) ->
        ofText text = .ok (.ok (c.override S {}))) ∧
        (forall i, (c.override S {}).validate = .ok (.error i) ->
          ofText text = .ok (.error (.invalid i))) ∧
          forall text', c.IsDocument Numeral.ReadsSingle S text' -> ofText text' = ofText text := by
  have hread := read_of_isDocument h htext
  refine ⟨hread, fun hvalid => ?_, fun i hinvalid => ?_, fun text' htext' => ?_⟩
  · unfold ofText
    rw [hread]
    exact bind_eq_ok.mpr ⟨_, hvalid, rfl⟩
  · unfold ofText
    rw [hread]
    exact bind_eq_ok.mpr ⟨_, hinvalid, rfl⟩
  · unfold ofText
    rw [hread, read_of_isDocument h htext']

def mixed : Settings :=
  { seed := 3
    field := { width := 700, height := 500 }
    attacker := { maxAngle := Float32.ofBits 0x41480000 }
    defender := { launchRow := none } }

def mixedSelection : Selection where
  top k := k ∈ ["seed", "grid", "attacker", "defender"]
  field k := k ∈ ["width", "height"]
  attacker k := k = "max_angle"
  defender k := k = "launch_y"
  predictor _ := false

def mixedValue : Value :=
  .record
    [ ("note", .ofList [.null, .record [("seed", .ofNat 7)]]),
      ("grid", .record [("height", .ofInt 500), ("depth", .bool true), ("width", .ofInt 700)]),
      ("attacker", .record [("max_angle", .number ⟨false, [1, 2], [5], none⟩)]),
      ("defender", .record [("launch_y", .null)]),
      ("seed", .ofNat 3) ]

theorem mixedValue_lists :
    mixedValue.Lists (mixed.entries Numeral.ReadsSingle mixedSelection) mixedSelection.top := by
  have hfield : Value.Lists mixed.field.entries mixedSelection.field
      (.record [("height", .ofInt 500), ("depth", .bool true), ("width", .ofInt 700)]) :=
    ⟨_, rfl, by decide, by simp [FieldSettings.entries, mixed]⟩
  have hangle : Value.IsSingle Numeral.ReadsSingle mixed.attacker.maxAngle
      (.number ⟨false, [1, 2], [5], none⟩) :=
    ⟨_, rfl, .real (x := Float.ofBits 0x4029000000000000) rfl⟩
  have hattacker : Value.Lists (mixed.attacker.entries Numeral.ReadsSingle)
      mixedSelection.attacker (.record [("max_angle", .number ⟨false, [1, 2], [5], none⟩)]) :=
    ⟨_, rfl, by decide, by simp [AttackerSettings.entries, hangle]⟩
  have hdefender : Value.Lists (mixed.defender.entries Numeral.ReadsSingle)
      mixedSelection.defender (.record [("launch_y", .null)]) :=
    ⟨_, rfl, by decide, by simp [DefenderSettings.entries, mixed]⟩
  have hseed : mixed.seed = 3 := rfl
  exact ⟨_, rfl, by decide, by simp [entries, hfield, hattacker, hdefender, hseed]⟩

theorem mixedValue_plain : mixedValue.Plain := by
  have hangle : (Value.number ⟨false, [1, 2], [5], none⟩).Plain :=
    { whole_ne_nil := by decide
      no_leading_zero := by simp
      whole_lt := by decide
      fraction_lt := by decide
      exponent_ne_nil := by simp
      exponent_lt := by simp }
  have hattacker : (Value.record [("max_angle", .number ⟨false, [1, 2], [5], none⟩)]).Plain :=
    Value.plain_record (by simpa using hangle)
  refine Value.plain_record ?_
  simp [Value.plain_record, Value.plain_ofList, Value.Plain, hattacker]

theorem fits_mixed : mixed.Fits :=
  { fits_default with
    seed := by decide
    field := { FieldSettings.inRange_default with width := by decide, height := by decide }
    attacker := { AttackerSettings.fits_default with } }

theorem document_overrides_mixed :
    mixed.Fits ∧ mixed.IsDocument Numeral.ReadsSingle mixedSelection mixedValue.text ∧
      (mixed.override mixedSelection {}).validate = .ok (.ok ()) ∧
        ofText mixedValue.text = .ok (.ok (mixed.override mixedSelection {})) := by
  have hdocument : mixed.IsDocument Numeral.ReadsSingle mixedSelection mixedValue.text :=
    ⟨mixedValue, textWrites_text mixedValue_plain, mixedValue_lists⟩
  have hvalid : (mixed.override mixedSelection {}).validate = .ok (.ok ()) := by decide +kernel
  exact ⟨fits_mixed, hdocument, hvalid, (document_overrides fits_mixed hdocument).2.1 hvalid⟩

/-!
## Integers and doubles

An integer is rounded to a single at once.  Where it is rounded to a double before, the result
may be another one.
-/

/-- The single that a numeral is read as if every number is a double first. -/
inductive ReadsThroughDouble : Numeral -> Float32 -> Prop where
  | natural {n : Numeral} {k : Nat} (h : n.meaning = .natural k) :
      ReadsThroughDouble n (Single.ofDouble k.toUInt64.toFloat)
  | negative {n : Numeral} {k : Nat} (h : n.meaning = .negative k) :
      ReadsThroughDouble n (Single.ofDouble (-(k + 1).toUInt64.toFloat))
  | real {n : Numeral} {x : Float} (h : n.meaning = .real x) :
      ReadsThroughDouble n (Single.ofDouble x)

def swift : Settings :=
  { attacker := { maxSpeed := Float32.ofBits 0x5a000000 } }

def swiftSelection : Selection where
  top k := k = "attacker"
  field _ := false
  attacker k := k = "max_speed"
  defender _ := false
  predictor _ := false

def swiftValue : Value :=
  .record [("attacker", .record [("max_speed", .ofNat 9007199791611905)])]

theorem integer_is_rounded_once :
    swift.Fits ∧ swift.IsDocument ReadsThroughDouble swiftSelection swiftValue.text ∧
      swiftValue.text = "\x7b\"attacker\":\x7b\"max_speed\":9007199791611905\x7d\x7d" ∧
        (swift.override swiftSelection {}).validate = .ok (.ok ()) ∧
          ofText swiftValue.text =
            .ok (.ok { attacker := { maxSpeed := Float32.ofBits 0x5a000001 } }) ∧
            ofText swiftValue.text ≠ .ok (.ok (swift.override swiftSelection {})) := by
  have hspeed : Value.IsSingle ReadsThroughDouble swift.attacker.maxSpeed
      (.ofNat 9007199791611905) :=
    ⟨_, rfl, .natural (Numeral.meaning_ofNat (by decide))⟩
  have hattacker : Value.Lists (swift.attacker.entries ReadsThroughDouble)
      swiftSelection.attacker (.record [("max_speed", .ofNat 9007199791611905)]) :=
    ⟨_, rfl, by decide, by simp [AttackerSettings.entries, hspeed]⟩
  have hlists : swiftValue.Lists (swift.entries ReadsThroughDouble swiftSelection)
      swiftSelection.top :=
    ⟨_, rfl, by decide, by simp [entries, hattacker]⟩
  have hplain : swiftValue.Plain :=
    Value.plain_record (by simp [Value.plain_record])
  refine ⟨?_, ⟨swiftValue, textWrites_text hplain, hlists⟩, ?_, ?_, ?_, ?_⟩
  · exact { fits_default with attacker := { AttackerSettings.fits_default with } }
  · decide +kernel
  · decide +kernel
  · decide +kernel
  · decide +kernel

end Settings
end AirDefense

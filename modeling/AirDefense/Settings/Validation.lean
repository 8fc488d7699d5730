import AirDefense.Settings.Reader

/-!
# Valid settings

Settings a run can start with, and how a settings document is loaded: it is
read, and what was read is validated.
-/

namespace AirDefense

structure Invalid where
  field : String
  reason : String
deriving DecidableEq, Repr

namespace Invalid

def message (i : Invalid) : String :=
  s!"invalid config field \x60{i.field}\x60: {i.reason}"

end Invalid

/-- The outcome of a check: it may itself leave the range of its arithmetic. -/
abbrev Checked (α : Type) := Except Fault α

namespace Settings

/-- The part of validation that a rule belongs to fails with `i`. -/
def require (holds : Bool) (field reason : String) : Except Invalid Unit :=
  if holds then .ok () else .error ⟨field, reason⟩

/-!
## Rules

The rules are tried in order, and the first one that fails is reported.  The
arithmetic of a rule is done when the rule is reached, and no sooner.
-/

def validateExtent (f : FieldSettings) : Checked (Except Invalid Unit) :=
  if f.wallThickness < 1 then
    return .error ⟨"grid.wall_thickness", "must be at least 1"⟩
  else if f.missileRadius < 1 then
    return .error ⟨"grid.missile_radius", "must be at least 1"⟩
  else do
    let edge <- f.leastInterior?
    let margin <- Bounded.mul? 2 edge
    if f.width <= margin || f.height <= margin then
      return .error ⟨"grid",
        s!"{f.width}x{f.height} leaves no interior for radius {f.missileRadius}"⟩
    else if f.goalStartRow <= f.wallThickness || f.height <= f.goalStartRow then
      return .error ⟨"grid.goal_start_y", s!"{f.goalStartRow} is outside the grid"⟩
    else return .ok ()

/-- A NaN is no angle, but it passes for a speed. -/
def validateAttacker (a : AttackerSettings) : Except Invalid Unit := do
  require (a.capacity ≠ 0) "attacker.capacity" "must be non-zero"
  require (!(a.maxSpeed < Single.ofInt 1)) "attacker.max_speed" "must be at least 1"
  require (Single.ofInt 0 <= a.maxAngle && a.maxAngle < Single.ofInt 90)
    "attacker.max_angle" "must be in [0, 90)"

def validateDefender (d : DefenderSettings) : Except Invalid Unit := do
  require (d.capacity ≠ 0) "defender.capacity" "must be non-zero"
  require (!(d.speed <= Single.ofInt 0)) "defender.speed" "must be positive"

def validateLaunchRow (s : Settings) : Checked (Except Invalid Unit) := do
  let row <- s.launchRow?
  let invalid : Except Invalid Unit := .error ⟨"defender.launch_y",
    s!"{row} must sit between the top wall and the goal band"⟩
  let edge <- Bounded.add? s.field.wallThickness s.field.missileRadius
  if row <= edge then return invalid
  else do
    let reach <- Bounded.add? row s.field.missileRadius
    return if s.field.goalStartRow <= reach then invalid else .ok ()

def validateTiming (s : Settings) : Except Invalid Unit := do
  let period (field : String) (length : Nat) : Except Invalid Unit :=
    require (length ≠ 0) field "period must be non-zero"
  period "attacker.missile_period_ms" s.attacker.missilePeriod
  period "attacker.launcher_period_ms" s.attacker.launcherPeriod
  period "defender.missile_period_ms" s.defender.missilePeriod
  period "defender.launcher_period_ms" s.defender.launcherPeriod
  period "display_period_ms" s.displayPeriod

def validatePredictor (p : PredictorSettings) : Except Invalid Unit := do
  require (2 <= p.minSamples) "predictor.min_samples" "need at least 2"
  require (p.minSamples <= p.maxSamples) "predictor.max_samples"
    "must not be below min_samples"
  require (!(p.searchTolerance <= Single.ofInt 0 || p.speedTolerance <= Single.ofInt 0))
    "predictor" "tolerances must be positive"

def andThen (first : Except Invalid Unit) (next : Checked (Except Invalid Unit)) :
    Checked (Except Invalid Unit) :=
  match first with
  | .ok () => next
  | .error i => .ok (.error i)

def validate (s : Settings) : Checked (Except Invalid Unit) := do
  let extent <- validateExtent s.field
  andThen extent <|
    andThen (do validateAttacker s.attacker; validateDefender s.defender) do
      let row <- validateLaunchRow s
      andThen row <| .ok do
        validateTiming s
        validatePredictor s.predictor

/-!
## Loading
-/

inductive LoadError where
  | unreadable (path : String) (reason : String)
  | unparsable (complaint : Json.Complaint)
  | invalid (i : Invalid)
deriving DecidableEq, Repr

namespace LoadError

def message : LoadError -> String
  | unreadable path reason => s!"failed to read config {path}: {reason}"
  | unparsable complaint => s!"config parse error: {complaint.name}"
  | invalid i => i.message

end LoadError

def ofText (text : String) : Checked (Except LoadError Settings) :=
  match (Json.Document.ofText text).read accept with
  | .error c => .ok (.error (.unparsable c))
  | .ok s => do
      match <- s.validate with
      | .ok () => return .ok s
      | .error i => return .error (.invalid i)

/--
Loads the settings document at a path.  `read` stands for the file system: it
gives the bytes of a file, or the reason why there are none.
-/
def load (read : String -> Except String ByteArray) (path : String) :
    Checked (Except LoadError Settings) :=
  match read path with
  | .error reason => .ok (.error (.unreadable path reason))
  | .ok bytes =>
      match String.fromUTF8? bytes with
      | none => .ok (.error (.unreadable path "stream did not contain valid UTF-8"))
      | some text => ofText text

end Settings
end AirDefense

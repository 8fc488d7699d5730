import AirDefense.Json.Record
import AirDefense.Json.Printer
import AirDefense.Settings.Basic

/-!
# Reading settings

A settings document overrides the default settings field by field.
-/

namespace AirDefense

open Json

namespace FieldSettings

def fields : List (RecordField FieldSettings) :=
  [ .of "width" .int32 fun n s => { s with width := n },
    .of "height" .int32 fun n s => { s with height := n },
    .of "wall_thickness" .int32 fun n s => { s with wallThickness := n },
    .of "goal_start_y" .int32 fun n s => { s with goalStartRow := n },
    .of "missile_radius" .int32 fun n s => { s with missileRadius := n } ]

def accept : Accept FieldSettings :=
  Record.accept fields .keepDefault {}

def toJson (s : FieldSettings) : Value :=
  .record
    [ ("width", .ofInt s.width),
      ("height", .ofInt s.height),
      ("wall_thickness", .ofInt s.wallThickness),
      ("goal_start_y", .ofInt s.goalStartRow),
      ("missile_radius", .ofInt s.missileRadius) ]

end FieldSettings

namespace AttackerSettings

def fields : List (RecordField AttackerSettings) :=
  [ .of "capacity" (.natural 64) fun n s => { s with capacity := n },
    .of "missile_period_ms" (.natural 64) fun n s => { s with missilePeriod := n },
    .of "missile_priority" (.natural 8) fun n s => { s with missilePriority := n },
    .of "launcher_period_ms" (.natural 64) fun n s => { s with launcherPeriod := n },
    .of "launcher_priority" (.natural 8) fun n s => { s with launcherPriority := n },
    .of "cooldown_ms" (.natural 64) fun n s => { s with cooldown := n },
    .of "max_speed" .single fun x s => { s with maxSpeed := x },
    .of "max_angle" .single fun x s => { s with maxAngle := x } ]

def accept : Accept AttackerSettings :=
  Record.accept fields .keepDefault {}

end AttackerSettings

namespace DefenderSettings

def fields : List (RecordField DefenderSettings) :=
  [ .of "capacity" (.natural 64) fun n s => { s with capacity := n },
    .of "missile_period_ms" (.natural 64) fun n s => { s with missilePeriod := n },
    .of "missile_priority" (.natural 8) fun n s => { s with missilePriority := n },
    .of "launcher_period_ms" (.natural 64) fun n s => { s with launcherPeriod := n },
    .of "launcher_priority" (.natural 8) fun n s => { s with launcherPriority := n },
    .of "speed" .single fun x s => { s with speed := x },
    .of "angle" .single fun x s => { s with angle := x },
    .of "launch_y" (.optional .int32) fun row s => { s with launchRow := row } ]

def accept : Accept DefenderSettings :=
  Record.accept fields .keepDefault {}

end DefenderSettings

namespace PredictorSettings

def fields : List (RecordField PredictorSettings) :=
  [ .of "min_samples" (.natural 64) fun n s => { s with minSamples := n },
    .of "max_samples" (.natural 64) fun n s => { s with maxSamples := n },
    .of "speed_tolerance" .single fun x s => { s with speedTolerance := x },
    .of "search_tolerance" .single fun x s => { s with searchTolerance := x },
    .of "max_iterations" (.natural 32) fun n s => { s with maxIterations := n } ]

def accept : Accept PredictorSettings :=
  Record.accept fields .keepDefault {}

end PredictorSettings

namespace Settings

def fields : List (RecordField Settings) :=
  [ .of "seed" (.natural 64) fun n s => { s with seed := n },
    .of "grid" FieldSettings.accept fun f s => { s with field := f },
    .of "attacker" AttackerSettings.accept fun a s => { s with attacker := a },
    .of "defender" DefenderSettings.accept fun d s => { s with defender := d },
    .of "predictor" PredictorSettings.accept fun p s => { s with predictor := p },
    .of "display_period_ms" (.natural 64) fun n s => { s with displayPeriod := n },
    .of "display_priority" (.natural 8) fun n s => { s with displayPriority := n } ]

def accept : Accept Settings :=
  Record.accept fields .keepDefault {}

end Settings
end AirDefense

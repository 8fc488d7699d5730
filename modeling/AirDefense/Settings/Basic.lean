import AirDefense.Number.Single

/-!
# Settings

What a run can be told: the geometry of the field, the timing and the
strategy of both sides, and the limits of the predictor.  The default values
are a whole set of settings by themselves.
-/

namespace AirDefense

structure FieldSettings where
  width : Int := 640
  height : Int := 480
  wallThickness : Int := 2
  /-- Rows below this one belong to the goal band. -/
  goalStartRow : Int := 384
  /-- Half the width of the square that is searched for collisions. -/
  missileRadius : Int := 5
deriving DecidableEq, Repr, Inhabited

/-- Spawn strategy and timing of the attackers; periods are in milliseconds. -/
structure AttackerSettings where
  capacity : Nat := 4
  missilePeriod : Nat := 20
  missilePriority : Nat := 4
  launcherPeriod : Nat := 40
  launcherPriority : Nat := 4
  cooldown : Nat := 500
  /-- Speeds are drawn from one up to this one, in cells a second. -/
  maxSpeed : Float32 := Single.ofInt 100
  /-- Headings are drawn from this many degrees up to 180 less as many. -/
  maxAngle : Float32 := Single.ofInt 30
deriving DecidableEq

structure DefenderSettings where
  capacity : Nat := 4
  missilePeriod : Nat := 20
  missilePriority : Nat := 4
  launcherPeriod : Nat := 40
  launcherPriority : Nat := 3
  speed : Float32 := Single.ofInt 150
  angle : Float32 := Single.ofInt 270
  /-- The row interceptors start from; none leaves it to the field. -/
  launchRow : Option Int := none
deriving DecidableEq

structure PredictorSettings where
  minSamples : Nat := 3
  maxSamples : Nat := 20
  speedTolerance : Float32 := Single.ofInt 2
  searchTolerance : Float32 := Float32.ofBits 0x3f000000
  maxIterations : Nat := 32
deriving DecidableEq

structure Settings where
  seed : Nat := 42
  field : FieldSettings := {}
  attacker : AttackerSettings := {}
  defender : DefenderSettings := {}
  predictor : PredictorSettings := {}
  displayPeriod : Nat := 10
  displayPriority : Nat := 5
deriving DecidableEq

/-!
## Derived geometry
-/

namespace FieldSettings

/-- The last row that keeps more than a radius of distance from the goal band. -/
def defaultLaunchRow? (f : FieldSettings) : Except Fault Int := do
  let diameter <- Bounded.mul? 2 f.missileRadius
  let row <- Bounded.sub? f.goalStartRow diameter
  Bounded.sub? row 1

/-- The first row and column that a missile fits into beside the wall. -/
def leastInterior? (f : FieldSettings) : Except Fault Int := do
  let edge <- Bounded.add? f.wallThickness f.missileRadius
  Bounded.add? edge 1

def greatestInterior? (f : FieldSettings) : Except Fault Int := do
  let inner <- Bounded.sub? f.width f.wallThickness
  let edge <- Bounded.sub? inner f.missileRadius
  Bounded.sub? edge 2

/-- The share of the height that lies above the goal band. -/
def goalShare (f : FieldSettings) : Float32 :=
  Single.ofInt f.goalStartRow / Single.ofInt f.height

end FieldSettings

namespace Settings

def launchRow? (s : Settings) : Except Fault Int :=
  match s.defender.launchRow with
  | some row => .ok row
  | none => s.field.defaultLaunchRow?

end Settings
end AirDefense

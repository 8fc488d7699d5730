import AirDefense.Intercept.Prediction
import AirDefense.Settings.Basic

/-!
# Interceptions under given settings

The limits and the geometry of interceptions as the settings state them.
-/

namespace AirDefense

namespace PredictorSettings

def sampleLimits (p : PredictorSettings) : SampleLimits Float32 :=
  { minSamples := p.minSamples
    maxSamples := p.maxSamples
    tolerance := p.speedTolerance }

def searchLimits (p : PredictorSettings) : SearchLimits Float32 :=
  { tolerance := p.searchTolerance, maxIterations := p.maxIterations }

/-- Samples that there can be room for: twelve bytes each, and less than 2 ^ 63 in all. -/
def sampleRoom : Nat := 768614336404564650

/-- Samples a target.  Room for all readings that may be made is taken before the first one. -/
def collect? (p : PredictorSettings) (read : Nat -> Option (Sample Float32))
    (wait : Nat -> Bool) : Except Fault (Sampling Float32) :=
  if sampleRoom < p.maxSamples then .error .capacityOverflow
  else .ok (collect p.sampleLimits read wait)

end PredictorSettings

namespace Settings

structure LaunchBounds where
  row : Int
  least : Int
  greatest : Int
deriving DecidableEq, Repr

def launchBounds? (s : Settings) : Except Fault LaunchBounds := do
  let row <- s.launchRow?
  let least <- s.field.leastInterior?
  let greatest <- s.field.greatestInterior?
  return { row, least, greatest }

def geometry (s : Settings) (b : LaunchBounds) : InterceptGeometry Float32 :=
  { launchY := Single.ofInt b.row
    interceptorSpeed := s.defender.speed
    minX := Single.ofInt b.least
    maxX := Single.ofInt b.greatest }

def clampLaunch? (s : Settings) (b : LaunchBounds) (x : Float32) : Except Fault Float32 :=
  let g := s.geometry b
  if g.minX <= g.maxX then
    let raised := if x < g.minX then g.minX else x
    .ok (if g.maxX < raised then g.maxX else raised)
  else .error (.launchBoundsCrossed (Single.shortest b.least) (Single.shortest b.greatest))

end Settings
end AirDefense

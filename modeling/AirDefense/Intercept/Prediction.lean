import AirDefense.Intercept.Sample

/-!
# Predicting an interception

Interceptors start from one row and climb straight up.  A target is taken to
fly on along the line through its last two samples.  The search looks for the
place on that line where both arrive at the same time, by halving the stretch
between the target and the end of the usable field.
-/

namespace AirDefense

open PlaneArithmetic

structure InterceptGeometry (α : Type) where
  launchY : α
  interceptorSpeed : α
  minX : α
  maxX : α

structure SearchLimits (α : Type) where
  tolerance : α
  maxIterations : Nat

structure Trajectory (α : Type) where
  slope : α
  intercept : α
  speed : α

inductive Prediction (α : Type) where
  /-- The search closed the gap, or ran out of iterations. -/
  | solved (x : α) (iterations : Nat)
  /-- The target flies along a row or a column. -/
  | direct (x : α)
  /-- The target leaves the field before it can be met. -/
  | outOfReach (x : α)
  /-- There is nothing to go by but where the target was last. -/
  | lastKnown (x : α)
deriving DecidableEq

namespace Prediction

def x : Prediction α -> α
  | solved x _ => x
  | direct x => x
  | outOfReach x => x
  | lastKnown x => x

end Prediction

section

variable [PlaneArithmetic α]

namespace Trajectory

/-- The line through two samples, unless it is vertical or takes no time. -/
def through? (a b : Sample α) : Option (Trajectory α) :=
  let dx := b.x - a.x
  if same dx zero then none
  else
    match a.speedTo? b with
    | none => none
    | some speed =>
        let slope := (b.y - a.y) / dx
        some { slope, intercept := b.y - slope * b.x, speed }

def yAt (l : Trajectory α) (x : α) : α :=
  l.slope * x + l.intercept

def xAt (l : Trajectory α) (y : α) : α :=
  (y - l.intercept) / l.slope

/--
How much longer the target's way to `x` is than the way it covers while the
interceptor climbs there: negative where the interceptor is late.
-/
def gap (l : Trajectory α) (geometry : InterceptGeometry α) (start : Sample α) (x : α) : α :=
  let y := l.yAt x
  let way := hypot (x - start.x) (y - start.y)
  let climb := abs (geometry.launchY - y)
  way - climb * (l.speed / geometry.interceptorSpeed)

end Trajectory

structure Bracket (α : Type) where
  lo : α
  hi : α
deriving DecidableEq

namespace Bracket

def mid (b : Bracket α) : α :=
  half * (b.lo + b.hi)

def halve (gap : α -> α) (b : Bracket α) : Bracket α :=
  if below (gap b.mid) zero then { b with lo := b.mid } else { b with hi := b.mid }

/-- Searches `remaining` times more; `last` is what the last try was. -/
def search (limits : SearchLimits α) (gap : α -> α) :
    Nat -> Nat -> α -> Bracket α -> Prediction α
  | 0, _, last, _ => .solved last limits.maxIterations
  | remaining + 1, tried, _, b =>
      if upTo (abs (gap b.mid)) limits.tolerance then .solved b.mid (tried + 1)
      else search limits gap remaining (tried + 1) b.mid (b.halve gap)

end Bracket

def Trajectory.far (l : Trajectory α) (geometry : InterceptGeometry α) (a b : Sample α) : α :=
  let landing := l.xAt geometry.launchY
  if below a.x b.x then least geometry.maxX landing
  else greatest geometry.minX landing

def predictFrom (limits : SearchLimits α) (geometry : InterceptGeometry α) (a b : Sample α) :
    Prediction α :=
  if upTo (b.t - a.t) zero then .lastKnown b.x
  else if same b.x a.x || same b.y a.y then .direct b.x
  else
    match Trajectory.through? a b with
    | none => .lastKnown b.x
    | some line =>
        let descending := same (signum (geometry.launchY - b.y)) (signum (b.y - a.y))
        if !descending || upTo line.speed zero then .lastKnown b.x
        else
          let far := line.far geometry a b
          let gap := line.gap geometry b
          if below (gap far) zero then .outOfReach far
          else Bracket.search limits gap limits.maxIterations 0 far ⟨b.x, far⟩

/-- The prediction from a list of samples; `fallback` is for an empty one. -/
def predict (limits : SearchLimits α) (geometry : InterceptGeometry α) (fallback : α) :
    List (Sample α) -> Prediction α
  | [] => .lastKnown fallback
  | [only] => .lastKnown only.x
  | [a, b] => predictFrom limits geometry a b
  | _ :: rest => predict limits geometry fallback rest

end

end AirDefense

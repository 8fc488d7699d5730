import AirDefense.Identity
import AirDefense.Number.Trigonometry

/-!
# Missiles

A missile flies on a straight line.  It keeps its exact position and the cell
that position lies in.
-/

namespace AirDefense

structure Point where
  x : Float32
  y : Float32
deriving DecidableEq

namespace Point

def origin : Point := ⟨Single.ofInt 0, Single.ofInt 0⟩

def add (p q : Point) : Point := ⟨p.x + q.x, p.y + q.y⟩

def scale (p : Point) (k : Float32) : Point := ⟨p.x * k, p.y * k⟩

def ofHeading (angle : Float32) : Point :=
  let radians := angle * Trigonometry.degree
  ⟨Trigonometry.cos radians, Trigonometry.sin radians⟩

def cell (p : Point) : Position :=
  ⟨Single.truncate p.x, Single.truncate p.y⟩

end Point

structure Missile where
  side : Side
  cell : Position
  point : Point
  speed : Float32
  /-- Heading in degrees; 90 points toward the goal. -/
  angle : Float32
  /-- Somebody asked this missile to stop. -/
  deleted : Bool
  /-- Interceptors only: the attacker this one was launched at. -/
  target : Option MissileId
deriving DecidableEq

namespace Missile

def launchedAt (side : Side) (point : Point) (speed angle : Float32) : Missile :=
  { side, cell := point.cell, point, speed, angle, deleted := false, target := none }

def heading (m : Missile) : Point :=
  .ofHeading m.angle

def velocity (m : Missile) : Point :=
  m.heading.scale m.speed

def fly (m : Missile) (dt : Float32) : Missile :=
  let point := m.point.add (m.velocity.scale dt)
  { m with point, cell := point.cell }

def launchFrom (m : Missile) (point : Point) (speed angle : Float32) : Missile :=
  { m with point, cell := point.cell, speed, angle }

end Missile

end AirDefense

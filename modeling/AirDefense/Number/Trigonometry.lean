import AirDefense.Number.Single

/-!
# Sine and cosine

Sine and cosine of a single-precision angle in radians, rounded once.  The
angle is an exact binary fraction; it is reduced by quarter turns in 360
binary places, which leaves more than 200 sound places for the largest single.
Both series are then summed in 128 places.
-/

namespace AirDefense
namespace Trigonometry

open BinaryFormat

/-- Binary places of the reduction. -/
def reductionPlaces : Nat := 360

def quarterTurn : Nat :=
  0x1921fb54442d18469898cc51701b839a252049c1114cf98e804177d4c76273644a29410f31c6809bbdf2a33679a

def places : Nat := 128

structure Reduced where
  quarter : Nat
  rest : Nat

/-- Reduces `m * 2 ^ q`, which must be a multiple of `2 ^ -reductionPlaces`. -/
def reduce (m : Nat) (q : Int) : Reduced :=
  let angle := m * powerOfTwo (q + reductionPlaces).toNat
  { quarter := angle / quarterTurn % 4
    rest := angle % quarterTurn / powerOfTwo (reductionPlaces - places) }

/--
The tail `term - term * x² / (n (n + 1)) + ...` of an alternating series, of
which at most `fuel` terms are summed.
-/
def alternating (square : Nat) : Nat -> Nat -> Nat -> Int
  | 0, _, _ => 0
  | fuel + 1, n, term =>
      if term = 0 then 0
      else
        let next := term * square / powerOfTwo (2 * places) / (n * (n + 1))
        term - alternating square fuel (n + 2) next

/-- Terms after which the series of a quarter turn no longer counts. -/
def terms : Nat := 40

def sineSeries (x : Nat) : Nat :=
  (alternating (x * x) terms 2 x).toNat

def cosineSeries (x : Nat) : Nat :=
  (alternating (x * x) terms 1 (powerOfTwo places)).toNat

/-- Angles so small that the cosine is one and the sine is the angle. -/
def isTiny (x : Float32) : Bool :=
  Single.magnitude x < 0x39000000

def ofSeries (negative : Bool) (size : Nat) : Float32 :=
  Single.ofSigned negative (single.magnitudeBits size (powerOfTwo places))

def sin (x : Float32) : Float32 :=
  match single.decode? (Single.magnitude x) with
  | none => Float32.ofBits 0x7fc00000
  | some (m, q) =>
      if isTiny x then x
      else
        let r := reduce m q
        let size := if r.quarter % 2 = 0 then sineSeries r.rest else cosineSeries r.rest
        ofSeries (Single.isNegative x != decide (2 <= r.quarter)) size

def cos (x : Float32) : Float32 :=
  match single.decode? (Single.magnitude x) with
  | none => Float32.ofBits 0x7fc00000
  | some (m, q) =>
      if isTiny x then Single.ofInt 1
      else
        let r := reduce m q
        let size := if r.quarter % 2 = 0 then cosineSeries r.rest else sineSeries r.rest
        ofSeries (r.quarter = 1 || r.quarter = 2) size

def degree : Float32 :=
  Float32.ofBits 0x3c8efa35

end Trigonometry
end AirDefense

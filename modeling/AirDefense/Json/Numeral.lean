import AirDefense.Number.Single

/-!
# Numerals

A JSON number as it is written, and what it stands for: an integer of 64 bits
if it is written without fraction and exponent, else a double.

The double is computed in two roundings.  As many digits as fit into 64 bits
make the significand; it is rounded once and then multiplied or divided by a
power of ten.  This is fast and may be one unit off the nearest double, and a
reader of recorded numbers has to be off by the same unit.
-/

namespace AirDefense
namespace Json

structure Numeral where
  negative : Bool
  whole : List Nat
  /-- Digits after the point; there is a point only if there are any. -/
  fraction : List Nat
  /-- A sign (true for minus) and at least one digit. -/
  exponent : Option (Bool × List Nat)
deriving DecidableEq, Repr

namespace Numeral

inductive Meaning where
  | natural (n : Nat)
  | negative (n : Nat)
  | real (x : Float)
  /-- Too large for a double. -/
  | outOfRange

/-!
## Digits
-/

def wordLimit : Nat := 18446744073709551616

/-- The greatest exponent that is told from an endless one. -/
def exponentLimit : Int := 2147483647

/-- Takes digits onto `n` as long as the result fits into a word. -/
def accumulate : Nat -> List Nat -> Nat × List Nat
  | n, [] => (n, [])
  | n, d :: rest =>
      if n * 10 + d < wordLimit then accumulate (n * 10 + d) rest
      else (n, d :: rest)

def ofDigits (digits : List Nat) : Nat :=
  digits.foldl (fun n d => n * 10 + d) 0

/-!
## Scaling
-/

def tenToThe (n : Nat) : Float :=
  Single.ofSignedDouble false (BinaryFormat.double.magnitudeBits (powerOfTen n) 1)

def greatestPower : Nat := 308

/--
Computes `x * 10 ^ e` by one multiplication, or by divisions; none if it overflows.
With every `greatestPower` digits taken off a finite `x` falls toward zero,
and a zero is left alone, so four divisions are enough.
-/
def scale? (x : Float) (e : Int) : Nat -> Option Float
  | 0 => some x
  | fuel + 1 =>
      if e.natAbs <= greatestPower then
        if 0 <= e then
          let y := x * tenToThe e.natAbs
          if y.isInf then none else some y
        else some (x / tenToThe e.natAbs)
      else if x == 0 then some x
      else if 0 <= e then none
      else scale? (x / tenToThe greatestPower) (e + greatestPower) fuel

def holdExponent (e : Int) : Int :=
  max (-exponentLimit - 1) (min exponentLimit e)

def signed (negative : Bool) (x : Float) : Float :=
  if negative then -x else x

/-- The double that a significand, a power of ten and an exponent part write. -/
def real (n : Numeral) (significand : Nat) (power : Int) : Meaning :=
  let finish (e : Int) : Meaning :=
    match scale? significand.toUInt64.toFloat e 4 with
    | some x => .real (signed n.negative x)
    | none => .outOfRange
  match n.exponent with
  | none => finish power
  | some (minus, digits) =>
      let e : Int := ofDigits digits
      if e <= exponentLimit then
        finish (holdExponent (if minus then power - e else power + e))
      else if significand ≠ 0 && !minus then .outOfRange
      else .real (signed n.negative 0)

/-- A whole digit that no longer fits counts as a power of ten. -/
def meaning (n : Numeral) : Meaning :=
  let (significand, dropped) := accumulate 0 n.whole
  let (refined, unread) := accumulate significand n.fraction
  let power : Int := dropped.length - (n.fraction.length - unread.length : Nat)
  if n.fraction.isEmpty && n.exponent.isNone && dropped.isEmpty then
    if !n.negative then .natural significand
    else if 0 < significand && significand <= wordLimit / 2 then .negative (significand - 1)
    else n.real significand 0
  else n.real refined power

/-!
## Writing
-/

def ofNat (n : Nat) : Numeral :=
  { negative := false
    whole := (Nat.toDigits 10 n).map fun c => c.toNat - '0'.toNat
    fraction := []
    exponent := none }

def ofInt (n : Int) : Numeral :=
  { ofNat n.natAbs with negative := n < 0 }

def digitText (digits : List Nat) : List Char :=
  digits.map Nat.digitChar

def text (n : Numeral) : List Char :=
  (if n.negative then ['-'] else [])
    ++ digitText n.whole
    ++ (if n.fraction.isEmpty then [] else '.' :: digitText n.fraction)
    ++ match n.exponent with
      | none => []
      | some (minus, digits) =>
          'e' :: (if minus then ['-'] else []) ++ digitText digits

end Numeral
end Json
end AirDefense

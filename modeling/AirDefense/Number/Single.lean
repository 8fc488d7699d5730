import AirDefense.Number.BinaryFormat
import AirDefense.Number.Bounded

/-!
# Single precision

Conversions of single-precision numbers and the few operations on them that
need a rule of their own: the sign of a zero, the least of two numbers when one
is NaN, the length of a vector.
-/

namespace AirDefense
namespace Single

open BinaryFormat

/-!
## Conversions
-/

def ofSigned (negative : Bool) (magnitude : Nat) : Float32 :=
  Float32.ofBits (UInt32.ofNat (magnitude + if negative then single.signBit else 0))

def ofSignedDouble (negative : Bool) (magnitude : Nat) : Float :=
  Float.ofBits (UInt64.ofNat (magnitude + if negative then double.signBit else 0))

def isNegative (x : Float32) : Bool :=
  single.signBit <= x.toBits.toNat

def magnitude (x : Float32) : Nat :=
  x.toBits.toNat % single.signBit

def ofInt (n : Int) : Float32 :=
  ofSigned (n < 0) (single.magnitudeBits n.natAbs 1)

def ofDouble (x : Float) : Float32 :=
  let bits := x.toBits.toNat
  let negative : Bool := double.signBit <= bits
  match double.decode? (bits % double.signBit) with
  | some (m, q) => ofSigned negative (single.magnitudeBitsOfScaled m q)
  | none =>
      if x.isNaN then Float32.ofBits 0x7fc00000
      else ofSigned negative single.infinityBits

def toDouble (x : Float32) : Float :=
  match single.decode? (magnitude x) with
  | some (m, q) => ofSignedDouble (isNegative x) (double.magnitudeBitsOfScaled m q)
  | none =>
      if x.isNaN then Float.ofBits 0x7ff8000000000000
      else ofSignedDouble (isNegative x) double.infinityBits

/--
The integer part, cut off toward zero and held to the 32-bit range; NaN gives
zero.
-/
def truncate (x : Float32) : Int :=
  if x.isNaN then 0
  else
    let size : Int :=
      match single.decode? (magnitude x) with
      | some (m, q) =>
          if 0 <= q then (m * powerOfTwo q.toNat : Nat) else (m / powerOfTwo (-q).toNat : Nat)
      | none => 1 - Bounded.least
    Bounded.clamp (if isNegative x then -size else size)

/-- The size of the single nearest to an integer, which is an integer too. -/
def roundedSize (n : Int) : Nat :=
  match single.decode? (single.magnitudeBits n.natAbs 1) with
  | some (m, q) => if 0 <= q then m * powerOfTwo q.toNat else m / powerOfTwo (-q).toNat
  | none => n.natAbs

/--
The integer with the fewest significant digits that is rounded to the same
single as `n`, and of those the one nearest to that single.
-/
def shortest (n : Int) : Int :=
  let size := roundedSize n
  let cut (zeros : Nat) : Nat := nearest size (powerOfTen zeros) * powerOfTen zeros
  let reads (k : Nat) : Bool := single.magnitudeBits k 1 = single.magnitudeBits size 1
  let k := (((List.range 10).reverse.map cut).find? reads).getD size
  if n < 0 then -k else k

/-!
## Operations
-/

/-- One with the sign of `x`, that of a zero included; NaN stays NaN. -/
def signum (x : Float32) : Float32 :=
  if x.isNaN then x
  else ofSigned (isNegative x) 0x3f800000

/-- The lesser number; a NaN gives way to the other one. -/
def least (x y : Float32) : Float32 :=
  if x.isNaN then y
  else if y.isNaN then x
  else if y < x then y else x

/-- The greater number; a NaN gives way to the other one. -/
def greatest (x y : Float32) : Float32 :=
  if x.isNaN then y
  else if y.isNaN then x
  else if x < y then y else x

/--
The length of `(x, y)`: squares and root are taken in double precision.  An
infinite component makes the length infinite, even beside a NaN.
-/
def hypot (x y : Float32) : Float32 :=
  if x.isInf || y.isInf then ofSigned false single.infinityBits
  else
    let a := toDouble x
    let b := toDouble y
    ofDouble (Float.sqrt (a * a + b * b))

end Single
end AirDefense

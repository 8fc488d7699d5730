import AirDefense.Number.Power

/-!
# Binary floating-point formats

The numbers of a binary format are `m * 2 ^ q` with a bounded `m`.  This module
rounds a quotient of natural numbers to the nearest number of a format, a tie
going to the even neighbour, and reads a number back from its bits.  Signs are
left to the callers.
-/

namespace AirDefense

/-- Bits of the significand (the hidden one included) and of the exponent. -/
structure BinaryFormat where
  precision : Nat
  exponentBits : Nat
deriving DecidableEq, Repr

namespace BinaryFormat

def single : BinaryFormat := ⟨24, 8⟩

def double : BinaryFormat := ⟨53, 11⟩

def leastExponent (f : BinaryFormat) : Int :=
  3 - powerOfTwo (f.exponentBits - 1) - f.precision

def infinityBits (f : BinaryFormat) : Nat :=
  (powerOfTwo f.exponentBits - 1) * powerOfTwo (f.precision - 1)

def signBit (f : BinaryFormat) : Nat :=
  powerOfTwo (f.exponentBits + f.precision - 1)

/-- The natural number nearest to `num / den`, a tie going to the even one. -/
def nearest (num den : Nat) : Nat :=
  let quotient := num / den
  let twice := 2 * (num % den)
  if twice < den then quotient
  else if den < twice then quotient + 1
  else quotient + quotient % 2

/-- The exponent `e` with `2 ^ e <= num / den < 2 ^ (e + 1)`. -/
def binaryExponent (num den : Nat) : Int :=
  let guess : Int := (num.log2 : Int) - den.log2
  let reaches :=
    if 0 <= guess then den * powerOfTwo guess.toNat <= num
    else den <= num * powerOfTwo (-guess).toNat
  if reaches then guess else guess - 1

/--
The bits of the number nearest to `num / den`.  Counting the significand on
top of the exponent field carries into the exponent where rounding does.
-/
def magnitudeBits (f : BinaryFormat) (num den : Nat) : Nat :=
  if num = 0 then 0
  else
    let scale := max (binaryExponent num den - (f.precision - 1)) f.leastExponent
    let significand :=
      if 0 <= scale then nearest num (den * powerOfTwo scale.toNat)
      else nearest (num * powerOfTwo (-scale).toNat) den
    min f.infinityBits
      (significand + (scale - f.leastExponent).toNat * powerOfTwo (f.precision - 1))

/-- A finite magnitude as `m * 2 ^ q`; none for infinity and NaN. -/
def decode? (f : BinaryFormat) (bits : Nat) : Option (Nat × Int) :=
  if f.infinityBits <= bits then none
  else
    let hidden := powerOfTwo (f.precision - 1)
    if bits < hidden then some (bits, f.leastExponent)
    else some (bits % hidden + hidden, f.leastExponent + (bits / hidden : Nat) - 1)

def magnitudeBitsOfScaled (f : BinaryFormat) (m : Nat) (q : Int) : Nat :=
  if 0 <= q then f.magnitudeBits (m * powerOfTwo q.toNat) 1
  else f.magnitudeBits m (powerOfTwo (-q).toNat)

end BinaryFormat
end AirDefense

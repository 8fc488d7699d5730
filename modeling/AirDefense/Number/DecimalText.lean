import AirDefense.Number.BinaryFormat

/-!
# Numbers as text

A number as an operator types it: an optional sign, digits with at most one
point and at least one digit, and an optional exponent; or a word for infinity
or for no number.  It is rounded once, to the nearest double.
-/

namespace AirDefense

inductive WrittenNumber where
  /-- The number `m * 2 ^ q`, or its negative. -/
  | finite (negative : Bool) (m : Nat) (q : Int)
  | infinite (negative : Bool)
  | nan
deriving DecidableEq, Repr

inductive NumberError where
  | empty
  | malformed
deriving DecidableEq, Repr

namespace NumberError

def message : NumberError -> String
  | empty => "cannot parse float from empty string"
  | malformed => "invalid float literal"

end NumberError

namespace WrittenNumber

/-!
## Digits
-/

def takeDigits (cs : List Char) : List Nat × List Char :=
  ((cs.takeWhile Char.isDigit).map fun c => c.toNat - '0'.toNat,
    cs.dropWhile Char.isDigit)

def ofDigits (digits : List Nat) : Nat :=
  digits.foldl (fun n d => n * 10 + d) 0

/-- Exponents of five digits and more are told apart no further than this. -/
def exponentLimit : Nat := 65536

def ofExponentDigits (digits : List Nat) : Nat :=
  digits.foldl (fun e d => if e < exponentLimit then e * 10 + d else e) 0

def takeSign : List Char -> Bool × List Char
  | '-' :: rest => (true, rest)
  | '+' :: rest => (false, rest)
  | cs => (false, cs)

/-!
## Reading
-/

def takeFraction : List Char -> List Nat × List Char
  | '.' :: rest => takeDigits rest
  | cs => ([], cs)

def exponent? : List Char -> Option Int
  | [] => some 0
  | c :: rest =>
      if c = 'e' || c = 'E' then
        let (minus, rest) := takeSign rest
        match takeDigits rest with
        | ([], _) => none
        | (digits, []) =>
            let e : Int := ofExponentDigits digits
            some (if minus then -e else e)
        | (_, _ :: _) => none
      else none

def round (negative : Bool) (digits : Nat) (power : Int) : WrittenNumber :=
  let bits :=
    if 0 <= power then BinaryFormat.double.magnitudeBits (digits * powerOfTen power.toNat) 1
    else BinaryFormat.double.magnitudeBits digits (powerOfTen (-power).toNat)
  match BinaryFormat.double.decode? bits with
  | some (m, q) => finite negative m q
  | none => infinite negative

def ofDigitText? (negative : Bool) (cs : List Char) : Option WrittenNumber :=
  let (whole, rest) := takeDigits cs
  let (fraction, rest) := takeFraction rest
  if whole = [] && fraction = [] then none
  else
    match exponent? rest with
    | none => none
    | some e => some (round negative (ofDigits (whole ++ fraction)) (e - fraction.length))

/-- A number written as a word, in letters of either case. -/
def ofWord? (negative : Bool) (cs : List Char) : Option WrittenNumber :=
  let word := cs.map Char.toLower
  if word = "inf".toList || word = "infinity".toList then some (infinite negative)
  else if word = "nan".toList then some nan
  else none

def ofText (text : String) : Except NumberError WrittenNumber :=
  match text.toList with
  | [] => .error .empty
  | cs =>
      let (negative, rest) := takeSign cs
      match (ofDigitText? negative rest).or (ofWord? negative rest) with
      | some x => .ok x
      | none => .error .malformed

end WrittenNumber
end AirDefense

import AirDefense.Json.Value

/-!
# Reading JSON

From the characters of a text to its tree.  Every function returns what it read
and the characters that follow; where the text breaks off no characters follow.
-/

namespace AirDefense
namespace Json
namespace Reader

def isBlank (c : Char) : Bool :=
  c = ' ' || c = '\n' || c = '\t' || c = '\r'

def skipBlanks (cs : List Char) : List Char :=
  cs.dropWhile isBlank

/-!
## Strings
-/

/-- A string that ends, or the place where it breaks off. -/
inductive Scanned where
  | done (text : Text) (rest : List Char)
  | broken (b : Breakage)

def escaped? : Char -> Option Char
  | '"' => some '"'
  | '\\' => some '\\'
  | '/' => some '/'
  | 'b' => some '\x08'
  | 'f' => some '\x0c'
  | 'n' => some '\n'
  | 'r' => some '\r'
  | 't' => some '\t'
  | _ => none

def hexDigit? (c : Char) : Option Nat :=
  if '0' <= c && c <= '9' then some (c.toNat - 48)
  else if 'a' <= c && c <= 'f' then some (c.toNat - 87)
  else if 'A' <= c && c <= 'F' then some (c.toNat - 55)
  else none

def codeUnit? (a b c d : Char) : Option Nat := do
  let a <- hexDigit? a
  let b <- hexDigit? b
  let c <- hexDigit? c
  let d <- hexDigit? d
  return ((a * 16 + b) * 16 + c) * 16 + d

def isLeading (unit : Nat) : Bool :=
  0xd800 <= unit && unit <= 0xdbff

def isTrailing (unit : Nat) : Bool :=
  0xdc00 <= unit && unit <= 0xdfff

def pair (leading trailing : Nat) : Char :=
  Char.ofNat (0x10000 + (leading - 0xd800) * 0x400 + (trailing - 0xdc00))

def cut (sound : Bool) : Breakage :=
  let c : Complaint := if sound then .truncated else .malformed
  ⟨c, .truncated, c⟩

def isShort (cs : List Char) : Bool :=
  cs.foldl (fun bytes c => bytes + c.utf8Size) 0 < 4

/--
Scans to the closing quote.  `sound` tells whether every escape so far named a
whole character; a string that is only skipped may name halves.
-/
def scan (sound : Bool) (acc : List Char) : List Char -> Scanned
  | [] => .broken (cut sound)
  | c :: rest =>
      if c = '"' then
        .done (if sound then some (String.ofList acc.reverse) else none) rest
      else if c = '\\' then
        match rest with
        | [] => .broken (cut sound)
        | e :: rest =>
            match escaped? e with
            | some x => scan sound (x :: acc) rest
            | none =>
                if e ≠ 'u' then .broken (.always .malformed)
                else
                  match rest with
                  | h1 :: h2 :: h3 :: h4 :: rest =>
                      match codeUnit? h1 h2 h3 h4 with
                      | none => .broken (.always .malformed)
                      | some unit =>
                          if isTrailing unit then scan false acc rest
                          else if !isLeading unit then
                            scan sound (Char.ofNat unit :: acc) rest
                          else
                            match rest with
                            | [] => scan sound acc []
                            | [s] => scan (sound && s = '\\') acc [s]
                            | s :: u :: low =>
                                if s ≠ '\\' || u ≠ 'u' then scan false acc (s :: u :: low)
                                else
                                  match low with
                                  | l1 :: l2 :: l3 :: l4 :: after =>
                                      match codeUnit? l1 l2 l3 l4 with
                                      | some second =>
                                          if isTrailing second then
                                            scan sound (pair unit second :: acc) after
                                          else
                                            scan false acc
                                              (s :: u :: l1 :: l2 :: l3 :: l4 :: after)
                                      | none =>
                                          scan sound acc (s :: u :: l1 :: l2 :: l3 :: l4 :: after)
                                  | short => scan sound acc (s :: u :: short)
                  | short =>
                      if isShort short then
                        .broken (cut sound)
                      else .broken (.always .malformed)
      else if c.toNat < 0x20 then .broken (.always .malformed)
      else scan sound (c :: acc) rest

/-!
## Numbers and words
-/

def digits (cs : List Char) : List Nat × List Char :=
  ((cs.takeWhile Char.isDigit).map fun c => c.toNat - '0'.toNat,
    cs.dropWhile Char.isDigit)

/-- A digit is missing: a number that is skipped must not end there either. -/
def missingDigit (rest : List Char) : Breakage :=
  if rest.isEmpty then ⟨.truncated, .malformed, .malformed⟩ else .always .malformed

def exponent (cs : List Char) : Except Breakage (Option (Bool × List Nat) × List Char) :=
  match cs with
  | c :: rest =>
      if c = 'e' || c = 'E' then
        let (minus, rest) :=
          match rest with
          | '-' :: rest => (true, rest)
          | '+' :: rest => (false, rest)
          | rest => (false, rest)
        match digits rest with
        | ([], rest) => .error (missingDigit rest)
        | (ds, rest) => .ok (some (minus, ds), rest)
      else .ok (none, c :: rest)
  | [] => .ok (none, [])

def fraction (cs : List Char) : Except Breakage (List Nat × List Char) :=
  match cs with
  | '.' :: rest =>
      match digits rest with
      | ([], rest) => .error (missingDigit rest)
      | (ds, rest) => .ok (ds, rest)
  | rest => .ok ([], rest)

def numeral (negative : Bool) (cs : List Char) : Except Breakage (Numeral × List Char) :=
  match digits cs with
  | ([], rest) => .error (missingDigit rest)
  | (0 :: _ :: _, _) => .error (.always .malformed)
  | (whole, rest) => do
      let (fraction, rest) <- fraction rest
      let (exponent, rest) <- exponent rest
      return ({ negative, whole, fraction, exponent }, rest)

def word : List Char -> List Char -> Except Breakage (List Char)
  | [], rest => .ok rest
  | _ :: _, [] => .error (.always .truncated)
  | w :: word', c :: rest =>
      if c = w then word word' rest else .error (.always .malformed)

/-!
## Values
-/

def unbroken (v : Value) (rest : Except Breakage (List Char)) : Value × List Char :=
  match rest with
  | .ok rest => (v, rest)
  | .error b => (.broken b.unchosen, [])

def scalar (c : Char) (rest : List Char) : Value × List Char :=
  if c = 'n' then unbroken .null (word ['u', 'l', 'l'] rest)
  else if c = 't' then unbroken (.bool true) (word ['r', 'u', 'e'] rest)
  else if c = 'f' then unbroken (.bool false) (word ['a', 'l', 's', 'e'] rest)
  else if c = '"' then
    match scan true [] rest with
    | .done text rest => (.string text, rest)
    | .broken b => (.broken b, [])
  else if c = '-' || c.isDigit then
    match numeral (c = '-') (if c = '-' then rest else c :: rest) with
    | .ok (n, rest) => (.number n, rest)
    | .error b => (.broken b, [])
  else (.broken (.always .malformed), [])

mutual

/-- Reads one value.  Each step down costs one unit of `fuel`. -/
def value (fuel : Nat) (cs : List Char) : Value × List Char :=
  match fuel with
  | 0 => (.broken (.always .malformed), [])
  | fuel + 1 =>
      match skipBlanks cs with
      | [] => (.broken (.always .truncated), [])
      | '[' :: rest =>
          let (xs, rest) := items fuel true rest
          (.array xs, rest)
      | '\x7b' :: rest =>
          let (ms, rest) := members fuel true rest
          (.object ms, rest)
      | c :: rest => scalar c rest

def items (fuel : Nat) (first : Bool) (cs : List Char) : Items × List Char :=
  match fuel with
  | 0 => (.broken (.always .malformed), [])
  | fuel + 1 =>
      match skipBlanks cs with
      | [] => (.broken (.always .truncated), [])
      | c :: rest =>
          if c = ']' then (.closed, rest)
          else if first then
            let (v, rest) := value fuel (c :: rest)
            let (vs, rest) := items fuel false rest
            (.more v vs, rest)
          else if c = ',' then
            match skipBlanks rest with
            | [] => (.dangling, [])
            | ']' :: _ => (.broken (.always .malformed), [])
            | rest =>
                let (v, rest) := value fuel rest
                let (vs, rest) := items fuel false rest
                (.more v vs, rest)
          else (.broken (.always .malformed), [])

def members (fuel : Nat) (first : Bool) (cs : List Char) : Members × List Char :=
  match fuel with
  | 0 => (.broken (.always .malformed), [])
  | fuel + 1 =>
      match skipBlanks cs with
      | [] => (.broken (.always .truncated), [])
      | c :: rest =>
          if c = '\x7d' then (.closed, rest)
          else if first then
            if c = '"' then member fuel rest
            else if c = '[' then (.unnamed (.array .closed), [])
            else if c = '\x7b' then (.unnamed (.object .closed), [])
            else (.unnamed (scalar c rest).1, [])
          else if c = ',' then
            match skipBlanks rest with
            | [] => (.dangling, [])
            | '"' :: rest => member fuel rest
            | _ => (.broken (.always .malformed), [])
          else (.broken (.always .malformed), [])

def member (fuel : Nat) (cs : List Char) : Members × List Char :=
  match fuel with
  | 0 => (.broken (.always .malformed), [])
  | fuel + 1 =>
      match scan true [] cs with
      | .broken b => (.broken b, [])
      | .done key rest =>
          match skipBlanks rest with
          | [] => (.more key (.broken (.always .truncated)) .closed, [])
          | ':' :: rest =>
              let (v, rest) := value fuel rest
              let (ms, rest) := members fuel false rest
              (.more key v ms, rest)
          | _ => (.more key (.broken (.always .malformed)) .closed, [])

end

end Reader

/-!
## Documents
-/

structure Document where
  value : Value
  trailing : Bool

namespace Document

def ofText (text : String) : Document :=
  let cs := text.toList
  let (value, rest) := Reader.value (3 * cs.length + 3) cs
  { value, trailing := !(Reader.skipBlanks rest).isEmpty }

/-- Text after the value is only looked at once the value itself is accepted. -/
def read (d : Document) (accept : Value -> Except Complaint α) : Except Complaint α := do
  let x <- accept d.value
  if d.trailing then .error .malformed else .ok x

end Document
end Json
end AirDefense

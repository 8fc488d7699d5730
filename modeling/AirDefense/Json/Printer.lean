import AirDefense.Json.Value

/-!
# Writing JSON

The compact text of a value has no blanks; the broad one has a line for each
item and member.  Members stand in their order, and in a string only that is
escaped which has to be.
-/

namespace AirDefense
namespace Json
namespace Printer

def hexDigit (n : Nat) : Char :=
  Nat.digitChar (n % 16)

def escape (c : Char) : List Char :=
  if c = '"' then ['\\', '"']
  else if c = '\\' then ['\\', '\\']
  else if c = '\x08' then ['\\', 'b']
  else if c = '\x0c' then ['\\', 'f']
  else if c = '\n' then ['\\', 'n']
  else if c = '\r' then ['\\', 'r']
  else if c = '\t' then ['\\', 't']
  else if c.toNat < 0x20 then
    ['\\', 'u', '0', '0', hexDigit (c.toNat / 16), hexDigit c.toNat]
  else [c]

def quoted (s : String) : List Char :=
  '"' :: s.toList.flatMap escape ++ ['"']

mutual

def value : Value -> List Char
  | .null => ['n', 'u', 'l', 'l']
  | .bool true => ['t', 'r', 'u', 'e']
  | .bool false => ['f', 'a', 'l', 's', 'e']
  | .number n => n.text
  | .string s => quoted (s.getD "")
  | .array xs => '[' :: items true xs ++ [']']
  | .object ms => '\x7b' :: members true ms ++ ['\x7d']
  | .broken _ => []

def items (first : Bool) : Items -> List Char
  | .more v vs => (if first then [] else [',']) ++ value v ++ items false vs
  | _ => []

def members (first : Bool) : Members -> List Char
  | .more k v ms =>
      (if first then [] else [',']) ++ quoted (k.getD "") ++ ':' :: value v
        ++ members false ms
  | _ => []

end

/-!
## Broad text
-/

def newLine (depth : Nat) : List Char :=
  '\n' :: List.replicate (2 * depth) ' '

mutual

def broadValue (depth : Nat) : Value -> List Char
  | .array (.more v vs) =>
      '[' :: newLine (depth + 1) ++ broadValue (depth + 1) v ++ broadItems (depth + 1) vs
        ++ newLine depth ++ [']']
  | .object (.more k v ms) =>
      '\x7b' :: newLine (depth + 1) ++ quoted (k.getD "") ++ [':', ' ']
        ++ broadValue (depth + 1) v ++ broadMembers (depth + 1) ms
        ++ newLine depth ++ ['\x7d']
  | .null => ['n', 'u', 'l', 'l']
  | .bool true => ['t', 'r', 'u', 'e']
  | .bool false => ['f', 'a', 'l', 's', 'e']
  | .number n => n.text
  | .string s => quoted (s.getD "")
  | .array _ => ['[', ']']
  | .object _ => ['\x7b', '\x7d']
  | .broken _ => []

def broadItems (depth : Nat) : Items -> List Char
  | .more v vs => ',' :: newLine depth ++ broadValue depth v ++ broadItems depth vs
  | _ => []

def broadMembers (depth : Nat) : Members -> List Char
  | .more k v ms =>
      ',' :: newLine depth ++ quoted (k.getD "") ++ [':', ' '] ++ broadValue depth v
        ++ broadMembers depth ms
  | _ => []

end

end Printer

def Value.text (v : Value) : String :=
  String.ofList (Printer.value v)

def Value.broadText (v : Value) : String :=
  String.ofList (Printer.broadValue 0 v)

end Json
end AirDefense

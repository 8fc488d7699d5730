import AirDefense.Json.Reader

/-!
# Reading records

How a value is read as a number, a word or a record.  A record is an object
with known members, or an array of its fields in their order; members it does
not know are skipped.  Reading runs from the left and stops at the first
complaint.
-/

namespace AirDefense
namespace Json

abbrev Accept (α : Type) := Value -> Except Complaint α

namespace Accept

/--
The complaint about a value of the wrong kind.  Its own text is looked at
first, unless it opens an array or an object.
-/
def wrongKind : Value -> Complaint
  | .broken b => b.read
  | .string none => .malformed
  | .number n =>
      match n.meaning with
      | .outOfRange => .malformed
      | _ => .mistyped
  | _ => .mistyped

/-!
## Scalars
-/

def integer (least greatest : Int) : Accept Int
  | .number n =>
      let bounded (k : Int) : Except Complaint Int :=
        if least <= k && k <= greatest then .ok k else .error .mistyped
      match n.meaning with
      | .natural k => bounded k
      | .negative k => bounded (-(k : Int) - 1)
      | .real _ => .error .mistyped
      | .outOfRange => .error .malformed
  | v => .error (wrongKind v)

def natural (bits : Nat) : Accept Nat := fun v =>
  (integer 0 (powerOfTwo bits - 1 : Nat) v).map Int.toNat

def int32 : Accept Int :=
  integer Bounded.least Bounded.greatest

/-- A single-precision number; an integer is rounded at once. -/
def single : Accept Float32
  | .number n =>
      match n.meaning with
      | .natural k => .ok (Single.ofInt k)
      | .negative k => .ok (Single.ofInt (-(k : Int) - 1))
      | .real x => .ok (Single.ofDouble x)
      | .outOfRange => .error .malformed
  | v => .error (wrongKind v)

def boolean : Accept Bool
  | .bool b => .ok b
  | v => .error (wrongKind v)

def string : Accept String
  | .string (some s) => .ok s
  | v => .error (wrongKind v)

def optional (accept : Accept α) : Accept (Option α)
  | .null => .ok none
  | v => (accept v).map some

/-- One of some words, written as a string or as the key of a null. -/
def oneOf (words : List (String × α)) : Accept α := fun v =>
  let named (s : String) : Except Complaint α :=
    match words.lookup s with
    | some x => .ok x
    | none => .error .mistyped
  match v with
  | .string (some s) => named s
  | .string none => .error .malformed
  | .object ms =>
      match ms with
      | .more (some key) v rest => do
          let x <- named key
          match v with
          | .null =>
              match rest with
              | .closed => return x
              | .broken b => .error b.read
              | _ => .error .malformed
          | v => .error (wrongKind v)
      | .more none _ _ => .error .malformed
      | .closed => .error .malformed
      | .broken b => .error b.read
      | .dangling => .error .truncated
      | .unnamed key => .error (wrongKind key)
  | .broken b => .error b.choice
  | _ => .error .malformed

/-!
## Lists
-/

def everyItem (accept : Accept α) : Items -> Except Complaint (List α)
  | .closed => .ok []
  | .more head tail => do
      let x <- accept head
      let xs <- everyItem accept tail
      return x :: xs
  | .broken b => .error b.read
  | .dangling => .error .truncated

def list (accept : Accept α) : Accept (List α)
  | .array items => everyItem accept items
  | v => .error (wrongKind v)

end Accept

/-!
## Records
-/

structure RecordField (ρ : Type) where
  name : String
  put : Value -> ρ -> Except Complaint ρ

namespace RecordField

def of (name : String) (accept : Accept α) (set : α -> ρ -> ρ) : RecordField ρ :=
  { name, put := fun v r => (accept v).map (set · r) }

end RecordField

inductive Absent where
  | keepDefault
  | refuse
deriving DecidableEq

namespace Record

/--
Reads members into a record.  `seen` holds the fields that were given: a field
may be given only once, and its value is looked at only after that.
-/
def ofMembers (fields : List (RecordField ρ)) (absent : Absent) :
    Members -> List String -> ρ -> Except Complaint ρ
  | .closed, seen, r =>
      if absent = .refuse && !(fields.all fun f => seen.contains f.name) then
        .error .mistyped
      else .ok r
  | .more none _ _, _, _ => .error .malformed
  | .more (some key) v rest, seen, r =>
      match fields.find? (fun f => f.name == key) with
      | some f =>
          if seen.contains key then .error .mistyped
          else
            match f.put v r with
            | .ok r => ofMembers fields absent rest (key :: seen) r
            | .error c => .error c
      | none =>
          match v.skip? with
          | some c => .error c
          | none => ofMembers fields absent rest seen r
  | .broken b, _, _ => .error b.read
  | .dangling, _, _ => .error .truncated
  | .unnamed _, _, _ => .error .malformed

def ofItems (absent : Absent) : List (RecordField ρ) -> Items -> ρ -> Except Complaint ρ
  | [], .closed, r => .ok r
  | [], .broken b, _ => .error b.read
  | [], _, _ => .error .malformed
  | f :: fields, .more v rest, r =>
      match f.put v r with
      | .ok r => ofItems absent fields rest r
      | .error c => .error c
  | _ :: _, .closed, r =>
      match absent with
      | .keepDefault => .ok r
      | .refuse => .error .mistyped
  | _ :: _, .broken b, _ => .error b.read
  | _ :: _, .dangling, _ => .error .truncated

def accept (fields : List (RecordField ρ)) (absent : Absent) (default : ρ) : Accept ρ
  | .object ms => ofMembers fields absent ms [] default
  | .array xs => ofItems absent fields xs default
  | v => .error (Accept.wrongKind v)

end Record
end Json
end AirDefense

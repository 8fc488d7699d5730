import AirDefense.Json.Numeral

/-!
# JSON values

A JSON text as a tree.  A text that stops being JSON is a tree too: it ends in
a breakage at the place where reading had to stop.  A reader that walks the
tree from the left meets the first complaint about the text first, be it a
breakage or a value of the wrong kind.
-/

namespace AirDefense
namespace Json

inductive Complaint where
  | malformed
  | truncated
  | mistyped
deriving DecidableEq, Repr

namespace Complaint

def name : Complaint -> String
  | malformed => "syntax"
  | truncated => "eof"
  | mistyped => "data"

end Complaint

/--
Where a text breaks off.  A value that is read is checked more closely than
one that is skipped, and where one of some words is expected only the first
character counts, so the three may complain differently.
-/
structure Breakage where
  read : Complaint
  skip : Complaint
  choice : Complaint
deriving DecidableEq, Repr

namespace Breakage

def always (c : Complaint) : Breakage := ⟨c, c, c⟩

/-- A value that starts with neither quote nor brace. -/
def unchosen (b : Breakage) : Breakage := { b with choice := .malformed }

end Breakage

/-- A string; none if an escape in it names half a character. -/
abbrev Text := Option String

mutual

inductive Value where
  | null
  | bool (b : Bool)
  | number (n : Numeral)
  | string (s : Text)
  | array (items : Items)
  | object (members : Members)
  | broken (b : Breakage)

inductive Items where
  | closed
  | more (head : Value) (tail : Items)
  | broken (b : Breakage)
  /-- The text ends after a comma. -/
  | dangling

inductive Members where
  | closed
  | more (key : Text) (value : Value) (tail : Members)
  | broken (b : Breakage)
  /-- The text ends after a comma. -/
  | dangling
  /-- A first member whose key is no string. -/
  | unnamed (key : Value)

end

namespace Items

def ofList : List Value -> Items
  | [] => closed
  | v :: rest => more v (ofList rest)

end Items

namespace Members

def ofList : List (String × Value) -> Members
  | [] => closed
  | (k, v) :: rest => more (some k) v (ofList rest)

end Members

namespace Value

def ofString (s : String) : Value := string (some s)

def ofInt (n : Int) : Value := number (Numeral.ofInt n)

def ofNat (n : Nat) : Value := number (Numeral.ofNat n)

def ofList (items : List Value) : Value := array (Items.ofList items)

def record (members : List (String × Value)) : Value :=
  object (Members.ofList members)

end Value

/-!
## Skipping

A skipped value has to be JSON; nothing else is asked of it.
-/

mutual

def Value.skip? : Value -> Option Complaint
  | .array items => items.skip?
  | .object members => members.skip?
  | .broken b => some b.skip
  | _ => none

def Items.skip? : Items -> Option Complaint
  | .closed => none
  | .more head tail => head.skip?.or tail.skip?
  | .broken b => some b.skip
  | .dangling => some .truncated

def Members.skip? : Members -> Option Complaint
  | .closed => none
  | .more _ value tail => value.skip?.or tail.skip?
  | .broken b => some b.skip
  | .dangling => some .truncated
  | .unnamed _ => some .malformed

end

/-!
## Buffering

A value that is kept for later has its numbers and strings checked, and it must
not be nested too deeply.
-/

def depthLimit : Nat := 127

mutual

/-- The complaint about a value that is kept whole, at most `depth` deep. -/
def Value.keep? (depth : Nat) : Value -> Option Complaint
  | .number n =>
      match n.meaning with
      | .outOfRange => some .malformed
      | _ => none
  | .string none => some .malformed
  | .array items =>
      match depth with
      | 0 => some .malformed
      | d + 1 => items.keep? d
  | .object members =>
      match depth with
      | 0 => some .malformed
      | d + 1 => members.keep? d
  | .broken b => some b.read
  | _ => none

def Items.keep? (depth : Nat) : Items -> Option Complaint
  | .closed => none
  | .more head tail => (head.keep? depth).or (tail.keep? depth)
  | .broken b => some b.read
  | .dangling => some .truncated

def Members.keep? (depth : Nat) : Members -> Option Complaint
  | .closed => none
  | .more none _ _ => some .malformed
  | .more (some _) value tail => (value.keep? depth).or (tail.keep? depth)
  | .broken b => some b.read
  | .dangling => some .truncated
  | .unnamed _ => some .malformed

end

end Json
end AirDefense

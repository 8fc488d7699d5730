import AirDefense.Json.Record

/-!
# Commands

What an operator can ask for, and how lines of input ask for it.
-/

namespace AirDefense

open Json

inductive OperatorCommand where
  | launchAttack
  | quit
deriving DecidableEq, Repr

namespace OperatorCommand

def name : OperatorCommand -> String
  | launchAttack => "LaunchAttack"
  | quit => "Quit"

/-- The command that a line asks for; its line ends do not count. -/
def ofLine? (line : String) : Option OperatorCommand :=
  let isLineEnd (c : Char) : Bool := c = '\r' || c = '\n'
  let key := (line.toList.reverse.dropWhile isLineEnd).reverse
  if key = [] || key = " ".toList || key = "a".toList || key = "space".toList then
    some launchAttack
  else if key = "q".toList || key = "esc".toList || key = "quit".toList then some quit
  else none

/-!
## JSON form

A command is an object whose member `type` names it.  Other members are kept
and not looked at.
-/

def named : Accept OperatorCommand
  | .string (some s) =>
      if s = launchAttack.name then .ok launchAttack
      else if s = quit.name then .ok quit
      else .error .mistyped
  | v => .error (Accept.wrongKind v)

def ofMembers : Members -> Option OperatorCommand -> Except Complaint OperatorCommand
  | .closed, some c => .ok c
  | .closed, none => .error .mistyped
  | .more none _ _, _ => .error .malformed
  | .more (some key) v rest, found =>
      if key = "type" then
        if found.isSome then .error .mistyped
        else
          match named v with
          | .ok c => ofMembers rest (some c)
          | .error e => .error e
      else
        match v.keep? (depthLimit - 1) with
        | some e => .error e
        | none => ofMembers rest found
  | .broken b, _ => .error b.read
  | .dangling, _ => .error .truncated
  | .unnamed _, _ => .error .malformed

/-- A command may also be written as an array with its name alone. -/
def accept : Accept OperatorCommand
  | .object ms => ofMembers ms none
  | .array xs =>
      match xs with
      | .closed => .error .mistyped
      | .more v rest => do
          let c <- named v
          match rest.keep? (depthLimit - 1) with
          | some e => .error e
          | none =>
              match rest with
              | .closed => return c
              | _ => .error .mistyped
      | .broken b => .error b.read
      | .dangling => .error .truncated
  | v => .error (Accept.wrongKind v)

def toJson (c : OperatorCommand) : Value :=
  .record [("type", .ofString c.name)]

end OperatorCommand

inductive Heard where
  | operator (c : OperatorCommand)
  | closed
deriving DecidableEq, Repr

namespace Heard

def lineFeed : UInt8 := 10

/-- The lines of some input.  What follows the last line feed is a line if it is not empty. -/
def lines (bytes : List UInt8) : List (List UInt8) :=
  let pieces := bytes.splitOn lineFeed
  if pieces.getLast? = some [] then pieces.dropLast else pieces

/-- What a line means to a session, if anything; one that is not UTF-8 ends the input. -/
def ofLine? (line : List UInt8) : Option Heard :=
  match String.fromUTF8? ⟨line.toArray⟩ with
  | none => some closed
  | some text => (OperatorCommand.ofLine? text).map operator

def ofLines : List (List UInt8) -> List Heard
  | [] => [closed]
  | line :: rest =>
      match ofLine? line with
      | some closed => [closed]
      | some (operator c) => operator c :: ofLines rest
      | none => ofLines rest

def ofInput (bytes : List UInt8) : List Heard :=
  ofLines (lines bytes)

end Heard
end AirDefense

/-!
# Identities

The two sides of an engagement, the names of their missiles, positions on the
field, access tiers of the field lock and the score.
-/

namespace AirDefense

inductive Side where
  | attacker
  | defender
deriving DecidableEq, Repr, Inhabited

namespace Side

def opponent : Side -> Side
  | attacker => defender
  | defender => attacker

def name : Side -> String
  | attacker => "Attacker"
  | defender => "Defender"

theorem opponent_ne (s : Side) : s.opponent ≠ s := by
  cases s <;> decide

theorem eq_of_ne_opponent {s t : Side} (h : s ≠ t.opponent) : s = t := by
  revert h
  cases s <;> cases t <;> decide

end Side

/--
A missile is named by its slot and by how often that slot has been filled: a
slot is used again, a name is not (until the 32-bit count comes round).
-/
structure MissileId where
  side : Side
  slot : Nat
  generation : UInt32
deriving DecidableEq, Repr, Inhabited

/-- A cell position; `y` grows toward the goal. -/
structure Position where
  x : Int
  y : Int
deriving DecidableEq, Repr, Inhabited

/-- Access tier of the field lock, from the most to the least urgent. -/
inductive Tier where
  | high
  | middle
  | low
deriving DecidableEq, Repr, Inhabited

namespace Tier

def index : Tier -> Nat
  | high => 0
  | middle => 1
  | low => 2

def ofIndex (n : Nat) : Tier :=
  match n % 3 with
  | 0 => high
  | 1 => middle
  | _ => low

def name : Tier -> String
  | high => "High"
  | middle => "Middle"
  | low => "Low"

def all : List Tier := [high, middle, low]

end Tier

structure Score where
  attackerPoints : Nat
  defenderPoints : Nat
deriving DecidableEq, Repr, Inhabited

namespace Score

def zero : Score := ⟨0, 0⟩

end Score

end AirDefense

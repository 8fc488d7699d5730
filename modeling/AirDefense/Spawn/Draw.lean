import AirDefense.Fleet.Missile
import AirDefense.Settings.Basic
import AirDefense.Spawn.KeyStream

/-!
# Random attackers

Where an attacker starts and how it flies is drawn from a key stream.  A draw
may fault, and the words it has read by then are used up.
-/

namespace AirDefense

/-- A computation that reads a key stream and may fault. -/
abbrev Draw (α : Type) := KeyStream -> Except Fault α × KeyStream

namespace Draw

def fault (f : Fault) : Draw α := fun s => (.error f, s)

def lift (r : Except Fault α) : Draw α := fun s => (r, s)

def andThen (d : Draw α) (next : α -> Draw β) : Draw β := fun s =>
  match d s with
  | (.ok x, s) => next x s
  | (.error f, s) => (.error f, s)

instance : Monad Draw where
  pure x := fun s => (.ok x, s)
  bind := andThen

def word : Draw UInt32 := fun s =>
  let (w, s) := s.next
  (.ok w, s)

def within (accept : UInt32 -> Option α) : Nat -> Draw α
  | 0 => fault .unendingDraw
  | words + 1 => do
      let w <- word
      match accept w with
      | some x => pure x
      | none => within accept words

/-- Draws words until one is accepted.  One that is not met within a period never comes. -/
def until? (accept : UInt32 -> Option α) : Draw α :=
  within accept streamPeriod

/-!
## Integers
-/

/-- The greatest low half of a product that leaves all `count` numbers equally likely. -/
def zone (count : UInt32) : UInt32 :=
  (count <<< (31 - UInt32.ofNat count.toNat.log2)) - 1

/-- The number that a word stands for among `count`, if it does stand for one. -/
def pick (count : UInt32) (w : UInt32) : Option Nat :=
  let product := w.toNat * count.toNat
  if product % wordCount <= (zone count).toNat then some (product / wordCount) else none

def integer (lo hi : Int) : Draw Int :=
  if hi < lo then fault .emptyDrawRange
  else
    let count := UInt32.ofNat (hi - lo + 1).toNat
    if count = 0 then do
      let w <- word
      pure (if w.toNat < wordCount / 2 then w.toNat else (w.toNat : Int) - wordCount)
    else do
      let n <- until? (pick count)
      pure (lo + n)

/-!
## Single-precision numbers
-/

def fraction (w : UInt32) : Float32 :=
  Float32.ofBits ((0x3f800000 : UInt32) ||| (w >>> 9)) - Single.ofInt 1

/-- A number from `lo` up to, but not including, `hi`. -/
def single (lo hi : Float32) : Draw Float32 :=
  if !(lo < hi) then fault .emptyDrawRange
  else if !lo.isFinite then fault .drawFromNonFinite
  else if !hi.isFinite then fault .drawToNonFinite
  else if !(hi - lo).isFinite then fault .drawRangeOverflow
  else
    until? fun w =>
      let x := fraction w * (hi - lo) + lo
      if x < hi then some x else none

/-!
## Attackers
-/

/--
An attacker just below the top wall, anywhere between the walls, heading
somewhere downward.
-/
def attacker (f : FieldSettings) (a : AttackerSettings) : Draw Missile := do
  let least <- lift f.leastInterior?
  let greatest <- lift f.greatestInterior?
  let x <- integer least greatest
  let speed <-
    if Single.ofInt 1 < a.maxSpeed then single (Single.ofInt 1) a.maxSpeed
    else pure (Single.ofInt 1)
  let angle <- single a.maxAngle (Single.ofInt 180 - a.maxAngle)
  pure (.launchedAt .attacker ⟨Single.ofInt x, Single.ofInt least⟩ speed angle)

end Draw
end AirDefense

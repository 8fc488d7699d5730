import AirDefense.Fault

/-!
# Slot chains

The slots of one side, numbered from zero.  Every slot is free, ready or in
use.  The free slots form a stack and the ready slots a queue; both are linked
through one array, in which a slot names the slot after it.
-/

namespace AirDefense

inductive SlotPlace where
  | free
  | ready
  | inUse
deriving DecidableEq, Repr, Inhabited

structure SlotChain where
  next : Array (Option Nat)
  place : Array SlotPlace
  freeHead : Option Nat
  freeLength : Nat
  readyHead : Option Nat
  readyTail : Option Nat
  readyLength : Nat
deriving DecidableEq, Repr

namespace SlotChain

/-- All slots free, the lowest on top. -/
def ofCapacity? (capacity : Nat) : Except Fault SlotChain :=
  if capacity = 0 then .error .noSlots
  else .ok
    { next := Array.ofFn fun i : Fin capacity =>
        if i.val + 1 < capacity then some (i.val + 1) else none
      place := Array.replicate capacity .free
      freeHead := some 0
      freeLength := capacity
      readyHead := none
      readyTail := none
      readyLength := 0 }

/-- Links that there can be room for: sixteen bytes each, and less than 2 ^ 63 in all. -/
def room : Nat := 576460752303423487

/-- A chain of so many slots, if there can be room for their links. -/
def build? (capacity : Nat) : Except Fault SlotChain :=
  if room < capacity then .error .capacityOverflow else ofCapacity? capacity

def capacity (c : SlotChain) : Nat :=
  c.next.size

def inUseLength (c : SlotChain) : Nat :=
  c.capacity - c.freeLength - c.readyLength

def after (c : SlotChain) (slot : Nat) : Option Nat :=
  (c.next[slot]?).join

def setPlace (c : SlotChain) (slot : Nat) (p : SlotPlace) : SlotChain :=
  { c with place := c.place.setIfInBounds slot p }

def link (c : SlotChain) (slot : Nat) (target : Option Nat) : SlotChain :=
  { c with next := c.next.setIfInBounds slot target }

/-!
## Taking
-/

def popFree (c : SlotChain) : Option (Nat × SlotChain) :=
  match c.freeHead with
  | none => none
  | some slot =>
      some (slot,
        ({ c with
          freeHead := c.after slot
          freeLength := c.freeLength - 1 }.link slot none).setPlace slot .inUse)

def popReady (c : SlotChain) : Option (Nat × SlotChain) :=
  match c.readyHead with
  | none => none
  | some slot =>
      let head := c.after slot
      some (slot,
        ({ c with
          readyHead := head
          readyTail := if head.isNone then none else c.readyTail
          readyLength := c.readyLength - 1 }.link slot none).setPlace slot .inUse)

/-!
## Giving back
-/

def expectInUse? (c : SlotChain) (slot : Nat) : Except Fault Unit :=
  if slot < c.capacity then
    if c.place[slot]? = some .inUse then .ok () else .error (.slotNotInUse slot)
  else .error (.slotOutOfRange slot c.capacity)

/-- Puts a slot on top of the free stack, wherever it was. -/
def stack (c : SlotChain) (slot : Nat) : SlotChain :=
  ({ c with
    freeHead := some slot
    freeLength := c.freeLength + 1 }.link slot c.freeHead).setPlace slot .free

/-- Puts a slot at the end of the ready queue, wherever it was. -/
def enqueue (c : SlotChain) (slot : Nat) : SlotChain :=
  let unlinked := c.link slot none
  let linked :=
    match c.readyTail with
    | some last => unlinked.link last (some slot)
    | none => { unlinked with readyHead := some slot }
  { linked with
    readyTail := some slot
    readyLength := c.readyLength + 1 }.setPlace slot .ready

def pushFree? (c : SlotChain) (slot : Nat) : Except Fault SlotChain := do
  c.expectInUse? slot
  return c.stack slot

def pushReady? (c : SlotChain) (slot : Nat) : Except Fault SlotChain := do
  c.expectInUse? slot
  return c.enqueue slot

/-- Moves up to `n` slots from the ready queue to the free stack, in order. -/
def freeReady : Nat -> SlotChain -> SlotChain
  | 0, c => c
  | n + 1, c =>
      match c.popReady with
      | none => c
      | some (slot, rest) => freeReady n (rest.stack slot)

/-!
## Views

The chain as the lists it stands for.
-/

def walk (c : SlotChain) : Nat -> Option Nat -> List Nat
  | 0, _ => []
  | _, none => []
  | n + 1, some slot => slot :: c.walk n (c.after slot)

def free (c : SlotChain) : List Nat :=
  c.walk c.capacity c.freeHead

def ready (c : SlotChain) : List Nat :=
  c.walk c.capacity c.readyHead

def IsInUse (c : SlotChain) (slot : Nat) : Prop :=
  c.place[slot]? = some .inUse

instance (c : SlotChain) (slot : Nat) : Decidable (c.IsInUse slot) :=
  inferInstanceAs (Decidable (_ = _))

end SlotChain
end AirDefense

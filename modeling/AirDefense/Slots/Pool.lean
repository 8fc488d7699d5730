import AirDefense.Slots.Chain

/-!
# Slot pools

A pool hands out the slots of one side to callers that are willing to wait.
A slot that is given back goes straight to a caller that waits, if there is
one, so that no newcomer overtakes it; the pool keeps such a slot aside until
a waiting caller picks it up.

A call that may wait is two transitions: `enter`, and then `wake` as often as
the caller is woken.
-/

namespace AirDefense

inductive SlotAnswer where
  | granted (slot : Nat)
  | refused
  | parked
deriving DecidableEq, Repr

namespace SlotAnswer

/--
Wakes so many waiting callers, one after the other: the slots, if any, that
those leave with who do not go on waiting.
-/
def wakeEach (wake : σ -> SlotAnswer × σ) : Nat -> σ -> List (Option Nat) × σ
  | 0, s => ([], s)
  | n + 1, s =>
      match wake s with
      | (parked, s) => wakeEach wake n s
      | (refused, s) =>
          let (left, s) := wakeEach wake n s
          (none :: left, s)
      | (granted slot, s) =>
          let (left, s) := wakeEach wake n s
          (some slot :: left, s)

end SlotAnswer

structure SlotPool where
  chain : SlotChain
  /-- Callers that wait, those for whom a slot is kept aside among them. -/
  waiting : Nat
  /-- Slots kept aside, the last one first. -/
  handed : List Nat
  closed : Bool
deriving DecidableEq, Repr

namespace SlotPool

def ofCapacity? (capacity : Nat) : Except Fault SlotPool := do
  let chain <- SlotChain.build? capacity
  return { chain, waiting := 0, handed := [], closed := false }

def capacity (p : SlotPool) : Nat := p.chain.capacity

def available (p : SlotPool) : Nat := p.chain.freeLength

/-- Slots with a caller or kept aside for one. -/
def inUse (p : SlotPool) : Nat := p.chain.inUseLength

/-- What a waiting caller finds when it wakes, for whatever reason it does. -/
def wake (p : SlotPool) : SlotAnswer × SlotPool :=
  match p.handed with
  | slot :: rest => (.granted slot, { p with handed := rest, waiting := p.waiting - 1 })
  | [] =>
      if p.closed then (.refused, { p with waiting := p.waiting - 1 })
      else (.parked, p)

/-- Takes a slot if nobody waits for one, or else waits. -/
def enter (p : SlotPool) : SlotAnswer × SlotPool :=
  if p.closed then (.refused, p)
  else
    let queued : SlotPool := { p with waiting := p.waiting + 1 }
    if p.waiting = 0 then
      match p.chain.popFree with
      | some (slot, chain) => (.granted slot, { p with chain })
      | none => queued.wake
    else queued.wake

def tryAcquire (p : SlotPool) : Option Nat × SlotPool :=
  if p.closed || 0 < p.waiting then (none, p)
  else
    match p.chain.popFree with
    | some (slot, chain) => (some slot, { p with chain })
    | none => (none, p)

/-- Gives a slot back: it is kept aside while more callers wait than slots are. -/
def release? (p : SlotPool) (slot : Nat) : Except Fault SlotPool := do
  p.chain.expectInUse? slot
  if p.handed.contains slot then .error (.slotReleasedTwice slot)
  else if !p.closed && p.handed.length < p.waiting then
    return { p with handed := slot :: p.handed }
  else return { p with chain := p.chain.stack slot }

def close (p : SlotPool) : SlotPool :=
  { p with
    closed := true
    handed := []
    chain := p.handed.foldl SlotChain.stack p.chain }

end SlotPool
end AirDefense

import AirDefense.Slots.Pool

/-!
# Admission

Launch requests are admitted only while a launcher waits for one and a slot is
free; any other request is dropped.  Admitted slots queue up until the launcher
draws them.
-/

namespace AirDefense

structure AdmissionQueue where
  chain : SlotChain
  drawers : Nat
  closed : Bool
deriving DecidableEq, Repr

namespace AdmissionQueue

def ofCapacity? (capacity : Nat) : Except Fault AdmissionQueue := do
  let chain <- SlotChain.build? capacity
  return { chain, drawers := 0, closed := false }

def capacity (q : AdmissionQueue) : Nat := q.chain.capacity

def freeLength (q : AdmissionQueue) : Nat := q.chain.freeLength

def readyLength (q : AdmissionQueue) : Nat := q.chain.readyLength

def inUse (q : AdmissionQueue) : Nat := q.chain.inUseLength

/-- A launch request: true if a slot was queued for it. -/
def request (q : AdmissionQueue) : Bool × AdmissionQueue :=
  if q.closed || q.drawers = 0 then (false, q)
  else
    match q.chain.popFree with
    | none => (false, q)
    | some (slot, chain) => (true, { q with chain := chain.enqueue slot })

def wake (q : AdmissionQueue) : SlotAnswer × AdmissionQueue :=
  match q.chain.popReady with
  | some (slot, chain) => (.granted slot, { q with chain, drawers := q.drawers - 1 })
  | none =>
      if q.closed then (.refused, { q with drawers := q.drawers - 1 })
      else (.parked, q)

def enter (q : AdmissionQueue) : SlotAnswer × AdmissionQueue :=
  { q with drawers := q.drawers + 1 }.wake

def release? (q : AdmissionQueue) (slot : Nat) : Except Fault AdmissionQueue := do
  let chain <- q.chain.pushFree? slot
  return { q with chain }

/-- From now on every draw is refused; queued slots are free again. -/
def close (q : AdmissionQueue) : AdmissionQueue :=
  { q with closed := true, chain := q.chain.freeReady q.chain.readyLength }

end AdmissionQueue
end AirDefense

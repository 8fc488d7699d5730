import AirDefense.Fault

/-!
# The field lock

One holder at a time, three tiers of urgency.  A newcomer waits if the lock is
held or if somebody of its own or a more urgent tier waits.  On release the lock
goes to a waiting caller of the next tier, counting round from the tier that
released it, so that no tier starves; within a tier the callers are served in
the order they came.

A call that waits holds a ticket.  It is served when the tickets of its tier
have been served up to its own, and it learns of that when it wakes.
-/

namespace AirDefense

structure PerTier (α : Type) where
  high : α
  middle : α
  low : α
deriving DecidableEq, Repr

namespace PerTier

def constant (x : α) : PerTier α := ⟨x, x, x⟩

def get (p : PerTier α) : Tier -> α
  | .high => p.high
  | .middle => p.middle
  | .low => p.low

def set (p : PerTier α) (t : Tier) (x : α) : PerTier α :=
  match t with
  | .high => { p with high := x }
  | .middle => { p with middle := x }
  | .low => { p with low := x }

def modify (p : PerTier α) (t : Tier) (f : α -> α) : PerTier α :=
  p.set t (f (p.get t))

def toList (p : PerTier α) : List α := [p.high, p.middle, p.low]

theorem get_set (p : PerTier α) (t u : Tier) (x : α) :
    (p.set t x).get u = if u = t then x else p.get u := by
  cases t <;> cases u <;> rfl

end PerTier

structure FieldLock where
  holders : Nat
  /-- Callers inside the wait, those that were served but have not woken too. -/
  blocked : PerTier Nat
  tickets : PerTier Nat
  served : PerTier Nat
  /-- Times the lock went from a holder to a waiting caller. -/
  handoffs : Nat
  /-- The most handoffs that a caller waited through, its own included. -/
  longestWait : PerTier Nat
deriving DecidableEq, Repr

structure LockTicket where
  tier : Tier
  number : Nat
  since : Nat
deriving DecidableEq, Repr

namespace FieldLock

def idle : FieldLock :=
  { holders := 0
    blocked := .constant 0
    tickets := .constant 0
    served := .constant 0
    handoffs := 0
    longestWait := .constant 0 }

def isBlockedUpTo (l : FieldLock) : Tier -> Bool
  | .high => 0 < l.blocked.high
  | .middle => 0 < l.blocked.high || 0 < l.blocked.middle
  | .low => 0 < l.blocked.high || 0 < l.blocked.middle || 0 < l.blocked.low

def enter (l : FieldLock) (t : Tier) : Option LockTicket × FieldLock :=
  if 0 < l.holders || l.isBlockedUpTo t then
    (some { tier := t, number := l.tickets.get t, since := l.handoffs },
      { l with
        blocked := l.blocked.modify t (· + 1)
        tickets := l.tickets.modify t (· + 1) })
  else (none, { l with holders := l.holders + 1 })

/-- What a waiting caller finds when it wakes: the lock, or nothing yet. -/
def wake (l : FieldLock) (ticket : LockTicket) : Option FieldLock :=
  if l.served.get ticket.tier <= ticket.number then none
  else
    some { l with
      blocked := l.blocked.modify ticket.tier (· - 1)
      longestWait := l.longestWait.modify ticket.tier (max · (l.handoffs - ticket.since)) }

def wakeEach :
    List (α × LockTicket) -> FieldLock -> List α × List (α × LockTicket) × FieldLock
  | [], l => ([], [], l)
  | (caller, ticket) :: rest, l =>
      match l.wake ticket with
      | some l =>
          let (served, waiting, l) := wakeEach rest l
          (caller :: served, waiting, l)
      | none =>
          let (served, waiting, l) := wakeEach rest l
          (served, (caller, ticket) :: waiting, l)

/-- The tiers in the order they are looked at after a release at tier `t`. -/
def rotation (t : Tier) : List Tier :=
  [1, 2, 3].map fun step => Tier.ofIndex (t.index + step)

def hasUnserved (l : FieldLock) (t : Tier) : Bool :=
  l.served.get t < l.tickets.get t

/-- The waiting callers' tier that is served after a release at tier `t`. -/
def nextTier (l : FieldLock) (t : Tier) : Option Tier :=
  (rotation t).find? l.hasUnserved

def release? (l : FieldLock) (t : Tier) : Except Fault FieldLock :=
  if l.holders = 0 then .error (.releasedWithoutHolder t)
  else
    let left := { l with holders := l.holders - 1 }
    if 0 < left.holders then .ok left
    else
      match left.nextTier t with
      | none => .ok left
      | some next => .ok
          { left with
            holders := 1
            served := left.served.modify next (· + 1)
            handoffs := left.handoffs + 1 }

end FieldLock
end AirDefense

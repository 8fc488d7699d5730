import AirDefense.Proofs.Slots.Pool

/-!
# Chains and pools in single writes

The calls on a slot chain once more, one read or write after the other, with every index and
every count checked.  On a chain that stands for two lists none of these checks fails, and a
slot that is refused is refused before anything is written: each call does what it does
as a whole.  So it is with a slot that is given back to a pool.
-/

namespace AirDefense

/-- What can go wrong in a chain, besides the contract of its callers. -/
inductive ChainFault where
  | contract (fault : Fault)
  | outOfRange (index : Nat)
  | countBelowZero
deriving DecidableEq, Repr

inductive ChainCall where
  | popFree
  | popReady
  | pushFree (slot : Nat)
  | pushReady (slot : Nat)
deriving DecidableEq, Repr

inductive ChainAnswer where
  | taken (slot? : Option Nat)
  | given
  | failed (fault : ChainFault)
deriving DecidableEq, Repr

namespace SlotChain

/-- A call on a chain; a slot that is refused changes nothing. -/
def perform (c : SlotChain) : ChainCall -> ChainAnswer × SlotChain
  | .popFree => (.taken (c.popFree.map Prod.fst), (c.popFree.map Prod.snd).getD c)
  | .popReady => (.taken (c.popReady.map Prod.fst), (c.popReady.map Prod.snd).getD c)
  | .pushFree slot =>
      match c.pushFree? slot with
      | .ok d => (.given, d)
      | .error fault => (.failed (.contract fault), c)
  | .pushReady slot =>
      match c.pushReady? slot with
      | .ok d => (.given, d)
      | .error fault => (.failed (.contract fault), c)

end SlotChain

/-!
## Single writes
-/

/-- Reads and writes of a chain; what was written stays when one of them fails. -/
abbrev ChainWrites := EStateM ChainFault SlotChain

namespace ChainWrites

def linkAt (slot : Nat) : ChainWrites (Option Nat) := do
  match (<- get).next[slot]? with
  | some target => return target
  | none => throw (.outOfRange slot)

def link (slot : Nat) (target : Option Nat) : ChainWrites Unit := do
  if slot < (<- get).next.size then modify fun c => c.link slot target
  else throw (.outOfRange slot)

def setPlace (slot : Nat) (p : SlotPlace) : ChainWrites Unit := do
  if slot < (<- get).place.size then modify fun c => c.setPlace slot p
  else throw (.outOfRange slot)

def oneFree : ChainWrites Unit :=
  modify fun c => { c with freeLength := c.freeLength + 1 }

def oneReady : ChainWrites Unit :=
  modify fun c => { c with readyLength := c.readyLength + 1 }

def oneFreeLess : ChainWrites Unit := do
  if (<- get).freeLength = 0 then throw .countBelowZero
  else modify fun c => { c with freeLength := c.freeLength - 1 }

def oneReadyLess : ChainWrites Unit := do
  if (<- get).readyLength = 0 then throw .countBelowZero
  else modify fun c => { c with readyLength := c.readyLength - 1 }

def linkLast (slot : Nat) : ChainWrites Unit := do
  match (<- get).readyTail with
  | some last => link last (some slot)
  | none => modify fun c => { c with readyHead := some slot }

def expectInUse (slot : Nat) : ChainWrites Unit := do
  let c <- get
  if slot < c.capacity then
    match c.place[slot]? with
    | none => throw (.outOfRange slot)
    | some p => if p = .inUse then return else throw (.contract (.slotNotInUse slot))
  else throw (.contract (.slotOutOfRange slot c.capacity))

def popFree : ChainWrites (Option Nat) := do
  match (<- get).freeHead with
  | none => return none
  | some slot =>
      let head <- linkAt slot
      modify fun c => { c with freeHead := head }
      link slot none
      oneFreeLess
      setPlace slot .inUse
      return some slot

def popReady : ChainWrites (Option Nat) := do
  match (<- get).readyHead with
  | none => return none
  | some slot =>
      let head <- linkAt slot
      modify fun c => { c with readyHead := head }
      modify fun c => { c with readyTail := if c.readyHead.isNone then none else c.readyTail }
      link slot none
      oneReadyLess
      setPlace slot .inUse
      return some slot

def pushFree (slot : Nat) : ChainWrites Unit := do
  expectInUse slot
  link slot (<- get).freeHead
  modify fun c => { c with freeHead := some slot }
  oneFree
  setPlace slot .free

def pushReady (slot : Nat) : ChainWrites Unit := do
  expectInUse slot
  link slot none
  linkLast slot
  modify fun c => { c with readyTail := some slot }
  oneReady
  setPlace slot .ready

/-- What a call answers, and the chain that it leaves. -/
def outcome {α : Type} (answer : α -> ChainAnswer) :
    EStateM.Result ChainFault SlotChain α -> ChainAnswer × SlotChain
  | .ok a c => (answer a, c)
  | .error fault c => (.failed fault, c)

def perform (c : SlotChain) : ChainCall -> ChainAnswer × SlotChain
  | .popFree => outcome .taken (popFree.run c)
  | .popReady => outcome .taken (popReady.run c)
  | .pushFree slot => outcome (fun _ => .given) ((pushFree slot).run c)
  | .pushReady slot => outcome (fun _ => .given) ((pushReady slot).run c)

/-!
### Reads and writes that succeed
-/

variable {c : SlotChain} {free ready : List Nat} {slot : Nat}

theorem linkAt_run (h : slot < c.capacity) : (linkAt slot).run c = .ok (c.after slot) c := by
  have hnext : c.next[slot]? = some (c.after slot) := by
    unfold SlotChain.after
    rw [Array.getElem?_eq_getElem h]
    rfl
  unfold linkAt
  rw [run_get_bind, hnext]
  rfl

theorem link_run (h : slot < c.capacity) (target : Option Nat) :
    (link slot target).run c = .ok () (c.link slot target) := by
  have hsize : slot < c.next.size := h
  unfold link
  rw [run_get_bind, if_pos hsize]
  rfl

theorem setPlace_run (h : slot < c.place.size) (p : SlotPlace) :
    (setPlace slot p).run c = .ok () (c.setPlace slot p) := by
  unfold setPlace
  rw [run_get_bind, if_pos h]
  rfl

theorem oneFreeLess_run (h : 0 < c.freeLength) :
    oneFreeLess.run c = .ok () { c with freeLength := c.freeLength - 1 } := by
  unfold oneFreeLess
  rw [run_get_bind, if_neg (Nat.pos_iff_ne_zero.mp h)]
  rfl

theorem oneReadyLess_run (h : 0 < c.readyLength) :
    oneReadyLess.run c = .ok () { c with readyLength := c.readyLength - 1 } := by
  unfold oneReadyLess
  rw [run_get_bind, if_neg (Nat.pos_iff_ne_zero.mp h)]
  rfl

theorem linkLast_run_none (h : c.readyTail = none) (slot : Nat) :
    (linkLast slot).run c = .ok () { c with readyHead := some slot } := by
  unfold linkLast
  rw [run_get_bind]
  split
  · rename_i hsome
    rw [h] at hsome
    cases hsome
  · rfl

theorem linkLast_run_some {last : Nat} (h : c.readyTail = some last) (hlast : last < c.capacity)
    (slot : Nat) : (linkLast slot).run c = .ok () (c.link last (some slot)) := by
  unfold linkLast
  rw [run_get_bind, h]
  exact link_run hlast (some slot)

/-- The contract check finds what it looks up, and writes nothing. -/
theorem expectInUse_run (h : c.place.size = c.capacity) (slot : Nat) :
    (expectInUse slot).run c =
      match c.expectInUse? slot with
      | .ok _ => .ok () c
      | .error fault => .error (.contract fault) c := by
  unfold expectInUse SlotChain.expectInUse?
  rw [run_get_bind]
  by_cases hslot : slot < c.capacity
  · rw [if_pos hslot, if_pos hslot, Array.getElem?_eq_getElem (h ▸ hslot)]
    by_cases hplace : c.place[slot] = .inUse
    · simp only [hplace, if_true]
      rfl
    · simp only [hplace, if_false, Option.some.injEq]
      rfl
  · rw [if_neg hslot, if_neg hslot]
    rfl

/-!
### Calls in single writes
-/

theorem popFree_run (h : c.Represents free ready) :
    popFree.run c = .ok (c.popFree.map Prod.fst) ((c.popFree.map Prod.snd).getD c) := by
  unfold popFree
  rw [run_get_bind]
  cases free with
  | nil =>
      rw [show c.freeHead = none from h.leads_free, h.popFree_nil]
      rfl
  | cons slot rest =>
      have hslot : slot < c.capacity := h.lt_of_mem_free List.mem_cons_self
      have hplace : slot < c.place.size := by rwa [h.size_place]
      have hlength : 0 < c.freeLength := by
        rw [h.freeLength_eq]
        exact Nat.succ_pos _
      simp only [SlotChain.popFree, h.leads_free.1, Option.map_some, Option.getD_some]
      rw [run_bind_ok (linkAt_run hslot), run_modify_bind, run_bind_ok (link_run ?link none),
        run_bind_ok (oneFreeLess_run ?length), run_bind_ok (setPlace_run ?place .inUse)]
      · rfl
      case link => exact hslot
      case length => exact hlength
      case place => exact hplace

theorem popReady_run (h : c.Represents free ready) :
    popReady.run c = .ok (c.popReady.map Prod.fst) ((c.popReady.map Prod.snd).getD c) := by
  unfold popReady
  rw [run_get_bind]
  cases ready with
  | nil =>
      rw [show c.readyHead = none from h.leads_ready, h.popReady_nil]
      rfl
  | cons slot rest =>
      have hslot : slot < c.capacity := h.lt_of_mem_ready List.mem_cons_self
      have hplace : slot < c.place.size := by rwa [h.size_place]
      have hlength : 0 < c.readyLength := by
        rw [h.readyLength_eq]
        exact Nat.succ_pos _
      simp only [SlotChain.popReady, h.leads_ready.1, Option.map_some, Option.getD_some]
      rw [run_bind_ok (linkAt_run hslot), run_modify_bind, run_modify_bind,
        run_bind_ok (link_run ?link none), run_bind_ok (oneReadyLess_run ?length),
        run_bind_ok (setPlace_run ?place .inUse)]
      · rfl
      case link => exact hslot
      case length => exact hlength
      case place => exact hplace

theorem lt_of_expectInUse? (h : c.Represents free ready) (hslot : c.expectInUse? slot = .ok ()) :
    slot < c.capacity ∧ slot < c.place.size := by
  have hlt : slot < c.capacity := by
    unfold SlotChain.expectInUse? at hslot
    split at hslot
    · assumption
    · cases hslot
  exact ⟨hlt, by rwa [h.size_place]⟩

theorem pushFree_run (h : c.Represents free ready) (slot : Nat) :
    (pushFree slot).run c =
      match c.pushFree? slot with
      | .ok d => .ok () d
      | .error fault => .error (.contract fault) c := by
  have hcheck := expectInUse_run h.size_place slot
  unfold pushFree SlotChain.pushFree?
  cases hexpect : c.expectInUse? slot with
  | error fault =>
      rw [hexpect] at hcheck
      rw [run_bind_error hcheck]
      rfl
  | ok _ =>
      rw [hexpect] at hcheck
      rcases lt_of_expectInUse? h hexpect with ⟨hslot, hplace⟩
      rw [run_bind_ok hcheck, run_get_bind, run_bind_ok (link_run hslot _), run_modify_bind,
        oneFree, run_modify_bind, setPlace_run ?place .free]
      · rfl
      case place => exact hplace

theorem pushReady_run (h : c.Represents free ready) (slot : Nat) :
    (pushReady slot).run c =
      match c.pushReady? slot with
      | .ok d => .ok () d
      | .error fault => .error (.contract fault) c := by
  have hcheck := expectInUse_run h.size_place slot
  unfold pushReady SlotChain.pushReady?
  cases hexpect : c.expectInUse? slot with
  | error fault =>
      rw [hexpect] at hcheck
      rw [run_bind_error hcheck]
      rfl
  | ok _ =>
      rw [hexpect] at hcheck
      rcases lt_of_expectInUse? h hexpect with ⟨hslot, hplace⟩
      rw [run_bind_ok hcheck, run_bind_ok (link_run hslot none)]
      simp only [bind, Except.bind, pure, Except.pure, SlotChain.enqueue]
      cases htail : c.readyTail with
      | none =>
          refine (run_bind_ok (linkLast_run_none (by exact htail) slot)).trans ?_
          exact setPlace_run (by exact hplace) .ready
      | some last =>
          have hlast : last < (c.link slot none).capacity := by
            rw [h.readyTail_eq] at htail
            rw [SlotChain.capacity_link]
            exact h.lt_of_mem_ready (List.mem_of_getLast? htail)
          refine (run_bind_ok (linkLast_run_some (by exact htail) hlast slot)).trans ?_
          exact setPlace_run (by exact hplace) .ready

/-- In single writes a call does what it does as a whole. -/
theorem perform_eq (h : c.Represents free ready) (call : ChainCall) :
    perform c call = c.perform call := by
  cases call with
  | popFree =>
      rw [perform, popFree_run h]
      rfl
  | popReady =>
      rw [perform, popReady_run h]
      rfl
  | pushFree slot =>
      rw [perform, pushFree_run h, SlotChain.perform]
      cases c.pushFree? slot <;> rfl
  | pushReady slot =>
      rw [perform, pushReady_run h, SlotChain.perform]
      cases c.pushReady? slot <;> rfl

end ChainWrites

/-!
## Giving a slot back to a pool
-/

/-- Reads and writes of a pool and its chain; what was written stays when one of them fails. -/
abbrev PoolWrites := EStateM ChainFault SlotPool

namespace PoolWrites

variable {α : Type}

def onChain (act : ChainWrites α) : PoolWrites α := fun p =>
  match act.run p.chain with
  | .ok a chain => .ok a { p with chain }
  | .error fault chain => .error fault { p with chain }

def keepAside (slot : Nat) : PoolWrites Unit :=
  modify fun p => { p with handed := slot :: p.handed }

def release (slot : Nat) : PoolWrites Unit := do
  onChain (ChainWrites.expectInUse slot)
  let p <- get
  if p.handed.contains slot then throw (.contract (.slotReleasedTwice slot))
  else if !p.closed && p.handed.length < p.waiting then keepAside slot
  else onChain (ChainWrites.pushFree slot)

variable {p : SlotPool} {act : ChainWrites α} {c : SlotChain}

theorem onChain_run_ok {a : α} (h : act.run p.chain = .ok a c) :
    (onChain act).run p = .ok a { p with chain := c } := by
  show onChain act p = _
  rw [onChain, h]

theorem onChain_run_error {fault : ChainFault} (h : act.run p.chain = .error fault c) :
    (onChain act).run p = .error fault { p with chain := c } := by
  show onChain act p = _
  rw [onChain, h]

theorem release_run (h : p.Sound) (slot : Nat) :
    (release slot).run p =
      match p.release? slot with
      | .ok q => .ok () q
      | .error fault => .error (.contract fault) p := by
  rcases h.chain with ⟨free, hfree⟩
  have hcheck := ChainWrites.expectInUse_run hfree.size_place slot
  have hpush := ChainWrites.pushFree_run hfree slot
  unfold release SlotPool.release?
  unfold SlotChain.pushFree? at hpush
  cases hexpect : p.chain.expectInUse? slot with
  | error fault =>
      rw [hexpect] at hcheck
      rw [run_bind_error (onChain_run_error hcheck)]
      rfl
  | ok _ =>
      rw [hexpect] at hcheck hpush
      rw [run_bind_ok (onChain_run_ok hcheck), run_get_bind]
      simp only [bind, Except.bind]
      by_cases hhanded : p.handed.contains slot = true
      · rw [if_pos hhanded, if_pos hhanded]
        rfl
      · rw [if_neg hhanded, if_neg hhanded]
        by_cases hkeep : (!p.closed && decide (p.handed.length < p.waiting)) = true
        · rw [if_pos hkeep, if_pos hkeep]
          rfl
        · rw [if_neg hkeep, if_neg hkeep]
          exact onChain_run_ok hpush

end PoolWrites
end AirDefense

import AirDefense.Proofs.Callers
import AirDefense.Proofs.Slots.Writes

/-!
# Conservation of slots

Any number of callers share one pool.  Each of them takes slots, waits for slots
and is woken, for a reason or for none; slots are given back by whoever has a
mind to.  In every order of these steps no slot is lost and none is given out
twice.
-/

namespace AirDefense

/-- A caller of a pool: whether it waits, and the slots it holds. -/
structure SlotCaller where
  parked : Bool
  held : List Nat
deriving DecidableEq, Repr

namespace SlotCaller

def newcomer : SlotCaller := ⟨false, []⟩

def hear (c : SlotCaller) (answer : SlotAnswer) : SlotCaller :=
  { parked := answer = .parked, held := answer.slot?.toList ++ c.held }

end SlotCaller

/-- A pool in use. -/
structure PoolUse where
  pool : SlotPool
  callers : List SlotCaller
deriving DecidableEq, Repr

/-- The steps of a pool in use. -/
inductive PoolCall where
  | join
  | enter (caller : Nat)
  | wake (caller : Nat)
  | tryAcquire (caller : Nat)
  | release (slot : Nat)
  | close
deriving DecidableEq, Repr

namespace PoolUse

def start (p : SlotPool) : PoolUse := ⟨p, []⟩

/-- The slots with callers. -/
def held (u : PoolUse) : List Nat :=
  u.callers.flatMap SlotCaller.held

def answer (u : PoolUse) (caller : Nat) (c : SlotCaller) (r : SlotAnswer × SlotPool) :
    PoolUse :=
  { pool := r.2, callers := u.callers.set caller (c.hear r.1) }

/--
One step.  A step that its caller is in no position to take, and one that breaks
the contract of the pool, change nothing.
-/
def act (u : PoolUse) : PoolCall -> PoolUse
  | .join => { u with callers := u.callers ++ [.newcomer] }
  | .enter caller =>
      match u.callers[caller]? with
      | none => u
      | some c => if c.parked then u else u.answer caller c u.pool.enter
  | .wake caller =>
      match u.callers[caller]? with
      | none => u
      | some c => if c.parked then u.answer caller c u.pool.wake else u
  | .tryAcquire caller =>
      match u.callers[caller]? with
      | none => u
      | some c =>
          if c.parked then u
          else
            { pool := u.pool.tryAcquire.2
              callers := u.callers.set caller
                { c with held := u.pool.tryAcquire.1.toList ++ c.held } }
  | .release slot =>
      match u.pool.release? slot with
      | .error _ => u
      | .ok pool =>
          { pool, callers := u.callers.map fun c => { c with held := c.held.erase slot } }
  | .close => { u with pool := u.pool.close }

def run (u : PoolUse) (calls : List PoolCall) : PoolUse :=
  calls.foldl act u

/-!
## The invariant

A slot is taken just when a caller holds it, and no two callers hold the same.
-/

structure Sound (capacity : Nat) (u : PoolUse) : Prop where
  pool : u.pool.Sound
  capacity_eq : u.pool.capacity = capacity
  held_nodup : u.held.Nodup
  taken_iff : forall i, u.pool.IsTaken i ↔ i ∈ u.held
  waiting_eq : u.pool.waiting = u.callers.countP SlotCaller.parked

variable {capacity : Nat} {u : PoolUse}

theorem start_sound {p : SlotPool} (h : SlotPool.ofCapacity? capacity = .ok p) :
    (start p).Sound capacity := by
  rcases SlotPool.ofCapacity?_sound h with ⟨hsound, hcapacity, hwaiting, _, htaken⟩
  exact
    { pool := hsound
      capacity_eq := hcapacity
      held_nodup := List.nodup_nil
      taken_iff := fun i => by simp [start, held, htaken i]
      waiting_eq := by simp [start, hwaiting] }

theorem flatMap_set_perm {callers : List SlotCaller} {caller : Nat} {c d : SlotCaller}
    {slots : List Nat} (hc : callers[caller]? = some c) (hd : d.held = slots ++ c.held) :
    ((callers.set caller d).flatMap SlotCaller.held).Perm
      (slots ++ callers.flatMap SlotCaller.held) := by
  induction callers generalizing caller with
  | nil =>
      cases hc
  | cons b rest ih =>
      cases caller with
      | zero =>
          rw [List.getElem?_cons_zero] at hc
          injection hc with hc
          rw [List.set_cons_zero, List.flatMap_cons, List.flatMap_cons, hd, hc,
            List.append_assoc]
      | succ caller =>
          rw [List.getElem?_cons_succ] at hc
          have hswap : (b.held ++ slots).Perm (slots ++ b.held) := List.perm_append_comm
          have hrest := hswap.append_right (rest.flatMap SlotCaller.held)
          rw [List.append_assoc, List.append_assoc] at hrest
          rw [List.set_cons_succ, List.flatMap_cons, List.flatMap_cons]
          exact ((ih hc).append_left b.held).trans hrest

/-- A call that is served keeps the invariant. -/
theorem Sound.serve (h : u.Sound capacity) {caller : Nat} {c d : SlotCaller}
    (hc : u.callers[caller]? = some c) {slot? : Option Nat} {q : SlotPool}
    (hq : u.pool.Serves slot? q) (hd : d.held = slot?.toList ++ c.held)
    (hwaiting : q.waiting + c.parked.toNat = u.pool.waiting + d.parked.toNat) :
    (PoolUse.mk q (u.callers.set caller d)).Sound capacity := by
  have hperm := flatMap_set_perm hc hd
  have hnew : forall i, slot? = some i -> i ∉ u.held :=
    fun i hi hmem => hq.takes.1 i hi ((h.taken_iff i).mpr hmem)
  exact
    { pool := hq.sound
      capacity_eq := hq.capacity_eq.trans h.capacity_eq
      held_nodup := by
        rw [held, hperm.nodup_iff]
        cases slot? with
        | none => exact h.held_nodup
        | some slot => exact List.nodup_cons.mpr ⟨hnew slot rfl, h.held_nodup⟩
      taken_iff := by
        intro i
        rw [hq.takes.2, h.taken_iff]
        unfold held
        rw [hperm.mem_iff, List.mem_append, or_comm]
        simp
      waiting_eq := by
        have hcount := countP_set_add (p := SlotCaller.parked) (d := d) hc
        have hbefore := h.waiting_eq
        simp only at hcount ⊢
        omega }

/-!
## Every step keeps the invariant
-/

theorem flatMap_erase {callers : List SlotCaller} {slot : Nat}
    (h : (callers.flatMap SlotCaller.held).Nodup) :
    ((callers.map fun c => { c with held := c.held.erase slot }).flatMap SlotCaller.held) =
      (callers.flatMap SlotCaller.held).erase slot := by
  induction callers with
  | nil =>
      rfl
  | cons c rest ih =>
      rw [List.flatMap_cons] at h
      rcases List.nodup_append.mp h with ⟨_, hrest, hdisjoint⟩
      rw [List.map_cons, List.flatMap_cons, List.flatMap_cons, ih hrest]
      by_cases hmem : slot ∈ c.held
      · have hnot : slot ∉ rest.flatMap SlotCaller.held :=
          fun hin => hdisjoint slot hmem slot hin rfl
        rw [List.erase_append_left _ hmem, List.erase_of_not_mem hnot]
      · rw [List.erase_append_right _ hmem, List.erase_of_not_mem hmem]

theorem Sound.join (h : u.Sound capacity) : (u.act .join).Sound capacity := by
  have hheld : (u.act .join).held = u.held := by
    simp [act, held, SlotCaller.newcomer]
  exact
    { pool := h.pool
      capacity_eq := h.capacity_eq
      held_nodup := hheld ▸ h.held_nodup
      taken_iff := fun i => hheld ▸ h.taken_iff i
      waiting_eq := by
        have hwaiting := h.waiting_eq
        simpa [act, SlotCaller.newcomer] using hwaiting }

theorem Sound.enter (h : u.Sound capacity) (caller : Nat) :
    (u.act (.enter caller)).Sound capacity := by
  cases hc : u.callers[caller]? with
  | none =>
      simpa only [act, hc] using h
  | some c =>
      simp only [act, hc]
      cases hparked : c.parked with
      | true =>
          exact h
      | false =>
          refine h.serve hc h.pool.enter rfl ?_
          rw [hparked]
          exact SlotPool.waiting_enter

theorem Sound.wake (h : u.Sound capacity) (caller : Nat) :
    (u.act (.wake caller)).Sound capacity := by
  cases hc : u.callers[caller]? with
  | none =>
      simpa only [act, hc] using h
  | some c =>
      simp only [act, hc]
      cases hparked : c.parked with
      | true =>
          refine h.serve hc h.pool.wake rfl ?_
          rw [hparked]
          apply SlotPool.waiting_wake
          rw [h.waiting_eq]
          exact List.countP_pos_iff.mpr ⟨c, List.mem_of_getElem? hc, hparked⟩
      | false =>
          exact h

theorem Sound.tryAcquire (h : u.Sound capacity) (caller : Nat) :
    (u.act (.tryAcquire caller)).Sound capacity := by
  cases hc : u.callers[caller]? with
  | none =>
      simpa only [act, hc] using h
  | some c =>
      simp only [act, hc]
      cases hparked : c.parked with
      | true =>
          exact h
      | false =>
          refine h.serve hc h.pool.tryAcquire rfl ?_
          rw [SlotPool.waiting_tryAcquire, hparked]

theorem Sound.release?_eq_error_iff (h : u.Sound capacity) {slot : Nat} :
    (exists fault, u.pool.release? slot = .error fault) ↔ slot ∉ u.held := by
  rw [h.pool.release?_eq_error_iff, h.taken_iff]

theorem Sound.release (h : u.Sound capacity) (slot : Nat) :
    (u.act (.release slot)).Sound capacity := by
  cases hq : u.pool.release? slot with
  | error fault =>
      simpa only [act, hq] using h
  | ok q =>
      have htaken : u.pool.IsTaken slot := by
        by_contra hnot
        rcases SlotPool.release?_of_not_isTaken hnot with ⟨fault, hfault⟩
        rw [hq] at hfault
        cases hfault
      rcases h.pool.release htaken with ⟨r, hr, hsound, hcapacity, _, hstill⟩
      rw [hq] at hr
      injection hr with hr
      subst hr
      simp only [act, hq]
      have hheld : (PoolUse.mk q (u.callers.map fun c =>
          { c with held := c.held.erase slot })).held = u.held.erase slot :=
        flatMap_erase h.held_nodup
      exact
        { pool := hsound
          capacity_eq := hcapacity.trans h.capacity_eq
          held_nodup := by
            rw [hheld]
            exact h.held_nodup.erase slot
          taken_iff := by
            intro i
            rw [hstill, h.taken_iff, hheld, h.held_nodup.mem_erase_iff, and_comm]
          waiting_eq := by
            rw [(SlotPool.release?_eq hq).1, h.waiting_eq, List.countP_map]
            rfl }

theorem Sound.close (h : u.Sound capacity) : (u.act .close).Sound capacity := by
  rcases h.pool.close with ⟨hsound, hcapacity, _, _, hstill⟩
  exact
    { pool := hsound
      capacity_eq := hcapacity.trans h.capacity_eq
      held_nodup := h.held_nodup
      taken_iff := fun i => (hstill i).trans (h.taken_iff i)
      waiting_eq := h.waiting_eq }

theorem Sound.act (h : u.Sound capacity) (call : PoolCall) : (u.act call).Sound capacity := by
  cases call with
  | join => exact h.join
  | enter caller => exact h.enter caller
  | wake caller => exact h.wake caller
  | tryAcquire caller => exact h.tryAcquire caller
  | release slot => exact h.release slot
  | close => exact h.close

theorem Sound.run (h : u.Sound capacity) (calls : List PoolCall) :
    (u.run calls).Sound capacity := by
  induction calls generalizing u with
  | nil => exact h
  | cons call rest ih => exact ih (h.act call)

theorem Sound.closed_act (h : u.Sound capacity) (call : PoolCall) :
    (u.act call).pool.closed = (u.pool.closed || decide (call = .close)) := by
  cases call with
  | join => simp [PoolUse.act]
  | enter caller =>
      have hclosed := h.pool.enter.closed_eq
      simp only [PoolUse.act]
      split
      · simp
      · split <;> simp [answer, hclosed]
  | wake caller =>
      have hclosed := h.pool.wake.closed_eq
      simp only [PoolUse.act]
      split
      · simp
      · split <;> simp [answer, hclosed]
  | tryAcquire caller =>
      have hclosed := h.pool.tryAcquire.closed_eq
      simp only [PoolUse.act]
      split
      · simp
      · split <;> simp [hclosed]
  | release slot =>
      simp only [PoolUse.act]
      split
      · simp
      · rename_i q hq
        simp [(SlotPool.release?_eq hq).2]
  | close => simp [PoolUse.act, SlotPool.close]

theorem Sound.closed_run (h : u.Sound capacity) {calls : List PoolCall}
    (hclose : u.pool.closed = true ∨ .close ∈ calls) : (u.run calls).pool.closed = true := by
  induction calls generalizing u with
  | nil =>
      rcases hclose with hclosed | hmem
      · exact hclosed
      · cases hmem
  | cons call rest ih =>
      apply ih (h.act call)
      rw [h.closed_act]
      rcases hclose with hclosed | hmem
      · simp [hclosed]
      · rcases List.mem_cons.mp hmem with heq | hrest
        · simp [← heq]
        · exact .inr hrest

/-!
## Where the slots are
-/

/-- Every slot is free, kept aside or with one caller. -/
theorem Sound.slots_perm (h : u.Sound capacity) :
    (u.pool.chain.free ++ u.pool.handed ++ u.held).Perm (List.range capacity) := by
  rcases h.pool.chain with ⟨free, hfree⟩
  have hdistinct : free.Nodup := by
    have hall := hfree.distinct
    rwa [List.append_nil] at hall
  have hinUse : forall i, u.pool.chain.IsInUse i ↔ i < capacity ∧ i ∉ free := by
    intro i
    rw [hfree.isInUse_iff, ← h.capacity_eq]
    simp [SlotPool.capacity]
  have hheld : forall i, i ∈ u.held ↔ u.pool.chain.IsInUse i ∧ i ∉ u.pool.handed :=
    fun i => (h.taken_iff i).symm
  rw [hfree.free_eq]
  apply (List.perm_ext_iff_of_nodup _ List.nodup_range).mpr
  · intro i
    have hlt : i ∈ free -> i < capacity := fun hi => h.capacity_eq ▸ hfree.lt_of_mem_free hi
    have hhanded : i ∈ u.pool.handed -> i < capacity :=
      fun hi => ((hinUse i).mp (h.pool.handed_inUse i hi)).1
    simp only [List.mem_append, List.mem_range, hheld, hinUse]
    tauto
  · refine (hdistinct.append h.pool.handed_nodup ?_).append h.held_nodup ?_
    · intro i hi hhanded
      exact ((hinUse i).mp (h.pool.handed_inUse i hhanded)).2 hi
    · intro i hi hmem
      have htaken := (hheld i).mp hmem
      rcases List.mem_append.mp hi with hin | hhanded
      · exact ((hinUse i).mp htaken.1).2 hin
      · exact htaken.2 hhanded

theorem Sound.available_add_inUse (h : u.Sound capacity) :
    u.pool.available + u.pool.inUse = capacity := by
  rcases h.pool.chain with ⟨free, hfree⟩
  have hlength := hfree.length_le
  have hcapacity := h.capacity_eq
  simp only [SlotPool.capacity] at hcapacity
  simp only [SlotPool.available, SlotPool.inUse, SlotChain.inUseLength, hfree.freeLength_eq,
    hfree.readyLength_eq, List.length_nil] at hlength ⊢
  omega

theorem Sound.available_eq (h : u.Sound capacity) (hhanded : u.pool.handed = [])
    (hheld : u.held = []) : u.pool.available = capacity := by
  rw [h.pool.available_eq hhanded fun i hi => ?_, h.capacity_eq]
  have hmem := (h.taken_iff i).mp hi
  rw [hheld] at hmem
  cases hmem

/--
In every order of calls each slot is free, kept aside or with just one caller,
and a caller waits for every slot that is kept aside.  Just those releases break
the contract whose slot nobody holds, and they have written nothing by then; any
other release succeeds in all that it reads and writes.  Nothing is given out once
the pool is closed.
-/
theorem slots_conserved {capacity : Nat} {p : SlotPool}
    (h : SlotPool.ofCapacity? capacity = .ok p) (calls : List PoolCall) :
    let u := (start p).run calls
    (u.pool.chain.free ++ u.pool.handed ++ u.held).Perm (List.range capacity) ∧
      u.pool.handed.length <= u.pool.waiting ∧
      u.pool.waiting = u.callers.countP SlotCaller.parked ∧
      u.pool.available + u.pool.inUse = capacity ∧
      (forall slot, (exists fault, u.pool.release? slot = .error fault) ↔
        capacity <= slot ∨ slot ∈ u.pool.chain.free ∨ slot ∈ u.pool.handed) ∧
      (forall slot fault, u.pool.release? slot = .error fault ->
        (PoolWrites.release slot).run u.pool = .error (.contract fault) u.pool ∧
          u.act (.release slot) = u) ∧
      (forall slot q, u.pool.release? slot = .ok q ->
        (PoolWrites.release slot).run u.pool = .ok () q) ∧
      (.close ∈ calls ->
        u.pool.enter.1 = .refused ∧ u.pool.wake.1 = .refused ∧
          u.pool.tryAcquire.1 = none ∧ (u.held = [] -> u.pool.available = capacity)) := by
  intro u
  have hsound : u.Sound capacity := (start_sound h).run calls
  have hperm := hsound.slots_perm
  refine ⟨hperm, hsound.pool.handed_le, hsound.waiting_eq, hsound.available_add_inUse,
    ?_, ?_, ?_, ?_⟩
  · intro slot
    have hmem := hperm.mem_iff (a := slot)
    have hdistinct := List.nodup_append.mp (hperm.nodup_iff.mpr List.nodup_range)
    have hapart : slot ∈ u.pool.chain.free ++ u.pool.handed -> slot ∉ u.held :=
      fun hin hheld => hdistinct.2.2 slot hin slot hheld rfl
    rw [hsound.release?_eq_error_iff]
    simp only [List.mem_append, List.mem_range] at hmem hapart
    constructor
    · intro hnot
      by_cases hlt : slot < capacity
      · exact .inr ((hmem.mpr hlt).resolve_right hnot)
      · exact .inl (Nat.le_of_not_lt hlt)
    · rintro (hle | hin)
      · intro hheld
        exact absurd (hmem.mp (.inr hheld)) (Nat.not_lt.mpr hle)
      · exact hapart hin
  · intro slot fault hfault
    refine ⟨?_, by simp only [act, hfault]⟩
    rw [PoolWrites.release_run hsound.pool, hfault]
  · intro slot q hq
    rw [PoolWrites.release_run hsound.pool, hq]
  · intro hclose
    have hclosed := (start_sound h).closed_run (.inr hclose)
    have hhanded := hsound.pool.handed_closed hclosed
    refine ⟨?_, ?_, ?_, hsound.available_eq hhanded⟩
    · rw [SlotPool.enter_closed hclosed]
    · rw [SlotPool.wake_closed hhanded hclosed]
    · simp [SlotPool.tryAcquire, show u.pool.closed = true from hclosed]

theorem slots_conserved_handover :
    exists p, SlotPool.ofCapacity? 2 = .ok p ∧
      let u := (start p).run [.join, .join, .join, .enter 0, .enter 1, .enter 2,
        .release 1, .release 1]
      (u.pool.chain.free ++ u.pool.handed ++ u.held).Perm (List.range 2) ∧
        (u.pool.handed = [1] ∧ u.held = [0] ∧ u.pool.waiting = 1) ∧
          (PoolWrites.release 1).run u.pool =
            .error (.contract (.slotReleasedTwice 1)) u.pool := by
  have h : SlotPool.ofCapacity? 2 = .ok _ := rfl
  refine ⟨_, h, ?_⟩
  rcases slots_conserved h [.join, .join, .join, .enter 0, .enter 1, .enter 2, .release 1,
    .release 1] with ⟨hperm, _, _, _, _, hrefused, _⟩
  exact ⟨hperm, by decide, (hrefused 1 _ rfl).1⟩

end PoolUse
end AirDefense

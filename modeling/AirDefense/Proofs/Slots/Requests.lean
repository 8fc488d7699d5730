import AirDefense.Proofs.Slots.Admission
import AirDefense.Proofs.Slots.Conservation

/-!
# Requests in order

Requests admit free slots one behind the other, and whoever draws takes the first
one that is left.  Any number of callers draw from one queue, are woken, for a
reason or for none, and give slots back; requests come in between, and so may the
end of it all.  In every order of these steps each slot has one place, and the
slots are drawn in the order in which they were admitted.
-/

namespace AirDefense
namespace AdmissionQueue

/-!
## Calls as steps of a stack and a queue
-/

def admits? (q : AdmissionQueue) : Option Nat :=
  if q.request.1 then q.chain.popFree.map Prod.fst else none

variable {q : AdmissionQueue}

theorem Sound.represents (h : q.Sound) : q.chain.Represents q.chain.free q.chain.ready := by
  rcases h with ⟨free, ready, hrepresents⟩
  rw [hrepresents.free_eq, hrepresents.ready_eq]
  exact hrepresents

/-- Free slots and ready slots after a call, and whether there are more draws then. -/
structure Leaves (q : AdmissionQueue) (free ready : List Nat) (closed : Bool) : Prop where
  free_eq : q.chain.free = free
  ready_eq : q.chain.ready = ready
  closed_eq : q.closed = closed

theorem leaves_of_represents {free ready : List Nat} (h : q.chain.Represents free ready) :
    q.Leaves free ready q.closed :=
  ⟨h.free_eq, h.ready_eq, rfl⟩

theorem Sound.wake_cons (h : q.Sound) {slot : Nat} {ready : List Nat}
    (hready : q.chain.ready = slot :: ready) :
    q.wake.1 = .granted slot ∧ q.wake.2.Leaves q.chain.free ready q.closed ∧
      q.wake.2.drawers = q.drawers - 1 := by
  have hrepresents := h.represents
  rw [hready] at hrepresents
  rcases hrepresents.popReady_cons with ⟨d, hd, _, hrest⟩
  have hwake : q.wake = (.granted slot, { q with chain := d, drawers := q.drawers - 1 }) := by
    simp only [AdmissionQueue.wake, hd]
  rw [hwake]
  exact ⟨rfl, leaves_of_represents hrest, rfl⟩

theorem Sound.wake_nil (h : q.Sound) (hready : q.chain.ready = []) :
    q.wake =
      if q.closed then (.refused, { q with drawers := q.drawers - 1 }) else (.parked, q) := by
  have hrepresents := h.represents
  rw [hready] at hrepresents
  simp only [AdmissionQueue.wake, hrepresents.popReady_nil]

theorem Sound.wake_leaves (h : q.Sound) :
    exists ready, q.chain.ready = q.wake.1.slot?.toList ++ ready ∧
      q.wake.2.Leaves q.chain.free ready q.closed := by
  cases hready : q.chain.ready with
  | cons slot ready =>
      rcases h.wake_cons hready with ⟨hanswer, hleaves, _⟩
      rw [hanswer]
      exact ⟨ready, rfl, hleaves⟩
  | nil =>
      rw [h.wake_nil hready]
      split
      · exact ⟨[], rfl, rfl, hready, rfl⟩
      · exact ⟨[], rfl, rfl, hready, rfl⟩

theorem Sound.drawers_wake (h : q.Sound) (hpos : 0 < q.drawers) :
    q.wake.2.drawers + 1 = q.drawers + (decide (q.wake.1 = .parked)).toNat := by
  cases hready : q.chain.ready with
  | cons slot ready =>
      rcases h.wake_cons hready with ⟨hanswer, _, hdrawers⟩
      rw [hanswer, hdrawers]
      exact Nat.sub_add_cancel hpos
  | nil =>
      rw [h.wake_nil hready]
      cases hclosed : q.closed with
      | true => exact Nat.sub_add_cancel hpos
      | false => rfl

theorem Sound.request_iff (h : q.Sound) :
    q.request.1 = true ↔ q.closed = false ∧ 0 < q.drawers ∧ q.chain.free ≠ [] := by
  have hrepresents := h.represents
  unfold AdmissionQueue.request
  cases hclosed : q.closed with
  | true => simp
  | false =>
      by_cases hdrawers : q.drawers = 0
      · simp [hdrawers]
      · cases hfree : q.chain.free with
        | nil =>
            rw [hfree] at hrepresents
            simp [hrepresents.popFree_nil]
        | cons slot free =>
            rw [hfree] at hrepresents
            rcases hrepresents.popFree_cons with ⟨d, hd, _⟩
            simp [hd, hdrawers, Nat.pos_of_ne_zero hdrawers]

theorem request_refused (h : q.request.1 = false) : q.request.2 = q := by
  unfold AdmissionQueue.request at h ⊢
  split
  · rfl
  · rename_i hopen
    rw [if_neg hopen] at h
    cases hpop : q.chain.popFree with
    | none => rfl
    | some r =>
        rw [hpop] at h
        cases h

theorem drawers_request : q.request.2.drawers = q.drawers := by
  unfold AdmissionQueue.request
  split
  · rfl
  · cases q.chain.popFree <;> rfl

/-- A request moves the top of the free stack, if anything, to the end of the ready queue. -/
theorem Sound.request_leaves (h : q.Sound) :
    exists free, q.chain.free = q.admits?.toList ++ free ∧
      q.request.2.Leaves free (q.chain.ready ++ q.admits?.toList) q.closed := by
  unfold admits?
  cases hserved : q.request.1 with
  | false =>
      rw [request_refused hserved]
      exact ⟨q.chain.free, rfl, rfl, (List.append_nil _).symm, rfl⟩
  | true =>
      rcases h.request_iff.mp hserved with ⟨hopen, hdrawers, hfree⟩
      rcases List.exists_cons_of_ne_nil hfree with ⟨slot, free, hcons⟩
      have hrepresents := h.represents
      rw [hcons] at hrepresents
      rcases hrepresents.popFree_cons with ⟨d, hd, hcapacity, hrest⟩
      have hinUse : d.IsInUse slot := by
        have hdistinct : slot ∉ free ++ q.chain.ready :=
          (List.nodup_cons.mp hrepresents.distinct).1
        rw [List.mem_append, not_or] at hdistinct
        have hlt := hrepresents.lt_of_mem_free (List.mem_cons_self ..)
        exact hrest.isInUse_iff.mpr ⟨hcapacity ▸ hlt, hdistinct⟩
      have hpos : q.drawers ≠ 0 := Nat.pos_iff_ne_zero.mp hdrawers
      have hqueued : q.request.2 = { q with chain := d.enqueue slot } := by
        simp [AdmissionQueue.request, hopen, hpos, hd]
      rw [hqueued, hd, hcons]
      exact ⟨free, rfl, leaves_of_represents (hrest.enqueue hinUse)⟩

theorem Sound.release_leaves (h : q.Sound) {slot : Nat} (hinUse : q.chain.IsInUse slot) :
    exists r, q.release? slot = .ok r ∧ r.drawers = q.drawers ∧
      r.Leaves (slot :: q.chain.free) q.chain.ready q.closed := by
  have hrepresents := h.represents
  have hcheck := SlotChain.expectInUse?_of_isInUse hrepresents hinUse
  refine ⟨{ q with chain := q.chain.stack slot }, ?_, rfl, ?_⟩
  · exact bind_eq_ok.mpr ⟨_, bind_eq_ok.mpr ⟨(), hcheck, rfl⟩, rfl⟩
  · exact leaves_of_represents (hrepresents.stack hinUse)

theorem release?_of_not_isInUse {slot : Nat} (hnot : ¬ q.chain.IsInUse slot) :
    exists fault, q.release? slot = .error fault := by
  rcases SlotChain.expectInUse?_of_not_isInUse hnot with ⟨fault, hfault⟩
  refine ⟨fault, ?_⟩
  simp only [release?, SlotChain.pushFree?, hfault]
  rfl

theorem Sound.close_leaves (h : q.Sound) :
    q.close.Leaves (q.chain.ready.reverse ++ q.chain.free) [] true := by
  have hall := h.represents.freeReady.2
  rw [← h.represents.readyLength_eq] at hall
  exact leaves_of_represents (q := q.close) hall

end AdmissionQueue

/-!
## Queues in use
-/

/--
A queue in use, and what has become of it so far: the slots that requests have
admitted, and the slots that callers have drawn, each in turn.
-/
structure AdmissionUse where
  queue : AdmissionQueue
  callers : List SlotCaller
  admitted : List Nat
  drawn : List Nat
deriving DecidableEq, Repr

inductive AdmissionCall where
  | join
  | enter (caller : Nat)
  | wake (caller : Nat)
  | request
  | release (slot : Nat)
  | close
deriving DecidableEq, Repr

namespace AdmissionUse

def start (q : AdmissionQueue) : AdmissionUse := ⟨q, [], [], []⟩

/-- The slots with callers. -/
def held (u : AdmissionUse) : List Nat :=
  u.callers.flatMap SlotCaller.held

/-- A caller leaves a draw, or parks in it, and the queue is `r.2` now. -/
def answer (u : AdmissionUse) (caller : Nat) (c : SlotCaller)
    (r : SlotAnswer × AdmissionQueue) : AdmissionUse :=
  { u with
    queue := r.2
    callers := u.callers.set caller (c.hear r.1)
    drawn := u.drawn ++ r.1.slot?.toList }

/--
One step.  A step that its caller is in no position to take, and one that breaks
the contract of the queue, change nothing.
-/
def act (u : AdmissionUse) : AdmissionCall -> AdmissionUse
  | .join => { u with callers := u.callers ++ [.newcomer] }
  | .enter caller =>
      match u.callers[caller]? with
      | none => u
      | some c => if c.parked then u else u.answer caller c u.queue.enter
  | .wake caller =>
      match u.callers[caller]? with
      | none => u
      | some c => if c.parked then u.answer caller c u.queue.wake else u
  | .request =>
      { u with queue := u.queue.request.2, admitted := u.admitted ++ u.queue.admits?.toList }
  | .release slot =>
      match u.queue.release? slot with
      | .error _ => u
      | .ok queue =>
          { u with
            queue
            callers := u.callers.map fun c => { c with held := c.held.erase slot } }
  | .close => { u with queue := u.queue.close }

def run (u : AdmissionUse) (calls : List AdmissionCall) : AdmissionUse :=
  calls.foldl act u

/-!
## The invariant
-/

structure Sound (capacity : Nat) (u : AdmissionUse) : Prop where
  queue : u.queue.Sound
  capacity_eq : u.queue.capacity = capacity
  slots : (u.queue.chain.free ++ u.queue.chain.ready ++ u.held).Perm (List.range capacity)
  drawers_eq : u.queue.drawers = u.callers.countP SlotCaller.parked
  in_order : u.drawn <+: u.admitted
  opened : u.queue.closed = false -> u.admitted = u.drawn ++ u.queue.chain.ready
  shut : u.queue.closed = true -> u.queue.chain.ready = []

variable {capacity : Nat} {u : AdmissionUse}

theorem start_sound {q : AdmissionQueue} (h : AdmissionQueue.ofCapacity? capacity = .ok q) :
    (start q).Sound capacity := by
  rcases bind_eq_ok.mp h with ⟨c, hc, hq⟩
  rcases SlotChain.build?_represents hc with ⟨hcapacity, hrepresents⟩
  rw [← pure_eq_ok.mp hq]
  exact
    { queue := ⟨_, _, hrepresents⟩
      capacity_eq := hcapacity
      slots := by simp [start, held, hrepresents.free_eq, hrepresents.ready_eq]
      drawers_eq := rfl
      in_order := List.prefix_rfl
      opened := fun _ => hrepresents.ready_eq.symm
      shut := fun _ => hrepresents.ready_eq }

theorem Sound.isInUse_iff (h : u.Sound capacity) {slot : Nat} :
    u.queue.chain.IsInUse slot ↔ slot ∈ u.held := by
  have hdistinct := List.nodup_append.mp (h.slots.nodup_iff.mpr List.nodup_range)
  have hmem := h.slots.mem_iff (a := slot)
  have hcapacity : u.queue.chain.capacity = capacity := h.capacity_eq
  rw [h.queue.represents.isInUse_iff, hcapacity, ← not_or, ← List.mem_append]
  rw [List.mem_append, List.mem_range] at hmem
  constructor
  · intro hslot
    exact (hmem.mpr hslot.1).resolve_left hslot.2
  · intro hheld
    exact ⟨hmem.mp (.inr hheld), fun hlisted => hdistinct.2.2 slot hlisted slot hheld rfl⟩

theorem Sound.release?_eq_ok_iff (h : u.Sound capacity) {slot : Nat} :
    (exists r, u.queue.release? slot = .ok r) ↔ slot ∈ u.held := by
  rw [← h.isInUse_iff]
  constructor
  · intro hr
    by_contra hnot
    rcases hr with ⟨r, hr⟩
    rcases AdmissionQueue.release?_of_not_isInUse hnot with ⟨fault, hfault⟩
    rw [hr] at hfault
    cases hfault
  · intro hinUse
    rcases h.queue.release_leaves hinUse with ⟨r, hr, _⟩
    exact ⟨r, hr⟩

/-- A caller that leaves a draw, or waits in it, has what was the first ready slot. -/
theorem Sound.answer (h : u.Sound capacity) {caller : Nat} {c : SlotCaller}
    (hc : u.callers[caller]? = some c) {slot? : Option Nat} {r : SlotAnswer × AdmissionQueue}
    (hr : u.queue.Serves slot? r.2) {ready : List Nat}
    (hready : u.queue.chain.ready = r.1.slot?.toList ++ ready)
    (hleaves : r.2.Leaves u.queue.chain.free ready u.queue.closed)
    (hdrawers : r.2.drawers + c.parked.toNat =
      u.queue.drawers + (decide (r.1 = .parked)).toNat) :
    (u.answer caller c r).Sound capacity := by
  have hheld : (u.answer caller c r).held.Perm (r.1.slot?.toList ++ u.held) :=
    PoolUse.flatMap_set_perm hc rfl
  have hopened : u.queue.closed = false -> u.admitted = u.drawn ++ r.1.slot?.toList ++ ready :=
    fun hopen => by rw [h.opened hopen, hready, List.append_assoc]
  have hshut : u.queue.closed = true -> r.1.slot?.toList = [] ∧ ready = [] :=
    fun hclosed => List.append_eq_nil_iff.mp (hready.symm.trans (h.shut hclosed))
  exact
    { queue := hr.sound
      capacity_eq := hr.capacity_eq.trans h.capacity_eq
      slots := by
        have hmoved : (ready ++ (r.1.slot?.toList ++ u.held)).Perm
            (u.queue.chain.ready ++ u.held) := by
          rw [hready, ← List.append_assoc]
          exact List.perm_append_comm.append_right _
        show (r.2.chain.free ++ r.2.chain.ready ++ (u.answer caller c r).held).Perm _
        rw [hleaves.free_eq, hleaves.ready_eq, List.append_assoc]
        refine ((hheld.append_left ready).trans hmoved).append_left _ |>.trans ?_
        rw [← List.append_assoc]
        exact h.slots
      drawers_eq := by
        have hcount := countP_set_add (p := SlotCaller.parked) (d := c.hear r.1) hc
        have hbefore := h.drawers_eq
        simp only [SlotCaller.hear] at hcount
        simp only [AdmissionUse.answer, SlotCaller.hear]
        omega
      in_order := by
        show u.drawn ++ r.1.slot?.toList <+: u.admitted
        cases hclosed : u.queue.closed with
        | true =>
            rw [(hshut hclosed).1, List.append_nil]
            exact h.in_order
        | false =>
            rw [hopened hclosed]
            exact List.prefix_append _ _
      opened := by
        intro hopen
        show u.admitted = u.drawn ++ r.1.slot?.toList ++ r.2.chain.ready
        rw [hleaves.ready_eq]
        exact hopened (hleaves.closed_eq.symm.trans hopen)
      shut := by
        intro hclosed
        exact hleaves.ready_eq.trans (hshut (hleaves.closed_eq.symm.trans hclosed)).2 }

/-!
## Every step keeps the invariant
-/

theorem Sound.join (h : u.Sound capacity) : (u.act .join).Sound capacity := by
  have hheld : (u.act .join).held = u.held := by simp [act, held, SlotCaller.newcomer]
  have hdrawers := h.drawers_eq
  exact
    { h with
      slots := hheld ▸ h.slots
      drawers_eq := by simpa [act, SlotCaller.newcomer] using hdrawers }

theorem Sound.enter (h : u.Sound capacity) (caller : Nat) :
    (u.act (.enter caller)).Sound capacity := by
  cases hc : u.callers[caller]? with
  | none =>
      simpa only [act, hc] using h
  | some c =>
      simp only [act, hc]
      cases hparked : c.parked with
      | true => exact h
      | false =>
          have hqueued : ({ u.queue with drawers := u.queue.drawers + 1 } : AdmissionQueue).Sound :=
            h.queue
          rcases hqueued.wake_leaves with ⟨ready, hready, hleaves⟩
          refine h.answer hc h.queue.enter hready hleaves ?_
          have hdrawers := hqueued.drawers_wake (Nat.succ_pos _)
          rw [hparked]
          simp only [Bool.toNat_false, Nat.add_zero]
          rw [Nat.add_right_comm] at hdrawers
          exact Nat.add_right_cancel hdrawers

theorem Sound.wake (h : u.Sound capacity) (caller : Nat) :
    (u.act (.wake caller)).Sound capacity := by
  cases hc : u.callers[caller]? with
  | none =>
      simpa only [act, hc] using h
  | some c =>
      simp only [act, hc]
      cases hparked : c.parked with
      | false => exact h
      | true =>
          rcases h.queue.wake_leaves with ⟨ready, hready, hleaves⟩
          refine h.answer hc h.queue.wake hready hleaves ?_
          rw [hparked]
          apply h.queue.drawers_wake
          rw [h.drawers_eq]
          exact List.countP_pos_iff.mpr ⟨c, List.mem_of_getElem? hc, hparked⟩

theorem Sound.request (h : u.Sound capacity) : (u.act .request).Sound capacity := by
  have hserves := h.queue.request
  rcases h.queue.request_leaves with ⟨free, hfree, hleaves⟩
  have hlater : u.queue.closed = true -> u.queue.admits? = none := by
    intro hclosed
    unfold AdmissionQueue.admits?
    rw [if_neg]
    intro hserved
    have hopen := (h.queue.request_iff.mp hserved).1
    rw [hclosed] at hopen
    cases hopen
  exact
    { queue := hserves.sound
      capacity_eq := hserves.capacity_eq.trans h.capacity_eq
      slots := by
        have hmoved : (free ++ (u.queue.chain.ready ++ u.queue.admits?.toList)).Perm
            (u.queue.chain.free ++ u.queue.chain.ready) := by
          rw [hfree, ← List.append_assoc, List.append_assoc u.queue.admits?.toList]
          exact List.perm_append_comm
        show (u.queue.request.2.chain.free ++ u.queue.request.2.chain.ready ++ u.held).Perm _
        rw [hleaves.free_eq, hleaves.ready_eq]
        exact (hmoved.append_right _).trans h.slots
      drawers_eq := AdmissionQueue.drawers_request.trans h.drawers_eq
      in_order := h.in_order.trans (List.prefix_append _ _)
      opened := by
        intro hopen
        show u.admitted ++ u.queue.admits?.toList = u.drawn ++ u.queue.request.2.chain.ready
        rw [hleaves.ready_eq, h.opened (hleaves.closed_eq.symm.trans hopen), List.append_assoc]
      shut := by
        intro hclosed
        have hbefore := hleaves.closed_eq.symm.trans hclosed
        show u.queue.request.2.chain.ready = []
        rw [hleaves.ready_eq, hlater hbefore, h.shut hbefore]
        rfl }

theorem Sound.release (h : u.Sound capacity) (slot : Nat) :
    (u.act (.release slot)).Sound capacity := by
  cases hq : u.queue.release? slot with
  | error fault =>
      simpa only [act, hq] using h
  | ok r =>
      have hmem : slot ∈ u.held := h.release?_eq_ok_iff.mp ⟨r, hq⟩
      have hinUse := h.isInUse_iff.mpr hmem
      have hdistinct : u.held.Nodup :=
        (List.nodup_append.mp (h.slots.nodup_iff.mpr List.nodup_range)).2.1
      rcases h.queue.release hinUse with ⟨_, hr, hsound, hcapacity, _⟩
      rcases h.queue.release_leaves hinUse with ⟨_, hr', hdrawers, hleaves⟩
      rw [hq] at hr hr'
      cases hr
      cases hr'
      have hheld : (u.act (.release slot)).held = u.held.erase slot := by
        simp only [act, hq]
        exact PoolUse.flatMap_erase hdistinct
      simp only [act, hq] at hheld ⊢
      exact
        { queue := hsound
          capacity_eq := hcapacity.trans h.capacity_eq
          slots := by
            have hback : (slot :: (u.queue.chain.free ++ u.queue.chain.ready ++
                u.held.erase slot)).Perm
                (u.queue.chain.free ++ u.queue.chain.ready ++ u.held) :=
              List.perm_middle.symm.trans ((List.perm_cons_erase hmem).symm.append_left _)
            rw [hheld, hleaves.free_eq, hleaves.ready_eq]
            exact hback.trans h.slots
          drawers_eq := by
            rw [hdrawers, h.drawers_eq, List.countP_map]
            rfl
          in_order := h.in_order
          opened := by
            intro hopen
            rw [hleaves.ready_eq]
            exact h.opened (hleaves.closed_eq.symm.trans hopen)
          shut := by
            intro hclosed
            rw [hleaves.ready_eq]
            exact h.shut (hleaves.closed_eq.symm.trans hclosed) }

theorem Sound.close (h : u.Sound capacity) : (u.act .close).Sound capacity := by
  have hserves := h.queue.close
  have hleaves := h.queue.close_leaves
  exact
    { queue := hserves.sound
      capacity_eq := hserves.capacity_eq.trans h.capacity_eq
      slots := by
        have hmoved : (u.queue.chain.ready.reverse ++ u.queue.chain.free).Perm
            (u.queue.chain.free ++ u.queue.chain.ready) :=
          List.perm_append_comm.trans (u.queue.chain.ready.reverse_perm.append_left _)
        show (u.queue.close.chain.free ++ u.queue.close.chain.ready ++ u.held).Perm _
        rw [hleaves.free_eq, hleaves.ready_eq, List.append_nil]
        exact (hmoved.append_right _).trans h.slots
      drawers_eq := h.drawers_eq
      in_order := h.in_order
      opened := by
        intro hopen
        cases hopen
      shut := fun _ => hleaves.ready_eq }

theorem Sound.act (h : u.Sound capacity) (call : AdmissionCall) :
    (u.act call).Sound capacity := by
  cases call with
  | join => exact h.join
  | enter caller => exact h.enter caller
  | wake caller => exact h.wake caller
  | request => exact h.request
  | release slot => exact h.release slot
  | close => exact h.close

theorem Sound.run (h : u.Sound capacity) (calls : List AdmissionCall) :
    (u.run calls).Sound capacity := by
  induction calls generalizing u with
  | nil => exact h
  | cons call rest ih => exact ih (h.act call)

theorem Sound.closed_act (h : u.Sound capacity) (call : AdmissionCall) :
    (u.act call).queue.closed = (u.queue.closed || decide (call = .close)) := by
  have hwake : forall q : AdmissionQueue, q.Sound -> q.wake.2.closed = q.closed := by
    intro q hq
    rcases hq.wake_leaves with ⟨_, _, hleaves⟩
    exact hleaves.closed_eq
  cases call with
  | join => simp [AdmissionUse.act]
  | enter caller =>
      have hclosed : u.queue.enter.2.closed = u.queue.closed := hwake _ h.queue
      simp only [AdmissionUse.act]
      split
      · simp
      · split <;> simp [AdmissionUse.answer, hclosed]
  | wake caller =>
      have hclosed := hwake _ h.queue
      simp only [AdmissionUse.act]
      split
      · simp
      · split <;> simp [AdmissionUse.answer, hclosed]
  | request =>
      rcases h.queue.request_leaves with ⟨_, _, hleaves⟩
      simp [AdmissionUse.act, hleaves.closed_eq]
  | release slot =>
      cases hq : u.queue.release? slot with
      | error fault => simp [AdmissionUse.act, hq]
      | ok r =>
          have hinUse := h.isInUse_iff.mpr (h.release?_eq_ok_iff.mp ⟨r, hq⟩)
          rcases h.queue.release_leaves hinUse with ⟨_, hr, _, hleaves⟩
          rw [hq] at hr
          cases hr
          simp [AdmissionUse.act, hq, hleaves.closed_eq]
  | close => simp [AdmissionUse.act, AdmissionQueue.close]

theorem Sound.closed_run (h : u.Sound capacity) (calls : List AdmissionCall) :
    (u.run calls).queue.closed = true ↔ u.queue.closed = true ∨ .close ∈ calls := by
  induction calls generalizing u with
  | nil => simp [AdmissionUse.run]
  | cons call rest ih =>
      have hrest := ih (h.act call)
      rw [h.closed_act, Bool.or_eq_true, decide_eq_true_eq, or_assoc] at hrest
      rw [List.mem_cons, eq_comm (a := AdmissionCall.close)]
      exact hrest

/-!
## What it comes to
-/

theorem Sound.drawers_pos_iff (h : u.Sound capacity) :
    0 < u.queue.drawers ↔ exists c, c ∈ u.callers ∧ c.parked = true := by
  rw [h.drawers_eq, List.countP_pos_iff]

theorem Sound.isShut (h : u.Sound capacity) (hclosed : u.queue.closed = true) :
    u.queue.IsShut := by
  refine ⟨hclosed, ?_⟩
  have hlength := h.queue.represents.readyLength_eq
  rwa [h.shut hclosed] at hlength

theorem Sound.freeLength_eq (h : u.Sound capacity) (hready : u.queue.chain.ready = [])
    (hheld : u.held = []) : u.queue.freeLength = capacity := by
  have hlength := h.slots.length_eq
  rw [hready, hheld, List.append_nil, List.append_nil, List.length_range] at hlength
  exact h.queue.represents.freeLength_eq.trans hlength

/--
In every order of calls each slot is free, ready or with just one caller.  Just
those requests are served that come while the queue is open, a caller draws and a
slot is free; the others change nothing.  Slots are drawn in the order in which
they were admitted, and those not drawn yet are ready, in that order, until the
queue is closed and they are free again.  From then on nobody draws anything, and
in the end all slots are free.
-/
theorem slots_drawn_in_order {capacity : Nat} {q : AdmissionQueue}
    (h : AdmissionQueue.ofCapacity? capacity = .ok q) (calls : List AdmissionCall) :
    let u := (start q).run calls
    (u.queue.chain.free ++ u.queue.chain.ready ++ u.held).Perm (List.range capacity) ∧
      (u.queue.closed = true ↔ .close ∈ calls) ∧
      (u.queue.request.1 = true ↔ u.queue.closed = false ∧
        (exists c, c ∈ u.callers ∧ c.parked = true) ∧ u.queue.chain.free ≠ []) ∧
      (u.queue.request.1 = false -> u.act .request = u) ∧
      u.drawn <+: u.admitted ∧
      (u.queue.closed = false -> u.admitted = u.drawn ++ u.queue.chain.ready) ∧
      (u.act .close).queue.chain.free = u.queue.chain.ready.reverse ++ u.queue.chain.free ∧
      (u.queue.closed = true -> u.queue.chain.ready = [] ∧ u.queue.enter.1 = .refused ∧
        u.queue.wake.1 = .refused ∧ (u.held = [] -> u.queue.freeLength = capacity)) := by
  intro u
  have hsound : u.Sound capacity := (start_sound h).run calls
  refine ⟨hsound.slots, ?_, ?_, ?_, hsound.in_order, hsound.opened, ?_, ?_⟩
  · have hopen : q.closed = false := by
      rcases bind_eq_ok.mp h with ⟨c, _, hq⟩
      rw [← pure_eq_ok.mp hq]
    rw [(start_sound h).closed_run]
    simp [start, hopen]
  · rw [hsound.queue.request_iff, hsound.drawers_pos_iff]
  · intro hrefused
    simp [act, AdmissionQueue.admits?, hrefused, AdmissionQueue.request_refused hrefused]
  · exact hsound.queue.close_leaves.free_eq
  · intro hclosed
    have hshut := hsound.isShut hclosed
    have hentered : ({ u.queue with drawers := u.queue.drawers + 1 } : AdmissionQueue).IsShut :=
      ⟨hshut.closed, hshut.readyLength_eq⟩
    refine ⟨hsound.shut hclosed, ?_, ?_, hsound.freeLength_eq (hsound.shut hclosed)⟩
    · rw [AdmissionQueue.enter, hentered.wake hsound.queue]
    · rw [hshut.wake hsound.queue]

theorem slots_drawn_in_order_newcomer :
    exists q, AdmissionQueue.ofCapacity? 3 = .ok q ∧
      let u := (start q).run [.join, .join, .enter 0, .request, .request, .enter 1]
      (u.queue.closed = false -> u.admitted = u.drawn ++ u.queue.chain.ready) ∧
        u.admitted = [0, 1] ∧ u.drawn = [0] ∧ u.queue.chain.ready = [1] ∧
          u.queue.chain.free = [2] := by
  have h : AdmissionQueue.ofCapacity? 3 = .ok _ := rfl
  exact ⟨_, h, (slots_drawn_in_order h _).2.2.2.2.2.1, by decide⟩

end AdmissionUse
end AirDefense

import AirDefense.Proofs.Faults
import AirDefense.Proofs.Slots.Chain
import AirDefense.Slots.Pool

/-!
# Pools as sets of taken slots

A slot of a pool is taken when it is in use and not kept aside for somebody.
Every call on a pool keeps the pool in order, and takes the slot that it answers
with and no other one.
-/

namespace AirDefense

namespace SlotAnswer

def slot? : SlotAnswer -> Option Nat
  | granted slot => some slot
  | refused => none
  | parked => none

end SlotAnswer

/-- `after` is `before` and the slot that was handed out, if there was one. -/
def Takes (slot? : Option α) (before after : α -> Prop) : Prop :=
  (forall i, slot? = some i -> ¬ before i) ∧
    forall i, after i ↔ before i ∨ slot? = some i

theorem takes_none {before after : α -> Prop} (h : forall i, after i ↔ before i) :
    Takes none before after :=
  ⟨by simp, by simpa using h⟩

namespace SlotPool

def IsTaken (p : SlotPool) (slot : Nat) : Prop :=
  p.chain.IsInUse slot ∧ slot ∉ p.handed

instance (p : SlotPool) (slot : Nat) : Decidable (p.IsTaken slot) :=
  inferInstanceAs (Decidable (_ ∧ _))

structure Sound (p : SlotPool) : Prop where
  chain : exists free, p.chain.Represents free []
  handed_nodup : p.handed.Nodup
  handed_inUse : forall i, i ∈ p.handed -> p.chain.IsInUse i
  handed_le : p.handed.length <= p.waiting
  handed_closed : p.closed = true -> p.handed = []

theorem ofCapacity?_sound {n : Nat} {p : SlotPool} (h : ofCapacity? n = .ok p) :
    p.Sound ∧ p.capacity = n ∧ p.waiting = 0 ∧ p.closed = false ∧
      forall i, ¬ p.IsTaken i := by
  rcases bind_eq_ok.mp h with ⟨c, hc, h⟩
  rcases SlotChain.build?_represents hc with ⟨hcapacity, hrepresents⟩
  rw [← pure_eq_ok.mp h]
  refine ⟨?_, hcapacity, rfl, rfl, ?_⟩
  · exact
      { chain := ⟨_, hrepresents⟩
        handed_nodup := List.nodup_nil
        handed_inUse := by simp
        handed_le := Nat.le_refl 0
        handed_closed := fun _ => rfl }
  · intro i hi
    have hinUse := hrepresents.isInUse_iff.mp hi.1
    rw [hcapacity] at hinUse
    exact hinUse.2.1 (List.mem_range.mpr hinUse.1)

/-- A call on `p` that answers with `slot?` leaves the pool `q`. -/
structure Serves (p : SlotPool) (slot? : Option Nat) (q : SlotPool) : Prop where
  sound : q.Sound
  takes : Takes slot? p.IsTaken q.IsTaken
  capacity_eq : q.capacity = p.capacity
  closed_eq : q.closed = p.closed

variable {p : SlotPool}

theorem Sound.serves_none (h : p.Sound) : p.Serves none p :=
  ⟨h, takes_none fun _ => Iff.rfl, rfl, rfl⟩

/-!
## Taking a slot
-/

theorem wake_cons {slot : Nat} {rest : List Nat} (h : p.handed = slot :: rest) :
    p.wake = (.granted slot, { p with handed := rest, waiting := p.waiting - 1 }) := by
  rw [wake, h]

theorem wake_closed (h : p.handed = []) (hclosed : p.closed = true) :
    p.wake = (.refused, { p with waiting := p.waiting - 1 }) := by
  simp only [wake]
  split
  · rename_i hcons
    rw [h] at hcons
    cases hcons
  · rw [if_pos hclosed]

theorem wake_open (h : p.handed = []) (hopen : p.closed = false) :
    p.wake = (.parked, p) := by
  simp only [wake]
  split
  · rename_i hcons
    rw [h] at hcons
    cases hcons
  · rw [if_neg (by simp [hopen])]

theorem Sound.wake (h : p.Sound) : p.Serves p.wake.1.slot? p.wake.2 := by
  cases hhanded : p.handed with
  | cons slot rest =>
      have hnodup := h.handed_nodup
      rw [hhanded] at hnodup
      have hslot : slot ∉ rest ∧ rest.Nodup := List.nodup_cons.mp hnodup
      have hinUse : p.chain.IsInUse slot :=
        h.handed_inUse slot (hhanded ▸ List.mem_cons_self ..)
      have hle := h.handed_le
      rw [hhanded, List.length_cons] at hle
      rw [wake_cons hhanded]
      refine ⟨?_, ⟨?_, ?_⟩, rfl, rfl⟩
      · exact
          { chain := h.chain
            handed_nodup := hslot.2
            handed_inUse := fun i hi =>
              h.handed_inUse i (hhanded ▸ List.mem_cons_of_mem _ hi)
            handed_le := by simp only; omega
            handed_closed := fun hclosed => by
              have hnil := h.handed_closed hclosed
              rw [hhanded] at hnil
              cases hnil }
      · intro i hi htaken
        injection hi with hi
        subst hi
        exact htaken.2 (hhanded ▸ List.mem_cons_self ..)
      · intro i
        simp only [IsTaken, SlotAnswer.slot?, hhanded, List.mem_cons, Option.some.injEq]
        by_cases hi : i = slot
        · subst hi
          simp [hinUse, hslot.1]
        · simp [hi, Ne.symm hi]
  | nil =>
      cases hclosed : p.closed with
      | true =>
          rw [wake_closed hhanded hclosed]
          refine ⟨{ h with handed_le := ?_ }, takes_none fun i => Iff.rfl, rfl, rfl⟩
          simp [hhanded]
      | false =>
          rw [wake_open hhanded hclosed]
          exact h.serves_none

theorem Sound.popFree (h : p.Sound) (hhanded : p.handed = []) {slot : Nat} {c : SlotChain}
    (hpop : p.chain.popFree = some (slot, c)) :
    p.Serves (some slot) { p with chain := c } := by
  rcases h.chain with ⟨free, hfree⟩
  cases free with
  | nil =>
      rw [hfree.popFree_nil] at hpop
      cases hpop
  | cons i rest =>
      rcases hfree.popFree_cons with ⟨d, hd, hcapacity, hrest⟩
      rw [hd] at hpop
      injection hpop with hpop
      injection hpop with hi hc
      subst hi hc
      have hnodup : i ∉ rest := by
        have hdistinct := hfree.distinct
        simp only [List.append_nil, List.nodup_cons] at hdistinct
        exact hdistinct.1
      have hlt : i < p.chain.capacity := hfree.lt_of_mem_free (List.mem_cons_self ..)
      refine ⟨?_, ⟨?_, ?_⟩, hcapacity, rfl⟩
      · exact
          { chain := ⟨rest, hrest⟩
            handed_nodup := h.handed_nodup
            handed_inUse := by simp [hhanded]
            handed_le := h.handed_le
            handed_closed := h.handed_closed }
      · intro j hj htaken
        injection hj with hj
        subst hj
        exact (hfree.isInUse_iff.mp htaken.1).2.1 (List.mem_cons_self ..)
      · intro j
        simp only [IsTaken, hhanded, hfree.isInUse_iff, hrest.isInUse_iff, hcapacity,
          List.mem_cons, Option.some.injEq]
        by_cases hj : j = i
        · subst hj
          simp [hnodup, hlt]
        · simp [hj, Ne.symm hj]

theorem Sound.handed_nil (h : p.Sound) (hwaiting : p.waiting = 0) : p.handed = [] := by
  have hle := h.handed_le
  exact List.eq_nil_of_length_eq_zero (by omega)

theorem Sound.queue (h : p.Sound) {slot? : Option Nat} {q : SlotPool}
    (hserves : ({ p with waiting := p.waiting + 1 } : SlotPool).Sound ->
      ({ p with waiting := p.waiting + 1 } : SlotPool).Serves slot? q) :
    p.Serves slot? q := by
  have hq := hserves { h with handed_le := Nat.le_succ_of_le h.handed_le }
  exact ⟨hq.sound, hq.takes, hq.capacity_eq, hq.closed_eq⟩

theorem enter_closed (hclosed : p.closed = true) : p.enter = (.refused, p) := by
  rw [enter, if_pos hclosed]

theorem enter_free (hopen : p.closed = false) (hwaiting : p.waiting = 0) {slot : Nat}
    {c : SlotChain} (hpop : p.chain.popFree = some (slot, c)) :
    p.enter = (.granted slot, { p with chain := c }) := by
  simp [enter, hopen, hwaiting, hpop]

theorem enter_queued (hopen : p.closed = false)
    (hqueue : p.waiting = 0 -> p.chain.popFree = none) :
    p.enter = ({ p with waiting := p.waiting + 1 } : SlotPool).wake := by
  rw [enter, if_neg (by simp [hopen])]
  by_cases hwaiting : p.waiting = 0
  · simp only
    rw [if_pos hwaiting, hqueue hwaiting]
  · exact if_neg hwaiting

theorem Sound.enter (h : p.Sound) : p.Serves p.enter.1.slot? p.enter.2 := by
  cases hclosed : p.closed with
  | true =>
      rw [enter_closed hclosed]
      exact h.serves_none
  | false =>
      by_cases hwaiting : p.waiting = 0
      · cases hpop : p.chain.popFree with
        | none =>
            rw [enter_queued hclosed fun _ => hpop]
            exact h.queue Sound.wake
        | some r =>
            rw [enter_free hclosed hwaiting hpop]
            exact h.popFree (h.handed_nil hwaiting) hpop
      · rw [enter_queued hclosed fun heq => absurd heq hwaiting]
        exact h.queue Sound.wake

theorem Sound.tryAcquire (h : p.Sound) : p.Serves p.tryAcquire.1 p.tryAcquire.2 := by
  unfold SlotPool.tryAcquire
  by_cases hbusy : (p.closed || decide (0 < p.waiting)) = true
  · rw [if_pos hbusy]
    exact h.serves_none
  · rw [if_neg hbusy]
    have hwaiting : p.waiting = 0 := by
      simp only [Bool.or_eq_true, decide_eq_true_eq, not_or] at hbusy
      omega
    cases hpop : p.chain.popFree with
    | none => exact h.serves_none
    | some r => exact h.popFree (h.handed_nil hwaiting) hpop

/-!
## Giving a slot back
-/

section Release

variable {slot : Nat}

theorem Sound.keepAside (h : p.Sound) (htaken : p.IsTaken slot) (hopen : p.closed = false)
    (hwaiting : p.handed.length < p.waiting) :
    ({ p with handed := slot :: p.handed } : SlotPool).Sound ∧
      forall i, ({ p with handed := slot :: p.handed } : SlotPool).IsTaken i ↔
        p.IsTaken i ∧ i ≠ slot := by
  constructor
  · exact
      { chain := h.chain
        handed_nodup := List.nodup_cons.mpr ⟨htaken.2, h.handed_nodup⟩
        handed_inUse := by
          intro i hi
          rcases List.mem_cons.mp hi with heq | hmem
          · rw [heq]
            exact htaken.1
          · exact h.handed_inUse i hmem
        handed_le := hwaiting
        handed_closed := by
          intro hclosed
          rw [hopen] at hclosed
          cases hclosed }
  · intro i
    simp only [IsTaken, List.mem_cons, not_or]
    exact ⟨fun hi => ⟨⟨hi.1, hi.2.2⟩, hi.2.1⟩, fun hi => ⟨hi.1.1, hi.2, hi.1.2⟩⟩

theorem Sound.stack (h : p.Sound) (htaken : p.IsTaken slot) :
    ({ p with chain := p.chain.stack slot } : SlotPool).Sound ∧
      forall i, ({ p with chain := p.chain.stack slot } : SlotPool).IsTaken i ↔
        p.IsTaken i ∧ i ≠ slot := by
  rcases h.chain with ⟨free, hfree⟩
  have hstack := hfree.stack htaken.1
  have hstill : forall i, (p.chain.stack slot).IsInUse i ↔ p.chain.IsInUse i ∧ i ≠ slot := by
    intro i
    rw [hstack.isInUse_iff, hfree.isInUse_iff, SlotChain.capacity_stack, List.mem_cons]
    simp only [not_or]
    exact ⟨fun hi => ⟨⟨hi.1, hi.2.1.2, hi.2.2⟩, hi.2.1.1⟩,
      fun hi => ⟨hi.1.1, ⟨hi.2, hi.1.2.1⟩, hi.1.2.2⟩⟩
  constructor
  · exact
      { chain := ⟨_, hstack⟩
        handed_nodup := h.handed_nodup
        handed_inUse := fun i hi =>
          (hstill i).mpr ⟨h.handed_inUse i hi, fun heq => htaken.2 (heq ▸ hi)⟩
        handed_le := h.handed_le
        handed_closed := h.handed_closed }
  · intro i
    simp only [IsTaken, hstill]
    exact ⟨fun hi => ⟨⟨hi.1.1, hi.2⟩, hi.1.2⟩, fun hi => ⟨⟨hi.1.1, hi.2⟩, hi.1.2⟩⟩

theorem Sound.release (h : p.Sound) (htaken : p.IsTaken slot) :
    exists q, p.release? slot = .ok q ∧ q.Sound ∧ q.capacity = p.capacity ∧
      q.closed = p.closed ∧ forall i, q.IsTaken i ↔ p.IsTaken i ∧ i ≠ slot := by
  rcases h.chain with ⟨free, hfree⟩
  unfold SlotPool.release?
  rw [SlotChain.expectInUse?_of_isInUse hfree htaken.1]
  simp only [bind, Except.bind, List.contains_eq_mem, htaken.2, decide_false,
    Bool.false_eq_true, if_false]
  by_cases hkeep : (!p.closed && decide (p.handed.length < p.waiting)) = true
  · rw [if_pos hkeep]
    simp only [Bool.and_eq_true, Bool.not_eq_true', decide_eq_true_eq] at hkeep
    rcases h.keepAside htaken hkeep.1 hkeep.2 with ⟨hsound, hstill⟩
    exact ⟨_, rfl, hsound, rfl, rfl, hstill⟩
  · rw [if_neg hkeep]
    rcases h.stack htaken with ⟨hsound, hstill⟩
    exact ⟨_, rfl, hsound, SlotChain.capacity_stack .., rfl, hstill⟩

end Release

theorem release?_of_not_isTaken {slot : Nat} (htaken : ¬ p.IsTaken slot) :
    exists fault, p.release? slot = .error fault := by
  unfold SlotPool.release?
  by_cases hinUse : p.chain.IsInUse slot
  · have hhanded : slot ∈ p.handed := by
      by_contra hnot
      exact htaken ⟨hinUse, hnot⟩
    cases hcheck : p.chain.expectInUse? slot with
    | error fault => exact ⟨fault, rfl⟩
    | ok _ => exact ⟨.slotReleasedTwice slot, by simp [bind, Except.bind, hhanded]⟩
  · rcases SlotChain.expectInUse?_of_not_isInUse hinUse with ⟨fault, hfault⟩
    exact ⟨fault, by rw [hfault]; rfl⟩

theorem Sound.release?_eq_error_iff (h : p.Sound) {slot : Nat} :
    (exists fault, p.release? slot = .error fault) ↔ ¬ p.IsTaken slot := by
  constructor
  · intro hfault htaken
    rcases hfault with ⟨fault, hfault⟩
    rcases h.release htaken with ⟨q, hq, _⟩
    rw [hfault] at hq
    cases hq
  · exact release?_of_not_isTaken

theorem Sound.close (h : p.Sound) :
    p.close.Sound ∧ p.close.capacity = p.capacity ∧ p.close.closed = true ∧
      p.close.handed = [] ∧ forall i, p.close.IsTaken i ↔ p.IsTaken i := by
  rcases h.chain with ⟨free, hfree⟩
  rcases hfree.foldl_stack h.handed_nodup h.handed_inUse with ⟨hcapacity, hall⟩
  refine ⟨?_, hcapacity, rfl, rfl, ?_⟩
  · exact
      { chain := ⟨_, hall⟩
        handed_nodup := List.nodup_nil
        handed_inUse := by
          intro i hi
          cases hi
        handed_le := Nat.zero_le _
        handed_closed := fun _ => rfl }
  · intro i
    simp only [IsTaken, SlotPool.close, hall.isInUse_iff, hfree.isInUse_iff, hcapacity,
      List.mem_append, List.mem_reverse, List.not_mem_nil, not_false_eq_true, and_true, not_or]
    exact ⟨fun hi => ⟨⟨hi.1, hi.2.2⟩, hi.2.1⟩, fun hi => ⟨hi.1.1, hi.2, hi.1.2⟩⟩

theorem Sound.taken_add_available_le (h : p.Sound) {slots : List Nat} (hnodup : slots.Nodup)
    (htaken : forall i, i ∈ slots -> p.IsTaken i) :
    slots.length + p.available <= p.capacity := by
  rcases h.chain with ⟨free, hrepresents⟩
  exact hrepresents.inUse_add_free_le hnodup fun i hi => (htaken i hi).1

theorem Sound.available_eq (h : p.Sound) (hhanded : p.handed = [])
    (hidle : forall i, ¬ p.IsTaken i) : p.available = p.capacity := by
  rcases h.chain with ⟨free, hfree⟩
  have hlength := hfree.length_eq fun i hi => hidle i ⟨hi, by simp [hhanded]⟩
  rw [available, hfree.freeLength_eq]
  exact hlength

/-!
## Who waits
-/

/-- A caller that wakes no longer waits, unless it goes on waiting. -/
theorem waiting_wake (h : 0 < p.waiting) :
    p.wake.2.waiting + 1 = p.waiting + (decide (p.wake.1 = .parked)).toNat := by
  cases hhanded : p.handed with
  | cons slot rest =>
      rw [wake_cons hhanded]
      simp only [reduceCtorEq, decide_false, Bool.toNat_false]
      omega
  | nil =>
      cases hclosed : p.closed with
      | true =>
          rw [wake_closed hhanded hclosed]
          simp only [reduceCtorEq, decide_false, Bool.toNat_false]
          omega
      | false =>
          rw [wake_open hhanded hclosed]
          simp

theorem waiting_enter :
    p.enter.2.waiting = p.waiting + (decide (p.enter.1 = .parked)).toNat := by
  have hqueued := waiting_wake (p := { p with waiting := p.waiting + 1 }) (Nat.succ_pos _)
  cases hclosed : p.closed with
  | true =>
      rw [enter_closed hclosed]
      simp
  | false =>
      by_cases hwaiting : p.waiting = 0
      · cases hpop : p.chain.popFree with
        | none =>
            rw [enter_queued hclosed fun _ => hpop]
            simp only at hqueued ⊢
            omega
        | some r =>
            rw [enter_free hclosed hwaiting hpop]
            simp
      · rw [enter_queued hclosed fun heq => absurd heq hwaiting]
        simp only at hqueued ⊢
        omega

theorem waiting_tryAcquire : p.tryAcquire.2.waiting = p.waiting := by
  unfold tryAcquire
  split
  · rfl
  · split <;> rfl

theorem release?_eq {slot : Nat} {q : SlotPool} (h : p.release? slot = .ok q) :
    q.waiting = p.waiting ∧ q.closed = p.closed := by
  unfold release? at h
  cases hcheck : p.chain.expectInUse? slot with
  | error fault =>
      rw [hcheck] at h
      cases h
  | ok _ =>
      rw [hcheck] at h
      simp only [bind, Except.bind] at h
      split at h
      · cases h
      · split at h <;> cases h <;> exact ⟨rfl, rfl⟩

end SlotPool
end AirDefense

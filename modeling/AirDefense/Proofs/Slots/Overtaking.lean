import AirDefense.Proofs.Slots.Conservation

/-!
# Callers that overtake

A slot that is kept aside is meant for a caller that waits, but whoever comes
first picks it up.  A newcomer that does so leaves a caller waiting for whom no
slot is kept aside any more, and the next slot may be free by then.  As long as
no newcomer does so, a free slot means that nobody waits in vain.
-/

namespace AirDefense
namespace PoolUse

/-- A newcomer arrives while a slot is kept aside for somebody. -/
def overtakes (u : PoolUse) : PoolCall -> Bool
  | .enter caller =>
      match u.callers[caller]? with
      | none => false
      | some c => !c.parked && decide (u.pool.handed ≠ [])
  | _ => false

/-- A newcomer overtakes somewhere along the way. -/
def overtaken (u : PoolUse) : List PoolCall -> Bool
  | [] => false
  | call :: rest => u.overtakes call || (u.act call).overtaken rest

end PoolUse

namespace SlotPool

/-- A slot is kept aside for each caller that waits, or else there is none to keep. -/
def Prompt (p : SlotPool) : Prop :=
  p.closed = false -> p.waiting <= p.handed.length ∨ p.chain.free = []

variable {p : SlotPool}

theorem Prompt.free_eq (h : p.Prompt) (hopen : p.closed = false) (hhanded : p.handed = [])
    (hwaiting : 0 < p.waiting) : p.chain.free = [] := by
  rcases h hopen with hle | hfree
  · rw [hhanded, List.length_nil] at hle
    omega
  · exact hfree

theorem prompt_of_waiting_eq (h : p.waiting = 0) : p.Prompt :=
  fun _ => .inl (h ▸ Nat.zero_le _)

theorem Sound.free_eq_nil_iff (h : p.Sound) : p.chain.free = [] ↔ p.chain.popFree = none := by
  rcases h.chain with ⟨free, hfree⟩
  rw [hfree.free_eq]
  cases free with
  | nil =>
      simp [hfree.popFree_nil]
  | cons slot rest =>
      rcases hfree.popFree_cons with ⟨c, hc, _⟩
      simp [hc]

/-!
## The calls that keep a pool prompt
-/

theorem Prompt.wake (h : p.Prompt) : p.wake.2.Prompt := by
  intro hopen
  cases hhanded : p.handed with
  | cons slot rest =>
      rw [wake_cons hhanded] at hopen ⊢
      rcases h hopen with hle | hfree
      · rw [hhanded, List.length_cons] at hle
        left
        simp only
        omega
      · exact .inr hfree
  | nil =>
      cases hclosed : p.closed with
      | true =>
          rw [wake_closed hhanded hclosed] at hopen
          rw [show p.closed = false from hopen] at hclosed
          cases hclosed
      | false =>
          rw [wake_open hhanded hclosed]
          exact h hclosed

theorem Prompt.enter (h : p.Prompt) (hsound : p.Sound) (hhanded : p.handed = []) :
    p.enter.2.Prompt := by
  cases hclosed : p.closed with
  | true =>
      rw [enter_closed hclosed]
      exact h
  | false =>
      have hfull : p.chain.free = [] -> (p.waiting = 0 -> p.chain.popFree = none) ->
          p.enter.2.Prompt := by
        intro hfree hqueue
        rw [enter_queued hclosed hqueue]
        exact Prompt.wake fun _ => .inr hfree
      by_cases hwaiting : p.waiting = 0
      · cases hpop : p.chain.popFree with
        | none =>
            exact hfull (hsound.free_eq_nil_iff.mpr hpop) fun _ => hpop
        | some r =>
            rw [enter_free hclosed hwaiting hpop]
            exact prompt_of_waiting_eq hwaiting
      · exact hfull (h.free_eq hclosed hhanded (Nat.pos_of_ne_zero hwaiting))
          fun heq => absurd heq hwaiting

theorem Prompt.tryAcquire (h : p.Prompt) : p.tryAcquire.2.Prompt := by
  by_cases hwaiting : p.waiting = 0
  · exact prompt_of_waiting_eq (waiting_tryAcquire.trans hwaiting)
  · have hbusy : (p.closed || decide (0 < p.waiting)) = true := by
      simp [Nat.pos_of_ne_zero hwaiting]
    unfold SlotPool.tryAcquire
    rw [if_pos hbusy]
    exact h

/-- A slot becomes free only if one is kept aside for each caller that waits. -/
theorem Prompt.release (h : p.Prompt) {slot : Nat} {q : SlotPool}
    (hq : p.release? slot = .ok q) : q.Prompt := by
  unfold SlotPool.release? at hq
  cases hcheck : p.chain.expectInUse? slot with
  | error fault =>
      rw [hcheck] at hq
      cases hq
  | ok _ =>
      rw [hcheck] at hq
      simp only [bind, Except.bind] at hq
      split at hq
      · cases hq
      · split at hq
        · cases hq
          intro hopen
          rcases h hopen with hle | hfree
          · exact .inl (Nat.le_succ_of_le hle)
          · exact .inr hfree
        · rename_i hkeep
          cases hq
          intro hopen
          simp only at hopen
          simp only [hopen, Bool.not_false, Bool.true_and, decide_eq_true_eq] at hkeep
          exact .inl (Nat.le_of_not_lt hkeep)

end SlotPool

namespace PoolUse

variable {capacity : Nat} {u : PoolUse}

theorem Sound.prompt_act (h : u.Sound capacity) (hprompt : u.pool.Prompt) {call : PoolCall}
    (hcall : u.overtakes call = false) : (u.act call).pool.Prompt := by
  cases call with
  | join => exact hprompt
  | enter caller =>
      cases hc : u.callers[caller]? with
      | none =>
          simpa only [PoolUse.act, hc] using hprompt
      | some c =>
          simp only [PoolUse.act, hc]
          cases hparked : c.parked with
          | true => exact hprompt
          | false =>
              have hhanded : u.pool.handed = [] := by simpa [overtakes, hc, hparked] using hcall
              exact hprompt.enter h.pool hhanded
  | wake caller =>
      simp only [PoolUse.act]
      split
      · exact hprompt
      · split
        · exact hprompt.wake
        · exact hprompt
  | tryAcquire caller =>
      simp only [PoolUse.act]
      split
      · exact hprompt
      · split
        · exact hprompt
        · exact hprompt.tryAcquire
  | release slot =>
      simp only [PoolUse.act]
      split
      · exact hprompt
      · rename_i q hq
        exact hprompt.release hq
  | close =>
      intro hopen
      cases hopen

theorem Sound.prompt_run (h : u.Sound capacity) (hprompt : u.pool.Prompt)
    {calls : List PoolCall} (hcalls : u.overtaken calls = false) :
    (u.run calls).pool.Prompt := by
  induction calls generalizing u with
  | nil => exact hprompt
  | cons call rest ih =>
      rw [overtaken, Bool.or_eq_false_iff] at hcalls
      exact ih (h.act call) (h.prompt_act hprompt hcalls.1) hcalls.2

/--
As long as no newcomer overtakes, a caller waits on an open pool with nothing
kept aside only while no slot is free.
-/
theorem no_slot_idle_beside_parked {capacity : Nat} {p : SlotPool}
    (h : SlotPool.ofCapacity? capacity = .ok p) {calls : List PoolCall}
    (hcalls : (start p).overtaken calls = false) :
    let u := (start p).run calls
    u.pool.closed = false -> u.pool.handed = [] ->
      (exists c, c ∈ u.callers ∧ c.parked = true) -> u.pool.chain.free = [] := by
  intro u hopen hhanded hparked
  have hsound := start_sound h
  have hprompt : u.pool.Prompt := by
    rcases SlotPool.ofCapacity?_sound h with ⟨_, _, hwaiting, _⟩
    exact hsound.prompt_run (SlotPool.prompt_of_waiting_eq hwaiting) hcalls
  have hwaiting : 0 < u.pool.waiting := by
    rw [(hsound.run calls).waiting_eq]
    exact List.countP_pos_iff.mpr hparked
  exact hprompt.free_eq hopen hhanded hwaiting

theorem no_slot_idle_beside_parked_two :
    exists p, SlotPool.ofCapacity? 1 = .ok p ∧
      let calls := [.join, .join, .join, .enter 0, .enter 1, .enter 2, .release 0, .wake 2]
      (start p).overtaken calls = false ∧
        let u := (start p).run calls
        u.pool.closed = false ∧ u.pool.handed = [] ∧
          (exists c, c ∈ u.callers ∧ c.parked = true) ∧ u.pool.chain.free = [] := by
  refine ⟨_, rfl, by decide, by decide, by decide, ?_, ?_⟩
  · exact ⟨⟨true, []⟩, by decide, rfl⟩
  · have h : SlotPool.ofCapacity? 1 = .ok _ := rfl
    exact no_slot_idle_beside_parked h (by decide) (by decide) (by decide)
      ⟨⟨true, []⟩, by decide, rfl⟩

/--
The third caller waits for either of two slots.  The first slot is kept aside for
it and the second, with nobody else waiting, becomes free; a newcomer picks the
first one up, and the third caller waits on beside a free slot.
-/
theorem idle_slot_beside_overtaken :
    exists p, SlotPool.ofCapacity? 2 = .ok p ∧
      let u := (start p).run [.join, .join, .join, .join, .enter 0, .enter 1, .enter 2,
        .release 0, .release 1, .enter 3, .wake 2]
      u.pool.closed = false ∧ u.pool.handed = [] ∧
        u.callers[2]? = some ⟨true, []⟩ ∧ u.pool.chain.free = [1] := by
  refine ⟨_, rfl, ?_⟩
  decide

end PoolUse
end AirDefense

import AirDefense.Proofs.Faults
import AirDefense.Proofs.Slots.Overtaking

/-!
# Where a slot that is kept aside goes

A slot is kept aside on behalf of those that wait when it is given back.  Unless a
newcomer overtakes, nobody begins to wait as long as the slot is there, and whoever
picks it up has waited since.
-/

namespace AirDefense

namespace SlotPool

variable {p : SlotPool}

theorem handed_tryAcquire : p.tryAcquire.2.handed = p.handed := by
  unfold tryAcquire
  split
  · rfl
  · split <;> rfl

theorem handed_release? {slot : Nat} {q : SlotPool} (h : p.release? slot = .ok q) :
    q.handed = p.handed ∨ q.handed = slot :: p.handed := by
  rcases bind_eq_ok.mp h with ⟨_, _, h⟩
  split at h
  · cases h
  · split at h
    · cases h
      exact .inr rfl
    · cases h
      exact .inl rfl

end SlotPool

namespace PoolUse

def IsParked (u : PoolUse) (caller : Nat) : Prop :=
  exists c, u.callers[caller]? = some c ∧ c.parked = true

/-- `P` holds before, between and after the calls. -/
def Throughout (P : PoolUse -> Prop) (u : PoolUse) : List PoolCall -> Prop
  | [] => P u
  | call :: rest => P u ∧ (u.act call).Throughout P rest

instance decidableThroughout (P : PoolUse -> Prop) [DecidablePred P] :
    (u : PoolUse) -> (calls : List PoolCall) -> Decidable (u.Throughout P calls)
  | u, [] => inferInstanceAs (Decidable (P u))
  | u, call :: rest =>
      have : Decidable ((u.act call).Throughout P rest) :=
        decidableThroughout P (u.act call) rest
      inferInstanceAs (Decidable (P u ∧ (u.act call).Throughout P rest))

variable {capacity : Nat} {u v : PoolUse} {P : PoolUse -> Prop} {call : PoolCall}
  {calls : List PoolCall} {slot caller : Nat}

theorem Throughout.first (h : u.Throughout P calls) : P u := by
  cases calls with
  | nil => exact h
  | cons call rest => exact h.1

theorem Throughout.last (h : u.Throughout P calls) : P (u.run calls) := by
  induction calls generalizing u with
  | nil => exact h
  | cons call rest ih => exact ih h.2

/-!
## Who waits while a slot is kept aside
-/

theorem isParked_congr (h : u.callers.map SlotCaller.parked = v.callers.map SlotCaller.parked) :
    u.IsParked caller ↔ v.IsParked caller := by
  have hview : forall w : PoolUse,
      w.IsParked caller ↔ (w.callers.map SlotCaller.parked)[caller]? = some true := by
    intro w
    rw [List.getElem?_map, Option.map_eq_some_iff]
    exact Iff.rfl
  rw [hview, hview, h]

theorem map_parked_set {callers : List SlotCaller} {c d : SlotCaller}
    (hc : callers[caller]? = some c) (hd : d.parked = c.parked) :
    (callers.set caller d).map SlotCaller.parked = callers.map SlotCaller.parked := by
  rcases List.getElem?_eq_some_iff.mp hc with ⟨hlt, hget⟩
  rw [List.map_set, hd, ← hget, ← List.getElem_map SlotCaller.parked, List.set_getElem_self]
  rw [List.length_map]
  exact hlt

theorem isParked_release : (u.act (.release slot)).IsParked caller ↔ u.IsParked caller := by
  apply isParked_congr
  simp only [act]
  split
  · rfl
  · rw [List.map_map]
    rfl

/-- Only a newcomer that overtakes begins to wait while a slot is kept aside. -/
theorem isParked_of_act (hcall : u.overtakes call = false) (hhanded : u.pool.handed ≠ [])
    (h : (u.act call).IsParked caller) : u.IsParked caller := by
  cases call with
  | join =>
      rcases h with ⟨c, hc, hparked⟩
      rcases getElem?_concat_cases hc with hold | ⟨_, hnew⟩
      · exact ⟨c, hold, hparked⟩
      · rw [hnew] at hparked
        cases hparked
  | enter i =>
      cases hi : u.callers[i]? with
      | none => simpa only [act, hi] using h
      | some c =>
          have hparked : c.parked = true := by simpa [overtakes, hi, hhanded] using hcall
          simpa only [act, hi, hparked, if_true] using h
  | wake i =>
      cases hi : u.callers[i]? with
      | none => simpa only [act, hi] using h
      | some c =>
          simp only [act, hi] at h
          split at h
          · rename_i hparked
            rcases h with ⟨d, hd, hwaits⟩
            rcases getElem?_set_cases hd with ⟨heq, _⟩ | ⟨_, hold⟩
            · exact ⟨c, heq ▸ hi, hparked⟩
            · exact ⟨d, hold, hwaits⟩
          · exact h
  | tryAcquire i =>
      cases hi : u.callers[i]? with
      | none => simpa only [act, hi] using h
      | some c =>
          simp only [act, hi] at h
          split at h
          · exact h
          · refine (isParked_congr ?_).mp h
            exact map_parked_set hi rfl
  | release slot => exact isParked_release.mp h
  | close => exact h

theorem throughout_isParked (hcalls : u.overtaken calls = false)
    (hkept : u.Throughout (fun v => slot ∈ v.pool.handed) calls)
    (h : (u.run calls).IsParked caller) : u.Throughout (IsParked · caller) calls := by
  induction calls generalizing u with
  | nil => exact h
  | cons call rest ih =>
      rw [overtaken, Bool.or_eq_false_iff] at hcalls
      have hrest := ih hcalls.2 hkept.2 h
      exact ⟨isParked_of_act hcalls.1 (List.ne_nil_of_mem hkept.1) hrest.first, hrest⟩

theorem Sound.exists_isParked (h : u.Sound capacity) (hslot : slot ∈ u.pool.handed) :
    exists caller, u.IsParked caller := by
  have hpos : 0 < u.callers.countP SlotCaller.parked := by
    rw [← h.waiting_eq]
    exact Nat.lt_of_lt_of_le (List.length_pos_of_mem hslot) h.pool.handed_le
  rcases List.countP_pos_iff.mp hpos with ⟨c, hc, hparked⟩
  rcases List.getElem?_of_mem hc with ⟨caller, hcaller⟩
  exact ⟨caller, c, hcaller, hparked⟩

/-!
## Who picks the slot up
-/

theorem takes_kept_slot (hcall : u.overtakes call = false) (hslot : slot ∈ u.pool.handed)
    (hgone : slot ∉ (u.act call).pool.handed) (hopen : (u.act call).pool.closed = false) :
    exists caller c, call = .wake caller ∧ u.IsParked caller ∧
      (u.act call).callers[caller]? = some c ∧ slot ∈ c.held := by
  cases call with
  | join => exact absurd hslot hgone
  | enter i =>
      cases hi : u.callers[i]? with
      | none =>
          simp only [act, hi] at hgone
          exact absurd hslot hgone
      | some c =>
          have hparked : c.parked = true := by
            simpa [overtakes, hi, List.ne_nil_of_mem hslot] using hcall
          simp only [act, hi, hparked, if_true] at hgone
          exact absurd hslot hgone
  | wake i =>
      cases hi : u.callers[i]? with
      | none =>
          simp only [act, hi] at hgone
          exact absurd hslot hgone
      | some c =>
          simp only [act, hi] at hgone ⊢
          cases hparked : c.parked with
          | false =>
              simp only [hparked, Bool.false_eq_true, if_false] at hgone
              exact absurd hslot hgone
          | true =>
              simp only [hparked, if_true, answer] at hgone ⊢
              cases hhanded : u.pool.handed with
              | nil =>
                  rw [hhanded] at hslot
                  cases hslot
              | cons first rest =>
                  rw [SlotPool.wake_cons hhanded] at hgone ⊢
                  rw [hhanded] at hslot
                  have hfirst : slot = first :=
                    (List.mem_cons.mp hslot).resolve_right hgone
                  refine ⟨i, _, rfl, ⟨c, hi, hparked⟩,
                    List.getElem?_set_self (List.getElem?_eq_some_iff.mp hi).1, ?_⟩
                  rw [hfirst]
                  exact List.mem_cons_self ..
  | tryAcquire i =>
      simp only [act] at hgone
      split at hgone
      · exact absurd hslot hgone
      · split at hgone
        · exact absurd hslot hgone
        · rw [SlotPool.handed_tryAcquire] at hgone
          exact absurd hslot hgone
  | release i =>
      simp only [act] at hgone
      split at hgone
      · exact absurd hslot hgone
      · rename_i q hq
        rcases SlotPool.handed_release? hq with heq | heq
        · exact absurd (heq ▸ hslot) hgone
        · exact absurd (heq ▸ List.mem_cons_of_mem i hslot) hgone
  | close => cases hopen

/--
As long as no newcomer overtakes, a slot that is kept aside when it is given back stays
with those that waited then: at any time somebody waits for it, everybody that waits
has waited since it was given back, and one of them picks it up.
-/
theorem kept_slot_goes_to_waiter {capacity : Nat} {p : SlotPool}
    (h : SlotPool.ofCapacity? capacity = .ok p) (before later : List PoolCall) (slot : Nat) :
    let u := (start p).run before
    let v := u.act (.release slot)
    v.overtaken later = false -> v.Throughout (fun x => slot ∈ x.pool.handed) later ->
      let x := v.run later
      (exists caller, x.IsParked caller) ∧
        (forall caller, x.IsParked caller ->
          u.IsParked caller ∧ v.Throughout (IsParked · caller) later) ∧
        forall call, x.overtakes call = false -> slot ∉ (x.act call).pool.handed ->
          (x.act call).pool.closed = false ->
          exists caller c, call = .wake caller ∧ x.IsParked caller ∧
            (x.act call).callers[caller]? = some c ∧ slot ∈ c.held := by
  intro u v hcalls hkept x
  have hsound : x.Sound capacity := (((start_sound h).run before).act _).run later
  refine ⟨hsound.exists_isParked hkept.last, ?_, ?_⟩
  · intro caller hparked
    have hall := throughout_isParked hcalls hkept hparked
    exact ⟨isParked_release.mp hall.first, hall⟩
  · exact fun call hcall hgone hopen => takes_kept_slot hcall hkept.last hgone hopen

theorem kept_slot_goes_to_waiter_two :
    exists p, SlotPool.ofCapacity? 2 = .ok p ∧
      let u := (start p).run [.join, .join, .join, .join, .enter 0, .enter 1, .enter 2, .enter 3]
      let v := u.act (.release 1)
      let later := [.release 0, .wake 2]
      v.overtaken later = false ∧ v.Throughout (fun x => 1 ∈ x.pool.handed) later ∧
        let x := v.run later
        x.overtakes (.wake 3) = false ∧ 1 ∉ (x.act (.wake 3)).pool.handed ∧
          (x.act (.wake 3)).pool.closed = false ∧
          exists caller c, PoolCall.wake 3 = .wake caller ∧ x.IsParked caller ∧
            (x.act (.wake 3)).callers[caller]? = some c ∧ 1 ∈ c.held := by
  have h : SlotPool.ofCapacity? 2 = .ok _ := rfl
  refine ⟨_, h, by decide, by decide, by decide, by decide, by decide, ?_⟩
  exact (kept_slot_goes_to_waiter h
    [.join, .join, .join, .join, .enter 0, .enter 1, .enter 2, .enter 3] [.release 0, .wake 2] 1
    (by decide) (by decide)).2.2 _ (by decide) (by decide) (by decide)

/--
The second caller waits for the only slot, which is kept aside for it as the first one
gives it back.  A third caller comes, takes the slot, and the second one waits on.
-/
theorem newcomer_takes_kept_slot :
    exists p, SlotPool.ofCapacity? 1 = .ok p ∧
      let u := (start p).run [.join, .join, .join, .enter 0, .enter 1]
      let v := u.act (.release 0)
      u.callers[1]? = some ⟨true, []⟩ ∧ u.callers[2]? = some ⟨false, []⟩ ∧
        v.pool.handed = 0 :: u.pool.handed ∧
        let x := v.run [.enter 2, .wake 1]
        x.pool.closed = false ∧ x.callers[2]? = some ⟨false, [0]⟩ ∧
          x.callers[1]? = some ⟨true, []⟩ := by
  refine ⟨_, rfl, ?_⟩
  decide

end PoolUse
end AirDefense

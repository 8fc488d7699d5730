import AirDefense.Proofs.Field.LockLines

/-!
# The order at the field lock

Callers of a tier return from the lock in the order in which they began to wait.  At
any time those that are due to return are the owner, unless it has returned, and then
the line; whoever begins to wait is due last, and whoever returns was due first.
-/

namespace AirDefense

def LockCall.caller? : LockCall -> Option Nat
  | join => none
  | acquire caller _ => some caller
  | wake caller => some caller
  | release caller _ => some caller

/-- The caller of a step, if the step took it from `a` to `b`. -/
def LockCall.turns (call : LockCall) (a b : LockStand) (before after : List LockStand) :
    List Nat :=
  call.caller?.toList.filter fun i => before[i]? = some a ∧ after[i]? = some b

namespace LineUse

/-- The callers of tier `t` that are to return next: the owner, unless it has, and the line. -/
def due (q : LineUse) (t : Tier) : List Nat :=
  (q.lock.owner.toList.filter fun i => q.callers[i]? = some (.waiting t)) ++ q.lock.lines.get t

structure Sound (q : LineUse) : Prop where
  owner : forall i : Nat, q.lock.owner = some i ->
    exists s, q.callers[i]? = some s ∧ s ≠ .outside
  holding : forall (i : Nat) t, q.callers[i]? = some (.holding t) -> q.lock.owner = some i
  waiting : forall (t : Tier) (i : Nat), i ∈ q.lock.lines.get t ->
    q.callers[i]? = some (.waiting t)

variable {q : LineUse} {caller : Nat} {s s' a b : LockStand} {t : Tier}

theorem turns_eq {call : LockCall} {after : List LockStand} (hcall : call.caller? = some caller)
    (hs : q.callers[caller]? = some s) (hs' : after[caller]? = some s') :
    call.turns a b q.callers after = if s = a ∧ s' = b then [caller] else [] := by
  simp only [LockCall.turns, hcall, Option.toList_some, List.filter_cons, List.filter_nil, hs, hs',
    Option.some.injEq, decide_eq_true_eq]

theorem turns_self {call : LockCall} (hne : a ≠ b) :
    call.turns a b q.callers q.callers = [] := by
  apply List.filter_eq_nil_iff.mpr
  intro i _ hturns
  rcases of_decide_eq_true hturns with ⟨ha, hb⟩
  exact hne (Option.some.inj (ha.symm.trans hb))

theorem due_of_free {lock : LockLines} {callers : List LockStand} (howner : lock.owner = none) :
    (LineUse.mk lock callers).due t = lock.lines.get t := by
  rw [due, howner]
  rfl

theorem due_of_owned {lock : LockLines} {callers : List LockStand}
    (howner : lock.owner = some caller) (hs : callers[caller]? = some s) :
    (LineUse.mk lock callers).due t =
      (if s = .waiting t then [caller] else []) ++ lock.lines.get t := by
  simp only [due, howner, Option.toList_some, List.filter_cons, List.filter_nil, hs,
    Option.some.injEq, decide_eq_true_eq]

theorem due_still (q : LineUse) (call : LockCall) (t : Tier) :
    q.due t ++ call.turns .outside (.waiting t) q.callers q.callers =
      call.turns (.waiting t) (.holding t) q.callers q.callers ++ q.due t := by
  rw [turns_self (a := .outside) (b := .waiting t) nofun,
    turns_self (a := .waiting t) (b := .holding t) nofun, List.append_nil, List.nil_append]

theorem Sound.due_acquire (h : q.Sound) (caller : Nat) (r t : Tier) :
    let call := LockCall.acquire caller r
    q.due t ++ call.turns .outside (.waiting t) q.callers (q.act call).callers =
      call.turns (.waiting t) (.holding t) q.callers (q.act call).callers ++
        (q.act call).due t := by
  intro call
  simp only [call, LineUse.act]
  split
  · rename_i hs
    have hset : forall s, (q.callers.set caller s)[caller]? = some s :=
      fun s => List.getElem?_set_self (List.getElem?_eq_some_iff.mp hs).1
    simp only [LockLines.enter]
    cases howner : q.lock.owner with
    | none =>
        rw [due_of_free howner, due_of_owned rfl (hset _), turns_eq rfl hs (hset _),
          turns_eq rfl hs (hset _)]
        simp
    | some o =>
        rcases h.owner o howner with ⟨s, ho, hne⟩
        have hother : caller ≠ o := by
          rintro rfl
          rw [hs] at ho
          exact hne (Option.some.inj ho).symm
        have ho' : (q.callers.set caller (.waiting r))[o]? = some s := by
          rw [List.getElem?_set_ne hother, ho]
        simp only [reduceCtorEq, if_false]
        rw [due_of_owned howner ho, due_of_owned rfl ho', turns_eq rfl hs (hset _),
          turns_eq rfl hs (hset _), PerTier.get_modify]
        by_cases ht : t = r
        · simp [ht]
        · simp [ht, Ne.symm ht]
  · exact q.due_still _ t

theorem due_wake (q : LineUse) (caller : Nat) (t : Tier) :
    let call := LockCall.wake caller
    q.due t ++ call.turns .outside (.waiting t) q.callers (q.act call).callers =
      call.turns (.waiting t) (.holding t) q.callers (q.act call).callers ++
        (q.act call).due t := by
  intro call
  simp only [call, LineUse.act]
  split
  · rename_i r hs
    have hset : (q.callers.set caller (.holding r))[caller]? = some (.holding r) :=
      List.getElem?_set_self (List.getElem?_eq_some_iff.mp hs).1
    split
    · rename_i howner
      rw [due_of_owned howner hs, due_of_owned howner hset, turns_eq rfl hs hset,
        turns_eq rfl hs hset]
      by_cases ht : r = t
      · simp [ht]
      · simp [ht]
    · exact q.due_still _ t
  · exact q.due_still _ t

theorem Sound.due_release (h : q.Sound) (caller : Nat) (r t : Tier) :
    let call := LockCall.release caller r
    q.due t ++ call.turns .outside (.waiting t) q.callers (q.act call).callers =
      call.turns (.waiting t) (.holding t) q.callers (q.act call).callers ++
        (q.act call).due t := by
  intro call
  simp only [call, LineUse.act]
  split
  · rename_i held hs
    have hset : (q.callers.set caller .outside)[caller]? = some .outside :=
      List.getElem?_set_self (List.getElem?_eq_some_iff.mp hs).1
    rw [due_of_owned (h.holding caller held hs) hs, turns_eq rfl hs hset, turns_eq rfl hs hset]
    simp only [reduceCtorEq, false_and, if_false, List.append_nil, List.nil_append,
      LockLines.leave]
    rcases q.lock.pass_cases [.ofIndex (r.index + 1), .ofIndex (r.index + 2), r] with
      hnobody | ⟨next, first, behind, hline, hfirst⟩
    · rw [hnobody, due_of_free rfl]
    · have hwaits := h.waiting next first (hline ▸ List.mem_cons_self ..)
      have hother : caller ≠ first := by
        rintro rfl
        rw [hs] at hwaits
        cases hwaits
      have hwaits' : (q.callers.set caller .outside)[first]? = some (.waiting next) := by
        rw [List.getElem?_set_ne hother, hwaits]
      rw [hfirst, due_of_owned rfl hwaits', PerTier.get_set]
      by_cases ht : t = next
      · simp [ht, hline]
      · simp [ht, Ne.symm ht]
  · exact q.due_still _ t

/-- Who begins to wait is due last, and who returns was due first. -/
theorem Sound.due_act (h : q.Sound) (call : LockCall) (t : Tier) :
    q.due t ++ call.turns .outside (.waiting t) q.callers (q.act call).callers =
      call.turns (.waiting t) (.holding t) q.callers (q.act call).callers ++
        (q.act call).due t := by
  cases call with
  | join =>
      have hnobody : forall a b after, LockCall.join.turns a b q.callers after = [] :=
        fun _ _ _ => rfl
      rw [hnobody, hnobody, List.append_nil, List.nil_append]
      simp only [LineUse.act]
      cases howner : q.lock.owner with
      | none => rw [due_of_free howner, due_of_free howner]
      | some i =>
          rcases h.owner i howner with ⟨s, hs, _⟩
          have hs' : (q.callers ++ [LockStand.outside])[i]? = some s := by
            rw [List.getElem?_append_left (List.getElem?_eq_some_iff.mp hs).1, hs]
          rw [due_of_owned howner hs, due_of_owned howner hs']
  | acquire caller r => exact h.due_acquire caller r t
  | wake caller => exact q.due_wake caller t
  | release caller r => exact h.due_release caller r t

end LineUse

namespace LockUse

variable {u : LockUse} {q : LineUse}

def turning (a b : LockStand) : LockUse -> List LockCall -> List Nat
  | _, [] => []
  | u, call :: rest =>
      call.turns a b (u.callers.map LockCaller.stand) ((u.act call).callers.map LockCaller.stand) ++
        turning a b (u.act call) rest

/-- The callers that begin to wait at tier `t`. -/
def parkings (t : Tier) (u : LockUse) (calls : List LockCall) : List Nat :=
  turning .outside (.waiting t) u calls

/-- The callers that return from a wait at tier `t`. -/
def returns (t : Tier) (u : LockUse) (calls : List LockCall) : List Nat :=
  turning (.waiting t) (.holding t) u calls

theorem Refines.sound (hr : u.Refines q) : q.Sound where
  owner := by
    intro i hi
    rcases (hr.owner i).mp hi with ⟨c, hc, howns⟩
    refine ⟨c.stand, hr.stand_eq hc, ?_⟩
    cases c with
    | outside => cases howns
    | parked ticket => nofun
    | holding held => nofun
  holding := by
    intro i t hi
    rw [hr.callers, List.getElem?_map] at hi
    rcases Option.map_eq_some_iff.mp hi with ⟨c, hc, hstand⟩
    cases c with
    | outside => cases hstand
    | parked ticket => cases hstand
    | holding held => exact hr.owner_eq hc
  waiting := by
    intro t i hi
    rcases List.getElem?_of_mem hi with ⟨k, hk⟩
    rcases (hr.line t k i).mp hk with ⟨since, hc⟩
    exact hr.stand_eq hc

theorem Refines.due_run (hr : u.Refines q) (h : u.Sound) (calls : List LockCall) (t : Tier) :
    q.due t ++ parkings t u calls = returns t u calls ++ (q.run calls).due t := by
  induction calls generalizing u q with
  | nil => simp [parkings, returns, turning, LineUse.run]
  | cons call rest ih =>
      have hnext := hr.act h call
      have hstep := hr.sound.due_act call t
      rw [hr.callers, hnext.callers] at hstep
      calc q.due t ++ parkings t u (call :: rest)
          = (q.due t ++ call.turns .outside (.waiting t) (u.callers.map LockCaller.stand)
              ((u.act call).callers.map LockCaller.stand)) ++ parkings t (u.act call) rest := by
            rw [List.append_assoc]; rfl
        _ = call.turns (.waiting t) (.holding t) (u.callers.map LockCaller.stand)
              ((u.act call).callers.map LockCaller.stand) ++
            ((q.act call).due t ++ parkings t (u.act call) rest) := by
            rw [hstep, List.append_assoc]
        _ = returns t u (call :: rest) ++ (q.run (call :: rest)).due t := by
            rw [ih hnext (h.act call), ← List.append_assoc]; rfl

/--
The lock serves its callers as an owner and three lines would, step by step.  A caller
takes the lock just when it has no owner, and returns from a wait just when it was given
the lock; a release gives the lock to the first in the next line round; and the callers
of a tier return in the order in which they began to wait.
-/
theorem lock_refines_lines (calls : List LockCall) :
    let u := start.run calls
    let q := LineUse.start.run calls
    q.callers = u.callers.map LockCaller.stand ∧
      (forall i : Nat, q.lock.owner = some i ↔
        exists c, u.callers[i]? = some c ∧ c.owns u.lock.served = true) ∧
      (forall t i, i ∈ q.lock.lines.get t ↔ exists ticket,
        u.callers[i]? = some (.parked ticket) ∧ ticket.tier = t ∧
          u.lock.served.get t <= ticket.number) ∧
      (forall (caller : Nat) t, u.callers[caller]? = some .outside ->
        ((u.act (.acquire caller t)).callers[caller]? = some (.holding t) ↔
          q.lock.owner = none)) ∧
      (forall (caller : Nat) ticket, u.callers[caller]? = some (.parked ticket) ->
        ((u.act (.wake caller)).callers[caller]? = some (.holding ticket.tier) ↔
          q.lock.owner = some caller)) ∧
      (forall (caller : Nat) held t, u.callers[caller]? = some (.holding held) ->
        q.lock.owner = some caller ∧
          (q.act (.release caller t)).lock = q.lock.leave t) ∧
      u.lock.handoffs = q.lock.grants ∧
      forall t, parkings t start calls = returns t start calls ++ q.due t := by
  intro u q
  have h : u.Sound := start_sound.run calls
  have hr : u.Refines q := start_refines.run start_sound calls
  refine ⟨hr.callers, hr.owner, ?_, ?_, ?_, ?_, hr.grants.symm, ?_⟩
  · intro t i
    constructor
    · intro hi
      rcases List.getElem?_of_mem hi with ⟨k, hk⟩
      rcases (hr.line t k i).mp hk with ⟨since, hc⟩
      exact ⟨_, hc, rfl, Nat.le_add_right _ _⟩
    · rintro ⟨⟨tier, number, since⟩, hc, htier, hle⟩
      simp only at htier hle
      subst htier
      refine List.mem_of_getElem? ((hr.line tier (number - u.lock.served.get tier) i).mpr
        ⟨since, ?_⟩)
      rw [hc, Nat.add_sub_cancel' hle]
  · intro caller t hc
    have hlt := (List.getElem?_eq_some_iff.mp hc).1
    rw [hr.owner_eq_none_iff h]
    by_cases hidle : u.lock.holders = 0
    · simp only [LockUse.act, hc, h.enter_free hidle, List.getElem?_set_self hlt, hidle]
    · simp only [LockUse.act, hc, enter_busy hidle, List.getElem?_set_self hlt, hidle]
      simp
  · intro caller ticket hc
    have hlt := (List.getElem?_eq_some_iff.mp hc).1
    rw [hr.owner_iff hc]
    by_cases hserved : ticket.number < u.lock.served.get ticket.tier
    · simp only [LockUse.act, hc, FieldLock.wake, if_neg (Nat.not_le.mpr hserved),
        List.getElem?_set_self hlt, LockCaller.owns, hserved, decide_true]
    · simp only [LockUse.act, hc, FieldLock.wake, if_pos (Nat.le_of_not_lt hserved),
        LockCaller.owns, hserved]
      simp
  · intro caller held t hc
    refine ⟨hr.owner_eq hc, ?_⟩
    simp only [LineUse.act, hr.stand_eq hc, LockCaller.stand]
  · intro t
    have hdue := start_refines.due_run start_sound calls t
    have hnobody : LineUse.start.due t = [] := by cases t <;> rfl
    rwa [hnobody, List.nil_append] at hdue

end LockUse
end AirDefense

import AirDefense.Proofs.Engagement.Endings

/-!
# Slots that go round

A step of a task leaves all slots where they are, takes one, or gives one back.  So a
slot that is out is with some task, unless a task broke off, and once the admission
queue or the pool is closed nothing opens it again.
-/

namespace AirDefense

def World.supplies (w : World) : AdmissionQueue × SlotPool := (w.admission, w.pool)

theorem World.isTaken_of_supplies {w w' : World} (h : w'.supplies = w.supplies) (seat : Seat) :
    w'.IsTaken seat ↔ w.IsTaken seat := by
  injection h with hadmission hpool
  unfold IsTaken
  rw [hadmission, hpool]

namespace Charge

/--
What a step that leaves its task with `fault?` does to the slots.  A task that breaks
off keeps its slot to itself.
-/
structure Trades (w : World) (fault? : Option Fault) (c c' : Charge) (w' : World) : Prop where
  gained : forall seat, w'.IsTaken seat -> w.IsTaken seat ∨ c'.seat? = some seat
  given : fault? = none -> forall seat, c.seat? = some seat ->
    c'.seat? = some seat ∨ ¬ w'.IsTaken seat
  shut : w.admission.IsShut -> w'.admission.IsShut
  closed : w.pool.closed = true -> w'.pool.closed = true
  capacity : forall side, w'.slotCapacity side = w.slotCapacity side

variable {w w' : World} {c c' : Charge} {fault? : Option Fault}

theorem trades_of_supplies (h : w'.supplies = w.supplies)
    (hseat : fault? = none -> c'.seat? = c.seat?) : Trades w fault? c c' w' := by
  have htaken := World.isTaken_of_supplies h
  injection h with hadmission hpool
  exact
    { gained := fun seat hseat => .inl ((htaken seat).mp hseat)
      given := fun hfault seat hbefore => .inl ((hseat hfault).trans hbefore)
      shut := fun hshut => hadmission ▸ hshut
      closed := fun hclosed => hpool ▸ hclosed
      capacity := by
        intro side
        unfold World.slotCapacity
        rw [hadmission, hpool] }

theorem trades_self (h : w'.supplies = w.supplies) : Trades w fault? c c w' :=
  trades_of_supplies h fun _ => rfl

theorem trades_of_broken {fault : Fault} (h : w'.supplies = w.supplies) :
    Trades w (some fault) c c' w' :=
  trades_of_supplies h fun hnone => absurd hnone (Option.some_ne_none fault)

theorem trades_admission (hw : w.Sound) {slot? : Option Nat} {q : AdmissionQueue}
    (hserves : w.admission.Serves slot? q) (hshut : w.admission.IsShut -> q.IsShut) :
    Trades w fault? nothing (ofSeat? (slot?.map (Seat.mk .attacker)))
      { w with admission := q } :=
  { gained := by
      intro seat hseat
      rw [seat?_ofSeat?]
      exact ((hw.grants_admission hserves).takes.2 seat).mp hseat
    given := fun _ seat hseat => by cases hseat
    shut := hshut
    closed := fun hclosed => hclosed
    capacity := by
      intro side
      cases side with
      | attacker => exact hserves.capacity_eq
      | defender => rfl }

theorem trades_pool (hw : w.Sound) {slot? : Option Nat} {p : SlotPool}
    (hserves : w.pool.Serves slot? p) :
    Trades w fault? nothing (ofSeat? (slot?.map (Seat.mk .defender))) { w with pool := p } :=
  { gained := by
      intro seat hseat
      rw [seat?_ofSeat?]
      exact ((hw.grants_pool hserves).takes.2 seat).mp hseat
    given := fun _ seat hseat => by cases hseat
    shut := fun hshut => hshut
    closed := fun hclosed => hserves.closed_eq.trans hclosed
    capacity := by
      intro side
      cases side with
      | attacker => rfl
      | defender => exact hserves.capacity_eq }

theorem trades_return (hw : w.Sound) {seat : Seat} (hc : (slot seat).Sound w)
    (hreturn : w.returnSlot? seat.side seat.slot = .ok w') :
    Trades w fault? (slot seat) nothing w' := by
  have htaken := hw.isTaken_returnSlot? hc.1 hreturn
  have hgained : forall other, w'.IsTaken other -> w.IsTaken other ∨ nothing.seat? = some other :=
    fun other hother => .inl ((htaken other).mp hother).1
  have hgiven : fault? = none -> forall other, (slot seat).seat? = some other ->
      nothing.seat? = some other ∨ ¬ w'.IsTaken other := by
    intro _ other hother
    injection hother with hother
    exact .inr fun hstill => ((htaken other).mp hstill).2 hother.symm
  rcases seat with ⟨side, i⟩
  cases side with
  | attacker =>
      rcases hw.admission.release hc.1 with ⟨q, hq, _, hcapacity, _⟩
      rcases bind_eq_ok.mp hreturn with ⟨r, hr, heq⟩
      cases hq.symm.trans hr
      cases pure_eq_ok.mp heq
      exact
        { gained := hgained
          given := hgiven
          shut := fun hshut => hshut.isShut_release hq
          closed := fun hclosed => hclosed
          capacity := fun side => by
            cases side with
            | attacker => exact hcapacity
            | defender => rfl }
  | defender =>
      rcases hw.pool.release hc.1 with ⟨p, hp, _, hcapacity, hclosed, _⟩
      rcases bind_eq_ok.mp hreturn with ⟨r, hr, heq⟩
      cases hp.symm.trans hr
      cases pure_eq_ok.mp heq
      exact
        { gained := hgained
          given := hgiven
          shut := fun hshut => hshut
          closed := fun h => hclosed.trans h
          capacity := fun side => by
            cases side with
            | attacker => rfl
            | defender => exact hcapacity }

theorem Follows.seat?_eq (h : Follows w c c') (hc : forall seat, c ≠ slot seat) :
    c'.seat? = c.seat? := by
  cases c with
  | nothing =>
      cases c' with
      | nothing => rfl
      | slot seat | missile seat id place => cases h
  | slot seat => exact absurd rfl (hc seat)
  | missile seat id place =>
      cases c' with
      | nothing => cases h
      | slot seat' => exact congrArg some h
      | missile seat' id' place' => exact congrArg some h.1

end Charge

/-!
## Steps of the launchers
-/

section Launchers

variable {w : World} {c : Conditions}

theorem AttackLauncher.step_trades {l : AttackLauncher} (hw : w.Sound) (hc : l.charge.Sound w)
    (hstarts : l.starts? c = none) :
    Charge.Trades w (Task.attack (l.step c w).1).fault? l.charge (l.step c w).1.charge
      (l.step c w).2 := by
  cases l with
  | idle | drawn slot =>
      simp only [step]
      split <;> exact Charge.trades_self rfl
  | drawing =>
      simp only [step, charge_take]
      exact Charge.trades_admission hw hw.admission.enter fun h => h.isShut_enter hw.admission
  | parked =>
      simp only [step, charge_take]
      exact Charge.trades_admission hw hw.admission.wake fun h => h.isShut_wake hw.admission
  | armed slot =>
      simp only [step, World.drawAttacker]
      cases (Draw.attacker w.settings.field w.settings.attacker w.stream).1 with
      | ok m => exact Charge.trades_self rfl
      | error fault => exact Charge.trades_of_broken rfl
  | loaded slot m =>
      simp only [step]
      split
      · rename_i id w' hspawn
        rcases World.spawn?_eq_ok hspawn with ⟨a, ha, heq⟩
        rw [heq]
        refine Charge.trades_of_supplies rfl fun _ => ?_
        simp only [charge, Charge.seat?, (Arena.spawn?_eq_ok ha).2.1]
      · exact Charge.trades_of_broken rfl
  | launching id =>
      cases haccepting : c.accepting with
      | true =>
          rw [starts?, haccepting] at hstarts
          cases hstarts
      | false =>
          simp only [step, haccepting]
          exact Charge.trades_of_supplies rfl fun _ => rfl
  | retreating id =>
      simp only [step]
      split
      · rename_i m w' hvacate
        rcases World.vacate?_eq_ok hvacate with ⟨a, _, heq⟩
        rw [heq]
        exact Charge.trades_of_supplies rfl fun _ => rfl
      · exact Charge.trades_of_broken rfl
  | returning slot =>
      simp only [step]
      split
      · rename_i w' hreturn
        exact Charge.trades_return hw hc hreturn
      · exact Charge.trades_of_broken rfl
  | cooling | ended | broken fault => exact Charge.trades_self rfl

theorem Attempt.step_trades {a : Attempt} (hw : w.Sound) (hc : a.charge.Sound w)
    (hstarts : a.starts? c = none) :
    Charge.Trades w (Task.defence (.afterAttempt (a.step c w).1)).fault? a.charge
      (a.step c w).1.charge (a.step c w).2 := by
  cases a with
  | seeking =>
      simp only [step, charge_take]
      exact Charge.trades_pool hw hw.pool.enter
  | queued =>
      simp only [step, charge_take]
      exact Charge.trades_pool hw hw.pool.wake
  | equipped slot =>
      simp only [step, reserve]
      split
      · rename_i id w' hspawn
        rcases World.spawn?_eq_ok hspawn with ⟨arena, harena, heq⟩
        rw [heq]
        refine Charge.trades_of_supplies rfl fun _ => ?_
        simp only [charge, Charge.seat?, (Arena.spawn?_eq_ok harena).2.1]
      · exact Charge.trades_of_broken rfl
  | reserved id =>
      simp only [step]
      rcases World.inGrid?_enter (w := w) (claimTarget id) .low with
        ⟨_, hwait⟩ | ⟨_, held, lock, hsection⟩
      · rw [hwait]
        exact Charge.trades_self rfl
      · rw [hsection]
        unfold claimTarget
        split <;> exact Charge.trades_of_supplies rfl fun _ => rfl
  | watching watch =>
      simp only [step]
      rcases observe_cases c watch w with ⟨_, heq⟩ | ⟨_, heq⟩
      · rw [heq]
        exact Charge.trades_of_broken rfl
      · rw [heq]
        exact Charge.trades_of_supplies rfl fun _ => by simp only [(charge_readTarget watch).1]
  | pausing watch | watched watch =>
      simp only [step]
      split <;> exact Charge.trades_of_supplies rfl fun _ => rfl
  | aiming watch =>
      simp only [step, aim]
      split
      · exact Charge.trades_of_broken rfl
      · exact Charge.trades_of_supplies rfl fun _ => rfl
  | launching id =>
      cases haccepting : c.accepting with
      | true =>
          rw [starts?, haccepting] at hstarts
          cases hstarts
      | false =>
          simp only [step, haccepting]
          exact Charge.trades_of_supplies rfl fun _ => rfl
  | retreating id =>
      simp only [step]
      split
      · rename_i m w' hvacate
        rcases World.vacate?_eq_ok hvacate with ⟨arena, _, heq⟩
        rw [heq]
        exact Charge.trades_of_supplies rfl fun _ => rfl
      · exact Charge.trades_of_broken rfl
  | returning slot =>
      simp only [step]
      split
      · rename_i w' hreturn
        exact Charge.trades_return hw hc hreturn
      · exact Charge.trades_of_broken rfl
  | ended launched | broken fault => exact Charge.trades_self rfl

theorem DefenceLauncher.step_trades {l : DefenceLauncher} (hw : w.Sound) (hc : l.charge.Sound w)
    (hstarts : l.starts? c = none) :
    Charge.Trades w (Task.defence (l.step c w).1).fault? l.charge (l.step c w).1.charge
      (l.step c w).2 := by
  cases l with
  | attempting a =>
      simp only [step, charge_afterAttempt]
      exact Attempt.step_trades hw hc hstarts
  | idle =>
      simp only [step]
      split <;> exact Charge.trades_self rfl
  | pausing | ended | broken fault => exact Charge.trades_self rfl

end Launchers

/-!
## Steps of a flight
-/

namespace Flight

variable {f : Flight} {w : World}

theorem supplies_inGrid? {act : World -> Flight × World}
    (hact : forall held, (act { w with lock := held }).2.supplies = w.supplies) :
    ((w.inGrid? .middle act).getD (f, w)).2.supplies = w.supplies := by
  rcases World.inGrid?_enter (w := w) act .middle with ⟨_, hwait⟩ | ⟨_, held, lock, hsection⟩
  · rw [hwait]
    rfl
  · rw [hsection]
    exact hact held

theorem supplies_depart : (f.depart w).2.supplies = w.supplies := by
  unfold depart
  split <;> rfl

theorem supplies_lookUp : (f.lookUp w).2.supplies = w.supplies := by
  unfold lookUp
  split <;> rfl

theorem supplies_enterCell (leg : Leg) : (f.enterCell leg w).2.supplies = w.supplies := by
  unfold enterCell
  simp only
  split
  · rfl
  · split
    · rfl
    · rfl
    · split <;> rfl

theorem supplies_step (hstage : f.stage ≠ .returning) : (f.step w).2.supplies = w.supplies := by
  unfold step
  split
  · split
    · exact supplies_depart
    · exact supplies_depart
    · exact supplies_lookUp
    · exact supplies_lookUp
    · rfl
  · exact supplies_inGrid? fun _ => supplies_enterCell _
  · exact supplies_lookUp
  · exact supplies_inGrid? fun _ => rfl
  · unfold vacate
    split
    · rename_i m w' hvacate
      rcases World.vacate?_eq_ok hvacate with ⟨a, _, heq⟩
      rw [heq]
      rfl
    · rfl
  · rename_i heq
    exact absurd heq hstage
  · rfl

theorem charge_ne_slot (hstage : f.stage ≠ .returning) {seat : Seat} :
    f.charge ≠ .slot seat := by
  unfold charge
  split
  · split <;> exact nofun
  · exact nofun
  · exact nofun
  · exact nofun
  · exact nofun
  · rename_i heq
    exact absurd heq hstage
  · exact nofun

theorem step_trades {fault? : Option Fault} (hquiet : w.lock.IsQuiet) (hw : w.Sound)
    (hc : f.charge.Sound w) (hf : f.Sound) :
    Charge.Trades w fault? f.charge (f.step w).1.charge (f.step w).2 := by
  by_cases hstage : f.stage = .returning
  · have hcharge : f.charge = .slot f.id.seat := by simp only [charge, hstage]
    rw [hcharge] at hc ⊢
    rcases Charge.advances_return hw hc with ⟨w', hreturn, _⟩
    have hreturned : f.step w = ({ f with phase := .cleared, stage := .ready }, w') := by
      simp only [MissileId.seat] at hreturn
      simp only [step, hstage, giveBack, hreturn]
    rw [hreturned]
    exact Charge.trades_return hw hc hreturn
  · refine Charge.trades_of_supplies (supplies_step hstage) fun _ => ?_
    exact (step_steps hquiet hw hc hf).follows.seat?_eq fun seat => charge_ne_slot hstage

end Flight

/-!
## Steps of a task
-/

namespace Task

variable {t : Task} {w : World} {c : Conditions}

theorem step_trades (hquiet : w.lock.IsQuiet) (hw : w.Sound) (hc : t.charge.Sound w)
    (ht : t.Sound) (hstarts : t.starts? c = none) :
    Charge.Trades w (t.step c w).1.fault? t.charge (t.step c w).1.charge (t.step c w).2 := by
  cases t with
  | attack l => exact AttackLauncher.step_trades hw hc hstarts
  | defence l => exact DefenceLauncher.step_trades hw hc hstarts
  | checking f =>
      refine Charge.trades_of_supplies ?_ fun _ => rfl
      simp only [step]
      split <;> rfl
  | flying f =>
      have hsound := (Flight.step_steps hquiet hw hc ht.1).sound
      simp only [step, (afterStep_spec hsound).1]
      exact Flight.step_trades hquiet hw hc ht.1
  | pausing f | landed f => exact Charge.trades_self rfl

theorem step_of_fault {fault : Fault} (h : t.fault? = some fault) : t.step c w = (t, w) := by
  cases t with
  | attack l =>
      cases l with
      | broken other => rfl
      | idle | drawing | parked | drawn slot | armed slot | loaded slot m => cases h
      | launching id | cooling | retreating id | returning slot | ended => cases h
  | defence l =>
      cases l with
      | broken other => rfl
      | idle | attempting a | pausing | ended => cases h
  | landed f => rfl
  | checking f | flying f | pausing f => cases h

theorem charge_of_over (hrest : t.rest = .over) (hfault : t.fault? = none) :
    t.charge = .nothing := by
  cases t with
  | attack l =>
      cases l with
      | ended => rfl
      | broken fault => cases hfault
      | idle | drawing | parked | drawn slot | armed slot | loaded slot m => cases hrest
      | launching id | cooling | retreating id | returning slot => cases hrest
  | defence l =>
      cases l with
      | ended => rfl
      | broken fault => cases hfault
      | attempting a => cases a <;> cases hrest
      | idle | pausing => cases hrest
  | landed f => rfl
  | checking f | flying f | pausing f => cases hrest

end Task

/-!
## Slots in a run
-/

namespace Engagement

variable {e : Engagement} {i : Nat} {t : Task}

theorem step_mem_work (hi : e.tasks[i]? = some t) (c : Conditions) (dt : Float32) :
    (t.step c e.world).1 ∈ (e.work i c dt t).tasks := by
  apply List.mem_of_getElem? (i := i)
  rw [tasks_work_of_lt (List.getElem?_eq_some_iff.mp hi).1, if_pos rfl]

theorem mem_work_of_mem (hi : e.tasks[i]? = some t) (c : Conditions) (dt : Float32) {u : Task}
    (hu : u ∈ e.tasks) : u = t ∨ u ∈ (e.work i c dt t).tasks := by
  rcases List.getElem?_of_mem hu with ⟨k, hk⟩
  by_cases hsame : i = k
  · subst hsame
    exact .inl (Option.some.inj (hk.symm.trans hi))
  · refine .inr (List.mem_of_getElem? (i := k) ?_)
    rw [tasks_work_of_lt (List.getElem?_eq_some_iff.mp hk).1, if_neg hsame, hk]

theorem Sound.trades_cases (h : e.Sound) (a : Action) :
    (exists i t c dt, e.tasks[i]? = some t ∧ e.act a = e.work i c dt t) ∨
      (Charge.Trades e.world none .nothing .nothing (e.act a).world ∧
        forall t, t ∈ e.tasks -> t ∈ (e.act a).tasks) := by
  cases a with
  | hire side =>
      refine .inr ⟨Charge.trades_self rfl, fun t ht => ?_⟩
      exact List.mem_append_left _ ht
  | work i accepting now dt =>
      cases hi : e.tasks[i]? with
      | none =>
          simp only [Engagement.act, hi]
          exact .inr ⟨Charge.trades_self rfl, fun t ht => ht⟩
      | some t =>
          refine .inl ⟨i, t, { running := e.running, accepting, now }, dt, hi, ?_⟩
          simp only [Engagement.act, hi]
  | look i =>
      refine .inr ?_
      cases hi : e.observers[i]? with
      | none =>
          simp only [Engagement.act, hi]
          exact ⟨Charge.trades_self rfl, fun t ht => ht⟩
      | some p =>
          rcases step_observer h.quiet h.holders_le (h.held (List.mem_of_getElem? hi)) with
            ⟨l, hworld, _⟩
          simp only [Engagement.act, hi, hworld]
          exact ⟨Charge.trades_self rfl, fun t ht => ht⟩
  | request =>
      refine .inr ⟨Charge.trades_admission h.world h.world.admission.request fun hshut => ?_,
        fun t ht => ht⟩
      rw [hshut.request]
      exact hshut
  | closeAdmission =>
      exact .inr ⟨Charge.trades_admission h.world h.world.admission.close
        fun _ => h.world.admission.isShut_close, fun t ht => ht⟩
  | closePool =>
      refine .inr ⟨?_, fun t ht => ht⟩
      rcases h.world.pool.close with ⟨_, hcapacity, hclosed, _, htaken⟩
      exact
        { gained := by
            intro seat hseat
            rcases seat with ⟨side, slot⟩
            cases side with
            | attacker => exact .inl hseat
            | defender => exact .inl ((htaken slot).mp hseat)
          given := fun _ seat hseat => by cases hseat
          shut := fun hshut => hshut
          closed := fun _ => hclosed
          capacity := by
            intro side
            cases side with
            | attacker => rfl
            | defender => exact hcapacity }
  | watch | mark id | stop => exact .inr ⟨Charge.trades_self rfl, fun t ht => ht⟩

theorem Sound.act_trades (h : e.Sound) (a : Action) :
    exists c, Charge.Trades e.world none .nothing c (e.act a).world := by
  rcases h.trades_cases a with ⟨i, t, c, dt, hi, hact⟩ | ⟨htrades, _⟩
  · have hmem := List.mem_of_getElem? hi
    refine ⟨(t.step c e.world).1.charge, ?_⟩
    rw [hact]
    cases hstarts : t.starts? c with
    | none =>
        have htrades := Task.step_trades h.quiet h.world (h.charge t hmem) (h.task t hmem) hstarts
        exact { htrades with given := fun _ seat hseat => by cases hseat }
    | some id =>
        rcases Task.step_starts (h.charge t hmem) hstarts with ⟨hnothing, _, hsame, _⟩
        rw [hnothing]
        exact Charge.trades_self (congrArg World.supplies hsame)
  · exact ⟨.nothing, htrades⟩

theorem Sound.isShut_act (h : e.Sound) (hshut : e.world.admission.IsShut) (a : Action) :
    (e.act a).world.admission.IsShut := by
  rcases h.act_trades a with ⟨c, htrades⟩
  exact htrades.shut hshut

theorem Sound.closed_act (h : e.Sound) (hclosed : e.world.pool.closed = true) (a : Action) :
    (e.act a).world.pool.closed = true := by
  rcases h.act_trades a with ⟨c, htrades⟩
  exact htrades.closed hclosed

theorem Sound.slotCapacity_run (h : e.Sound) (actions : List Action) (side : Side) :
    (e.run actions).world.slotCapacity side = e.world.slotCapacity side := by
  refine h.run_of (P := fun r => r.world.slotCapacity side = e.world.slotCapacity side)
    (fun {r} hr hside a => ?_) rfl actions
  rcases hr.act_trades a with ⟨c, htrades⟩
  exact (htrades.capacity side).trans hside

/-!
## Slots that are out
-/

def IsManned (e : Engagement) : Prop :=
  (forall t, t ∈ e.tasks -> t.fault? = none) ->
    forall seat, e.world.IsTaken seat -> exists t, t ∈ e.tasks ∧ t.charge.seat? = some seat

theorem unbroken_of_work (hi : e.tasks[i]? = some t) (c : Conditions) (dt : Float32)
    (h : forall u, u ∈ (e.work i c dt t).tasks -> u.fault? = none) (u : Task)
    (hu : u ∈ e.tasks) : u.fault? = none := by
  rcases mem_work_of_mem hi c dt hu with hsame | hstill
  · subst hsame
    cases hfault : u.fault? with
    | none => rfl
    | some fault =>
        have hafter := h _ (step_mem_work hi c dt)
        rw [Task.step_of_fault hfault, hfault] at hafter
        cases hafter
  · exact h u hstill

theorem Sound.manned_work (h : e.Sound) (hmanned : e.IsManned) (hi : e.tasks[i]? = some t)
    (c : Conditions) (dt : Float32) : (e.work i c dt t).IsManned := by
  intro hunbroken seat htaken
  have hmem := List.mem_of_getElem? hi
  have hbefore := hmanned (unbroken_of_work hi c dt hunbroken)
  have hworker := step_mem_work hi c dt
  cases hstarts : t.starts? c with
  | none =>
      have htrades := Task.step_trades h.quiet h.world (h.charge t hmem) (h.task t hmem) hstarts
      rcases htrades.gained seat htaken with hold | hnew
      · rcases hbefore seat hold with ⟨u, hu, hseat⟩
        rcases mem_work_of_mem hi c dt hu with hsame | hstill
        · subst hsame
          rcases htrades.given (hunbroken _ hworker) seat hseat with hkept | hfree
          · exact ⟨_, hworker, hkept⟩
          · exact absurd htaken hfree
        · exact ⟨u, hstill, hseat⟩
      · exact ⟨_, hworker, hnew⟩
  | some id =>
      rcases Task.step_starts (h.charge t hmem) hstarts with ⟨_, _, hsame, hcharge, _⟩
      have hold : e.world.IsTaken seat := by
        rw [← hsame]
        exact htaken
      rcases hbefore seat hold with ⟨u, hu, hseat⟩
      rcases mem_work_of_mem hi c dt hu with heq | hstill
      · subst heq
        refine ⟨(Duty.flight id).begin dt, ?_, ?_⟩
        · simp [Engagement.work, hstarts]
        · rw [(Duty.begin_flight id dt).1, ← hseat, hcharge]
      · exact ⟨u, hstill, hseat⟩

theorem Sound.manned_act (h : e.Sound) (hmanned : e.IsManned) (a : Action) :
    (e.act a).IsManned := by
  rcases h.trades_cases a with ⟨i, t, c, dt, hi, hact⟩ | ⟨htrades, hstill⟩
  · rw [hact]
    exact h.manned_work hmanned hi c dt
  · intro hunbroken seat htaken
    rcases htrades.gained seat htaken with hold | hnew
    · rcases hmanned (fun u hu => hunbroken u (hstill u hu)) seat hold with ⟨u, hu, hseat⟩
      exact ⟨u, hstill u hu, hseat⟩
    · cases hnew

theorem Sound.manned_run (h : e.Sound) (hmanned : e.IsManned) (actions : List Action) :
    (e.run actions).IsManned :=
  h.run_of (fun hr hmanned a => hr.manned_act hmanned a) hmanned actions

theorem start_manned {s : Settings} {w : World} (hw : World.ofSettings? s = .ok w) :
    (start w).IsManned := by
  have hfresh := World.isFresh_of_ofSettings? hw
  intro _ seat htaken
  rcases seat with ⟨side, slot⟩
  cases side with
  | attacker => exact absurd htaken ((AdmissionQueue.ofCapacity?_sound hfresh.admission).2.2 slot)
  | defender => exact absurd htaken ((SlotPool.ofCapacity?_sound hfresh.pool).2.2.2.2 slot)

end Engagement
end AirDefense

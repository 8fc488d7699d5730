import AirDefense.Proofs.Engagement.Supplies

/-!
# Shutting down

When a run has been asked to stop, each flight that looks ends with the period it has
begun, as soon as it got its turns.  Nothing is admitted once the queue is closed.  And
when every task is over, all missiles are gone and all slots are at home.
-/

namespace AirDefense

/-!
## The last steps of a flight
-/

namespace Flight

/-- The steps that a flight which was called off still has to take. -/
def sectionsLeft (f : Flight) : Nat :=
  match f.stage with
  | .ready =>
      match f.phase with
      | .spawned => 5
      | .moving => 5
      | .collided => 4
      | .externallyDeleted => 4
      | .cleared => 0
  | .moved _ => 5
  | .ending => 4
  | .clearing _ => 3
  | .vacating => 2
  | .returning => 1
  | .broken _ => 0

variable {f : Flight} {w : World}

theorem sectionsLeft_le (f : Flight) : f.sectionsLeft <= 5 := by
  unfold sectionsLeft
  split
  · split <;> omega
  all_goals omega

theorem cleared_of_sectionsLeft (hf : f.Sound) (h : f.sectionsLeft = 0) :
    f.phase = .cleared := by
  have hunbroken := hf.unbroken
  cases hstage : f.stage with
  | ready =>
      cases hphase : f.phase with
      | cleared => rfl
      | spawned | moving | collided | externallyDeleted =>
          simp only [sectionsLeft, hstage, hphase] at h
          cases h
  | broken fault =>
      simp only [fault?, hstage] at hunbroken
      cases hunbroken
  | moved leg | ending | clearing cell | vacating | returning =>
      simp only [sectionsLeft, hstage] at h
      cases h

theorem sectionsLeft_lookUp : (f.lookUp w).1.sectionsLeft <= 3 := by
  unfold lookUp
  split
  · exact Nat.le_refl 3
  · exact Nat.le_succ 2

theorem sectionsLeft_vacate : (f.vacate w).1.sectionsLeft <= 1 := by
  unfold vacate
  split
  · exact Nat.le_refl 1
  · exact Nat.zero_le 1

theorem sectionsLeft_giveBack : (f.giveBack w).1.sectionsLeft = 0 := by
  unfold giveBack
  split <;> rfl

theorem sectionsLeft_inGrid? {act : World -> Flight × World}
    (hblocked : w.lock.blocked = .constant 0)
    (hact : forall held, (act { w with lock := held }).1.sectionsLeft <= f.sectionsLeft - 1) :
    ((w.inGrid? .middle act).getD (f, w)).1.sectionsLeft <=
      f.sectionsLeft - (w.lock.holders == 0).toNat := by
  rcases World.inGrid?_enter (w := w) act .middle with ⟨hwait, hnone⟩ | ⟨_, held, lock, hsection⟩
  · have hheld : (w.lock.holders == 0) = false := by
      rw [beq_eq_false_iff_ne]
      exact fun hfree => hwait (FieldLock.enter_of_free hfree hblocked .middle)
    rw [hnone, hheld]
    exact Nat.le_refl _
  · rw [hsection]
    exact Nat.le_trans (hact held) (Nat.sub_le_sub_left (Bool.toNat_le _) _)

/-- A flight that was called off comes nearer to its end whenever it could get the grid. -/
theorem IsCalledOff.sectionsLeft_step (h : f.IsCalledOff w)
    (hblocked : w.lock.blocked = .constant 0) :
    (f.step w).1.sectionsLeft <= f.sectionsLeft - (w.lock.holders == 0).toNat := by
  have hnear : forall {n : Nat}, n <= f.sectionsLeft - 1 ->
      n <= f.sectionsLeft - (w.lock.holders == 0).toNat :=
    fun hn => Nat.le_trans hn (Nat.sub_le_sub_left (Bool.toNat_le _) _)
  cases hstage : f.stage with
  | ready =>
      cases hphase : f.phase with
      | spawned | moving =>
          have hleft : f.sectionsLeft = 5 := by simp only [sectionsLeft, hstage, hphase]
          rcases h.deleted (by simp only [isGrounded, hstage, hphase]) with ⟨m, hid, hm⟩
          apply hnear
          rw [hleft]
          simp only [Flight.step, hstage, hphase, depart_of_deleted hid hm]
          exact Nat.le_refl 4
      | collided | externallyDeleted =>
          have hleft : f.sectionsLeft = 4 := by simp only [sectionsLeft, hstage, hphase]
          apply hnear
          rw [hleft]
          simp only [Flight.step, hstage, hphase]
          exact sectionsLeft_lookUp
      | cleared =>
          have hleft : f.sectionsLeft = 0 := by simp only [sectionsLeft, hstage, hphase]
          simp only [Flight.step, hstage, hphase, hleft]
          exact Nat.zero_le _
  | moved leg =>
      have hleft : f.sectionsLeft = 5 := by simp only [sectionsLeft, hstage]
      rcases h.deleted (by simp only [isGrounded, hstage]) with ⟨m, hid, hm⟩
      simp only [Flight.step, hstage]
      refine sectionsLeft_inGrid? hblocked fun held => ?_
      rw [enterCell_of_deleted (w := { w with lock := held }) leg hid hm, hleft]
      exact Nat.le_refl 4
  | ending =>
      have hleft : f.sectionsLeft = 4 := by simp only [sectionsLeft, hstage]
      apply hnear
      rw [hleft]
      simp only [Flight.step, hstage]
      exact sectionsLeft_lookUp
  | clearing cell =>
      have hleft : f.sectionsLeft = 3 := by simp only [sectionsLeft, hstage]
      simp only [Flight.step, hstage]
      refine sectionsLeft_inGrid? hblocked fun held => ?_
      rw [hleft]
      exact Nat.le_refl 2
  | vacating =>
      have hleft : f.sectionsLeft = 2 := by simp only [sectionsLeft, hstage]
      apply hnear
      rw [hleft]
      simp only [Flight.step, hstage]
      exact sectionsLeft_vacate
  | returning =>
      have hleft : f.sectionsLeft = 1 := by simp only [sectionsLeft, hstage]
      apply hnear
      rw [hleft]
      simp only [Flight.step, hstage, sectionsLeft_giveBack]
      exact Nat.zero_le _
  | broken fault =>
      have hleft : f.sectionsLeft = 0 := by simp only [sectionsLeft, hstage]
      simp only [Flight.step, hstage, hleft]
      exact Nat.zero_le _

end Flight

namespace Task

variable {t : Task} {w : World} {c : Conditions}

/-- The steps that a task in the last period of its flight still has to take. -/
def sectionsLeft : Task -> Nat
  | flying f => f.sectionsLeft
  | _ => 0

theorem sectionsLeft_afterStep (f : Flight) : (afterStep f).sectionsLeft <= f.sectionsLeft := by
  unfold afterStep
  split
  · exact Nat.le_refl _
  · split <;> exact Nat.zero_le _

theorem IsWindingUp.sectionsLeft_step (h : t.IsWindingUp w)
    (hblocked : w.lock.blocked = .constant 0) :
    (t.step c w).1.sectionsLeft <= t.sectionsLeft - (w.lock.holders == 0).toNat := by
  rcases h with ⟨f, ⟨ht, hcalled⟩ | ht⟩
  · subst ht
    exact Nat.le_trans (sectionsLeft_afterStep _) (hcalled.sectionsLeft_step hblocked)
  · subst ht
    exact Nat.zero_le _

theorem IsWindingUp.cases (h : t.IsWindingUp w) (ht : t.Sound) :
    exists f, t.flight? = some f ∧
      ((t = .flying f ∧ 0 < t.sectionsLeft) ∨ (t = .landed f ∧ f.phase = .cleared)) := by
  rcases h with ⟨f, ⟨heq, _⟩ | heq⟩
  · subst heq
    refine ⟨f, rfl, .inl ⟨rfl, Nat.pos_of_ne_zero fun hzero => ?_⟩⟩
    exact ht.2 (Flight.cleared_of_sectionsLeft ht.1 hzero)
  · subst heq
    exact ⟨f, rfl, .inr ⟨rfl, ht.2⟩⟩

theorem windingUp_of_stopped {f : Flight} (hw : w.Sound) (hc : f.charge.Sound w)
    (ht : (Task.checking f).Sound) (hstopped : c.running = false) :
    ((Task.checking f).step c w).1.IsWindingUp ((Task.checking f).step c w).2 := by
  simp only [step, hstopped]
  refine ⟨f, .inl ⟨rfl, ?_⟩⟩
  by_cases hstage : f.stage = .returning
  · exact .inl (by simp only [Flight.isGrounded, hstage])
  · rcases Flight.charge_cases ht.1 ht.2 with ⟨place, hcharge⟩ | hslot
    · rw [hcharge] at hc
      rcases hc with ⟨_, _, m, hid, _⟩
      rcases (hw.markDeleted f.id).missile f.id m (by simp) hid with ⟨m', hid', _⟩
      exact .inr ⟨m', hid', World.deleted_of_markDeleted hid'⟩
    · exact absurd hslot (Flight.charge_ne_slot hstage)

end Task

namespace Engagement

variable {e : Engagement} {i : Nat} {t : Task}

/-!
## Turns
-/

def givesTurn (i : Nat) (e : Engagement) : Action -> Bool
  | .work j _ _ _ => j == i && e.world.lock.holders == 0
  | _ => false

/-- How often in a run the task takes a step while nobody holds the grid. -/
def turns (i : Nat) : Engagement -> List Action -> Nat
  | _, [] => 0
  | e, a :: rest => (e.givesTurn i a).toNat + turns i (e.act a) rest

theorem blocked_observer (p : Snapshot.Progress) (w : World) :
    (p.step w).2.lock.blocked = w.lock.blocked := by
  cases p with
  | waiting =>
      cases henter : w.lock.enter .high with
      | mk ticket held =>
          cases ticket with
          | some ticket => simp only [Snapshot.Progress.step, henter]
          | none =>
              simp only [Snapshot.Progress.step, henter, (FieldLock.enter_eq_none henter).2]
  | releasing snapshot =>
      simp only [Snapshot.Progress.step]
      split
      · rename_i l hrelease
        exact FieldLock.blocked_release? hrelease
      · rfl
  | holding score missiles | counting score missiles free | done snapshot => rfl

/-- Nobody queues for the lock: who cannot have it comes back later. -/
theorem Sound.blocked_act (h : e.Sound) (a : Action) :
    (e.act a).world.lock.blocked = e.world.lock.blocked := by
  cases a with
  | work i accepting now dt =>
      cases hi : e.tasks[i]? with
      | none => simp only [Engagement.act, hi]
      | some t =>
          have hmem := List.mem_of_getElem? hi
          simp only [Engagement.act, hi]
          exact congrArg FieldLock.blocked
            (Task.step_keeps h.quiet h.world (h.charge t hmem) (h.task t hmem)).lock_eq
  | look i =>
      cases hi : e.observers[i]? with
      | none => simp only [Engagement.act, hi]
      | some p =>
          simp only [Engagement.act, hi]
          exact blocked_observer p e.world
  | hire side | watch | request | mark id | stop | closeAdmission | closePool => rfl

/-- No action undoes what was called off, and each turn of the task brings it nearer to its end. -/
theorem Sound.windsUp_act (h : e.Sound) (hblocked : e.world.lock.blocked = .constant 0)
    (hi : e.tasks[i]? = some t) (ht : t.IsWindingUp e.world) (a : Action) :
    exists t', (e.act a).tasks[i]? = some t' ∧ t'.IsWindingUp (e.act a).world ∧
      t'.sectionsLeft <= t.sectionsLeft - (e.givesTurn i a).toNat := by
  rcases h.windingUp_act hi ht a with ⟨t', ht', hwinding⟩
  refine ⟨t', ht', hwinding, ?_⟩
  rcases h.act_cases hi a with ⟨accepting, now, dt, hwork, htask, _⟩ | ⟨hother, htask, _⟩
  · cases Option.some.inj (ht'.symm.trans htask)
    subst hwork
    simp only [givesTurn, beq_self_eq_true, Bool.true_and]
    exact ht.sectionsLeft_step hblocked
  · cases Option.some.inj (ht'.symm.trans htask)
    have hnone : e.givesTurn i a = false := by
      cases a with
      | work j accepting now dt =>
          have hne : j ≠ i := fun heq => hother accepting now dt (by rw [heq])
          simp [givesTurn, hne]
      | hire | watch | look | request | mark | stop | closeAdmission | closePool => rfl
    rw [hnone]
    exact Nat.le_refl _

theorem Sound.windsUp_run (h : e.Sound) (hblocked : e.world.lock.blocked = .constant 0)
    (hi : e.tasks[i]? = some t) (ht : t.IsWindingUp e.world) (actions : List Action) :
    exists t', (e.run actions).tasks[i]? = some t' ∧ t'.IsWindingUp (e.run actions).world ∧
      t'.sectionsLeft <= t.sectionsLeft - turns i e actions := by
  induction actions generalizing e t with
  | nil => exact ⟨t, hi, ht, Nat.le_refl _⟩
  | cons a rest ih =>
      rcases h.windsUp_act hblocked hi ht a with ⟨u, hu, hwinding, hfirst⟩
      rcases ih (h.act a) ((h.blocked_act a).trans hblocked) hu hwinding with
        ⟨t', ht', hwinding', hrest⟩
      refine ⟨t', ht', hwinding', ?_⟩
      rw [turns]
      omega

theorem running_act (hstopped : e.running = false) (a : Action) : (e.act a).running = false := by
  cases a with
  | work i accepting now dt =>
      cases hi : e.tasks[i]? with
      | none => simp only [act, hi, hstopped]
      | some t => simp only [act, hi, work, hstopped]
  | look i =>
      cases hi : e.observers[i]? with
      | none => simp only [act, hi, hstopped]
      | some p => simp only [act, hi, hstopped]
  | stop => rfl
  | hire side | watch | request | mark id | closeAdmission | closePool => exact hstopped

theorem Sound.last_period (h : e.Sound) (hblocked : e.world.lock.blocked = .constant 0)
    (hstopped : e.running = false) {f : Flight} (hi : e.tasks[i]? = some (.checking f))
    (accepting : Bool) (now dt : Float32) (later : List Action) :
    let looked := e.act (.work i accepting now dt)
    exists g, g.id = f.id ∧
      (((looked.run later).tasks[i]? = some (.flying g) ∧ turns i looked later < 5) ∨
        ((looked.run later).tasks[i]? = some (.landed g) ∧ g.phase = .cleared)) := by
  intro looked
  have hmem := List.mem_of_getElem? hi
  have hlooked : looked.Sound := h.act _
  let c : Conditions := { running := e.running, accepting, now }
  have hact : looked = e.work i c dt (.checking f) := by
    simp only [looked, c, Engagement.act, hi]
  have htask : looked.tasks[i]? = some (.flying f) := by
    rw [hact, tasks_work_of_lt (List.getElem?_eq_some_iff.mp hi).1, if_pos rfl]
    rfl
  have hwinding : (Task.flying f).IsWindingUp looked.world := by
    rw [hact]
    exact Task.windingUp_of_stopped (c := c) h.world (h.charge _ hmem) (h.task _ hmem) hstopped
  rcases hlooked.windsUp_run ((h.blocked_act _).trans hblocked) htask hwinding later with
    ⟨t', ht', hwinding', hleft⟩
  rcases hlooked.flight_run htask (f := f) rfl later with ⟨t'', g, ht'', hg, hid⟩
  cases Option.some.inj (ht'.symm.trans ht'')
  rcases hwinding'.cases ((hlooked.run later).task t' (List.mem_of_getElem? ht')) with
    ⟨g', hg', hcases⟩
  cases Option.some.inj (hg.symm.trans hg')
  refine ⟨g, hid, ?_⟩
  rcases hcases with ⟨heq, hpos⟩ | ⟨heq, hphase⟩
  · subst heq
    have hbound := f.sectionsLeft_le
    exact .inl ⟨ht', by simp only [Task.sectionsLeft] at hleft hpos; omega⟩
  · subst heq
    exact .inr ⟨ht', hphase⟩

/-!
## When everything is over
-/

theorem Sound.idle_of_over (hmanned : e.IsManned)
    (hover : forall t, t ∈ e.tasks -> t.rest = .over)
    (hunbroken : forall t, t ∈ e.tasks -> t.fault? = none) (seat : Seat) :
    ¬ e.world.IsTaken seat := by
  intro htaken
  rcases hmanned hunbroken seat htaken with ⟨t, ht, hseat⟩
  rw [Task.charge_of_over (hover t ht) (hunbroken t ht)] at hseat
  cases hseat

end Engagement

theorem World.Sound.empty_of_idle {w : World} (h : w.Sound)
    (hidle : forall seat, ¬ w.IsTaken seat) :
    w.fleet.liveCount = 0 ∧ w.grid.missileEntries = [] := by
  have hlive : forall side, (w.fleet.arena side).liveIds = [] := by
    intro side
    apply List.eq_nil_iff_forall_not_mem.mpr
    intro id hid
    rcases Option.isSome_iff_exists.mp (Arena.mem_liveIds.mp hid) with ⟨m, hm⟩
    exact hidle ⟨side, id.slot⟩ (h.taken _ (Arena.isOccupied_of_find? hm))
  have hgone : forall id, w.fleet.find? id = none := fun id =>
    World.find?_eq_none_of_vacant fun hoccupied => hidle id.seat (h.taken _ hoccupied)
  constructor
  · have hattackers := hlive .attacker
    have hdefenders := hlive .defender
    simp only [Fleet.arena] at hattackers hdefenders
    rw [Fleet.liveCount, hattackers, hdefenders]
    rfl
  · exact Grid.missileEntries_eq_nil fun p id => h.not_occupant (hgone id) p

namespace Engagement

/--
After a run has been asked to stop and both supplies were closed, each flight that looks
whether the run goes on ends with the period that it has begun then, at the latest once
it got five turns, and no request is admitted.  When all tasks are over, and none broke
off, no missile is left in the arenas or on the grid, and every slot is at home.
-/
theorem shutdown_is_clean {s : Settings} {w : World} (hvalid : s.validate = .ok (.ok ()))
    (hw : World.ofSettings? s = .ok w) {actions : List Action} (hstop : .stop ∈ actions)
    (hadmission : .closeAdmission ∈ actions) (hpool : .closePool ∈ actions) :
    let e := (start w).run actions
    (forall (i : Nat) f accepting now dt later, e.tasks[i]? = some (.checking f) ->
        let looked := e.act (.work i accepting now dt)
        exists g, g.id = f.id ∧
          (((looked.run later).tasks[i]? = some (.flying g) ∧ turns i looked later < 5) ∨
            ((looked.run later).tasks[i]? = some (.landed g) ∧ g.phase = .cleared))) ∧
      e.world.admission.request = (false, e.world.admission) ∧
      ((forall t, t ∈ e.tasks -> t.rest = .over) ->
        (forall t, t ∈ e.tasks -> t.fault? = none) ->
          e.world.fleet.liveCount = 0 ∧ e.world.grid.missileEntries = [] ∧
            e.world.admission.freeLength = s.attacker.capacity ∧
            e.world.admission.readyLength = 0 ∧
            e.world.pool.available = s.defender.capacity) := by
  intro e
  have hstart := start_sound hvalid hw
  have h : e.Sound := hstart.run actions
  have hfresh := World.isFresh_of_ofSettings? hw
  have hstopped : e.running = false :=
    hstart.run_of_mem (P := fun r => r.running = false) (fun _ hr a => running_act hr a)
      (fun _ => rfl) hstop
  have hshut : e.world.admission.IsShut :=
    hstart.run_of_mem (P := fun r => r.world.admission.IsShut)
      (fun hr hshut a => hr.isShut_act hshut a) (a := .closeAdmission)
      (fun hr => hr.world.admission.isShut_close) hadmission
  have hclosed : e.world.pool.closed = true :=
    hstart.run_of_mem (P := fun r => r.world.pool.closed = true)
      (fun hr hclosed a => hr.closed_act hclosed a) (fun hr => rfl) hpool
  have hblocked : e.world.lock.blocked = .constant 0 :=
    hstart.run_of (P := fun r => r.world.lock.blocked = .constant 0)
      (fun hr hb a => (hr.blocked_act a).trans hb) (by rw [start, hfresh.lock_eq]; rfl) actions
  refine ⟨fun i f accepting now dt later hi =>
    h.last_period hblocked hstopped hi accepting now dt later, hshut.request, ?_⟩
  intro hover hunbroken
  have hidle := Sound.idle_of_over (hstart.manned_run (start_manned hw) actions) hover hunbroken
  rcases h.world.empty_of_idle hidle with ⟨hlive, hgrid⟩
  have hfree := h.world.admission.length_eq fun i => hidle ⟨.attacker, i⟩
  have hcapacity := hstart.slotCapacity_run actions
  refine ⟨hlive, hgrid, ?_, hshut.readyLength_eq, ?_⟩
  · rw [hshut.readyLength_eq, Nat.add_zero] at hfree
    exact hfree.trans ((hcapacity .attacker).trans
      (AdmissionQueue.ofCapacity?_sound hfresh.admission).2.1)
  · have havailable := h.world.pool.available_eq (h.world.pool.handed_closed hclosed)
      fun i => hidle ⟨.defender, i⟩
    exact havailable.trans ((hcapacity .defender).trans
      (SlotPool.ofCapacity?_sound hfresh.pool).2.1)

def closing : List Action :=
  firstFlight ++ .hire .defender :: List.replicate 3 (.work 2 true 0 0) ++
    [.stop, .closeAdmission, .closePool, .work 1 true 0 0]

def closed : List Action :=
  closing ++ List.replicate 6 (.work 1 true 0 0) ++ List.replicate 2 (.work 0 true 0 0) ++
    List.replicate 6 (.work 2 true 0 0)

theorem shutdown_is_clean_mid_flight :
    narrow.validate = .ok (.ok ()) ∧ exists w e e', World.ofSettings? narrow = .ok w ∧
      e = (start w).run closing ∧ e' = (start w).run closed ∧
      e.tasks[1]? = some (.checking ⟨⟨.attacker, 0, 1⟩, 0, .moving, .ready⟩) ∧
      e.world.fleet.liveCount = 2 ∧
      (exists g, ((e.act (.work 1 true 0 0)).run (List.replicate 5 (.work 1 true 0 0))).tasks[1]? =
        some (.landed g) ∧ g.phase = .cleared) ∧
      e'.tasks.length = 3 ∧ e'.world.fleet.liveCount = 0 ∧ e'.world.grid.missileEntries = [] ∧
      e'.world.admission.freeLength = 4 ∧ e'.world.admission.readyLength = 0 ∧
      e'.world.pool.available = 4 := by
  have hvalid : narrow.validate = .ok (.ok ()) := by decide +kernel
  have hclosing : ((World.ofSettings? narrow).toOption.map fun w =>
      let e := (start w).run closing
      (e.tasks[1]?, e.world.fleet.liveCount,
        turns 1 (e.act (.work 1 true 0 0)) (List.replicate 5 (.work 1 true 0 0)))) =
      some (some (.checking ⟨⟨.attacker, 0, 1⟩, 0, .moving, .ready⟩), 2, 5) := by
    decide +kernel
  have hclosed : ((World.ofSettings? narrow).toOption.map fun w =>
      ((start w).run closed).tasks.map fun t => (t.rest, t.fault?)) =
      some (List.replicate 3 (.over, none)) := by
    decide +kernel
  cases hw : World.ofSettings? narrow with
  | error fault =>
      rw [hw] at hclosing
      cases hclosing
  | ok w =>
      simp only [hw, Except.toOption, Option.map_some] at hclosing hclosed
      injection hclosing with hclosing
      injection hclosing with hlooks hclosing
      injection hclosing with hlive hturns
      injection hclosed with hclosed
      have hover : forall t, t ∈ ((start w).run closed).tasks ->
          (t.rest, t.fault?) = (.over, none) :=
        fun t ht => List.eq_of_mem_replicate (hclosed ▸ List.mem_map_of_mem ht)
      have hlength : ((start w).run closed).tasks.length = 3 := by
        rw [← List.length_map, hclosed]
        rfl
      rcases @shutdown_is_clean _ _ hvalid hw closing (by simp [closing])
        (by simp [closing]) (by simp [closing]) with ⟨hends, _⟩
      rcases @shutdown_is_clean _ _ hvalid hw closed (by simp [closed, closing])
        (by simp [closed, closing]) (by simp [closed, closing]) with ⟨_, _, hempty⟩
      rcases hends 1 _ true 0 0 (List.replicate 5 (.work 1 true 0 0)) hlooks with
        ⟨g, _, ⟨_, hshort⟩ | hlanded⟩
      · rw [hturns] at hshort
        exact absurd hshort (Nat.lt_irrefl 5)
      · exact ⟨hvalid, w, _, _, rfl, rfl, rfl, hlooks, hlive, ⟨g, hlanded⟩, hlength,
          hempty (fun t ht => congrArg Prod.fst (hover t ht))
            fun t ht => congrArg Prod.snd (hover t ht)⟩

end Engagement
end AirDefense

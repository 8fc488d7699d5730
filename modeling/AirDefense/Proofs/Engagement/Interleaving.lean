import AirDefense.Engagement.Snapshot
import AirDefense.Proofs.Callers
import AirDefense.Proofs.Engagement.Tasks
import AirDefense.Proofs.Settings.Extent

/-!
# Engagements

An engagement is a world with all that works on it: launchers, the flights they
start, observers that take snapshots, and an operator.  One action is one section of
one of them; the actions come in any order.
-/

namespace AirDefense

structure Engagement where
  world : World
  running : Bool
  tasks : List Task
  observers : List Snapshot.Progress

inductive Action where
  | hire (side : Side)
  /--
  A task takes a step at the time `now`.  If it starts a flight, the flight is
  accepted or not, and counts `dt` seconds a period.
  -/
  | work (task : Nat) (accepting : Bool) (now dt : Float32)
  | watch
  | look (observer : Nat)
  | request
  /-- Somebody asks a missile to stop. -/
  | mark (id : MissileId)
  | stop
  | closeAdmission
  | closePool

namespace Engagement

def start (w : World) : Engagement :=
  { world := w, running := true, tasks := [], observers := [] }

def launcher : Side -> Task
  | .attacker => .attack .idle
  | .defender => .defence .idle

/-- The step of a task, and the flight that it starts. -/
def work (e : Engagement) (i : Nat) (c : Conditions) (dt : Float32) (t : Task) : Engagement :=
  { e with
    world := (t.step c e.world).2
    tasks := e.tasks.set i (t.step c e.world).1 ++
      (t.starts? c).toList.map fun id => (Duty.flight id).begin dt }

/-- One action.  Actions of nobody change nothing. -/
def act (e : Engagement) : Action -> Engagement
  | .hire side => { e with tasks := e.tasks ++ [launcher side] }
  | .work i accepting now dt =>
      match e.tasks[i]? with
      | none => e
      | some t => e.work i { running := e.running, accepting, now } dt t
  | .watch => { e with observers := e.observers ++ [.waiting] }
  | .look i =>
      match e.observers[i]? with
      | none => e
      | some p =>
          { e with
            world := (p.step e.world).2
            observers := e.observers.set i (p.step e.world).1 }
  | .request => { e with world := { e.world with admission := e.world.admission.request.2 } }
  | .mark id => { e with world := e.world.markDeleted id }
  | .stop => { e with running := false }
  | .closeAdmission => { e with world := { e.world with admission := e.world.admission.close } }
  | .closePool => { e with world := { e.world with pool := e.world.pool.close } }

def run (e : Engagement) (actions : List Action) : Engagement :=
  actions.foldl act e

/-!
## The invariant

Every task's charge is borne out by the world, and no two tasks own one seat.  The
observers in the middle of a snapshot are the holders of the lock.
-/

end Engagement

def Snapshot.Progress.isHolding : Snapshot.Progress -> Bool
  | waiting => false
  | holding _ _ => true
  | counting _ _ _ => true
  | releasing _ => true
  | done _ => false

namespace Engagement

structure Sound (e : Engagement) : Prop where
  world : e.world.Sound
  quiet : e.world.lock.IsQuiet
  holders_le : e.world.lock.holders <= 1
  holders_eq : e.world.lock.holders = e.observers.countP Snapshot.Progress.isHolding
  charge : forall t, t ∈ e.tasks -> t.charge.Sound e.world
  task : forall t, t ∈ e.tasks -> t.Sound
  exclusive : forall (i j : Nat) (t u : Task) (seat : Seat), e.tasks[i]? = some t ->
    e.tasks[j]? = some u -> t.charge.seat? = some seat -> u.charge.seat? = some seat -> i = j

end Engagement

/-!
## Starting
-/

/-- Nothing has happened in the world yet. -/
structure World.IsFresh (s : Settings) (w : World) : Prop where
  settings_eq : w.settings = s
  grid : Grid.ofSettings? s.field = .ok w.grid
  lock_eq : w.lock = .idle
  fleet_eq : w.fleet = .ofCapacities s.attacker.capacity s.defender.capacity
  admission : AdmissionQueue.ofCapacity? s.attacker.capacity = .ok w.admission
  pool : SlotPool.ofCapacity? s.defender.capacity = .ok w.pool

theorem World.isFresh_of_ofSettings? {s : Settings} {w : World}
    (hw : World.ofSettings? s = .ok w) : w.IsFresh s := by
  rcases bind_eq_ok.mp hw with ⟨grid, hgrid, hw⟩
  rcases bind_eq_ok.mp hw with ⟨fleet, hfleet, hw⟩
  rcases bind_eq_ok.mp hw with ⟨admission, hadmission, hw⟩
  rcases bind_eq_ok.mp hw with ⟨pool, hpool, hw⟩
  rw [← pure_eq_ok.mp hw]
  exact ⟨rfl, hgrid, rfl, Fleet.eq_ofCapacities_of_build? hfleet, hadmission, hpool⟩

theorem World.exists_ofSettings? {s : Settings} {view : World -> α} {x : α}
    (h : (World.ofSettings? s).toOption.map view = some x) :
    exists w, World.ofSettings? s = .ok w ∧ view w = x := by
  cases hw : World.ofSettings? s with
  | error fault =>
      rw [hw] at h
      cases h
  | ok w =>
      rw [hw] at h
      exact ⟨w, rfl, Option.some.inj h⟩

theorem World.IsFresh.sound {s : Settings} {w : World} (h : w.IsFresh s)
    (hvalid : s.validate = .ok (.ok ())) : w.Sound := by
  rcases AdmissionQueue.ofCapacity?_sound h.admission with ⟨hadmission, hcapacity, _⟩
  rcases SlotPool.ofCapacity?_sound h.pool with ⟨hpool, hcapacity', _⟩
  have hempty := (Grid.ofSettings?_spec h.grid).2.2.2
  have hroom := (Settings.hasInterior_of_validate hvalid).hasRoom h.grid
  have harena : forall side, (w.fleet.arena side) =
      .ofCapacity side (match side with
        | .attacker => s.attacker.capacity
        | .defender => s.defender.capacity) := by
    intro side
    rw [h.fleet_eq]
    cases side <;> rfl
  exact
    { admission := hadmission
      pool := hpool
      arena_side := fun side => by rw [harena side]; rfl
      arena_capacity := by
        intro side
        rw [harena side, Arena.capacity_ofCapacity]
        cases side with
        | attacker => exact hcapacity.symm
        | defender => exact hcapacity'.symm
      room := h.settings_eq ▸ hroom
      taken := by
        intro seat hoccupied
        rw [World.IsOccupied, harena] at hoccupied
        exact absurd hoccupied (Arena.not_isOccupied_ofCapacity _ _)
      live := by
        intro p id hp
        rw [hempty] at hp
        cases hp
      alone := by
        intro p q id hp
        rw [hempty] at hp
        cases hp }

namespace Engagement

variable {e : Engagement}

theorem start_sound {s : Settings} {w : World} (hvalid : s.validate = .ok (.ok ()))
    (hw : World.ofSettings? s = .ok w) : (start w).Sound := by
  have hfresh := World.isFresh_of_ofSettings? hw
  have hlock := hfresh.lock_eq
  exact
    { world := hfresh.sound hvalid
      quiet := fun t => by rw [start, hlock]; cases t <;> exact Nat.le_refl 0
      holders_le := by rw [start, hlock]; exact Nat.zero_le 1
      holders_eq := by rw [start, hlock]; rfl
      charge := fun t ht => by cases ht
      task := fun t ht => by cases ht
      exclusive := by
        intro i j t u seat ht
        simp [start] at ht }

/-!
## Every action keeps the invariant
-/

/-- A section that spares all seats. -/
theorem Sound.pass (h : e.Sound) {w : World} (hk : e.world.Keeps none w) :
    ({ e with world := w } : Engagement).Sound :=
  { world := hk.sound
    quiet := hk.lock_eq ▸ h.quiet
    holders_le := hk.lock_eq ▸ h.holders_le
    holders_eq := hk.lock_eq ▸ h.holders_eq
    charge := fun t ht => (h.charge t ht).of_keeps hk fun _ _ => nofun
    task := h.task
    exclusive := h.exclusive }

theorem Sound.replace (h : e.Sound) {i : Nat} {t t' : Task} (hi : e.tasks[i]? = some t)
    {w : World} (hadvances : Charge.Advances e.world t.charge t'.charge w) (ht' : t'.Sound) :
    ({ e with world := w, tasks := e.tasks.set i t' } : Engagement).Sound := by
  have hk := hadvances.keeps
  have hspared : forall {k : Nat} {v : Task}, k ≠ i -> e.tasks[k]? = some v ->
      forall seat, v.charge.seat? = some seat -> t.charge.seat? ≠ some seat :=
    fun hne hv seat hseat hown => hne (h.exclusive _ _ _ _ seat hv hi hseat hown)
  have hnew : forall {k : Nat} {v : Task} {seat : Seat}, k ≠ i -> e.tasks[k]? = some v ->
      v.charge.seat? = some seat -> t'.charge.seat? ≠ some seat := by
    intro k v seat hne hv hseat hown
    rcases hadvances.seat seat hown with hbefore | hfree
    · exact hspared hne hv seat hseat hbefore
    · exact hfree ((h.charge v (List.mem_of_getElem? hv)).taken hseat)
  exact
    { world := hk.sound
      quiet := hk.lock_eq ▸ h.quiet
      holders_le := hk.lock_eq ▸ h.holders_le
      holders_eq := hk.lock_eq ▸ h.holders_eq
      charge := by
        intro v hv
        rcases List.getElem?_of_mem hv with ⟨k, hk'⟩
        rcases getElem?_set_cases hk' with ⟨_, heq⟩ | ⟨hne, hv'⟩
        · rw [heq]
          exact hadvances.charge
        · exact (h.charge v (List.mem_of_getElem? hv')).of_keeps hk (hspared hne hv')
      task := by
        intro v hv
        rcases List.getElem?_of_mem hv with ⟨k, hk'⟩
        rcases getElem?_set_cases hk' with ⟨_, heq⟩ | ⟨_, hv'⟩
        · rw [heq]
          exact ht'
        · exact h.task v (List.mem_of_getElem? hv')
      exclusive := by
        intro j k u v seat hu hv huseat hvseat
        rcases getElem?_set_cases hu with ⟨hj, hut⟩ | ⟨hj, hu'⟩
        · rcases getElem?_set_cases hv with ⟨hk', _⟩ | ⟨hk', hv'⟩
          · rw [hj, hk']
          · exact absurd (hut ▸ huseat) (hnew hk' hv' hvseat)
        · rcases getElem?_set_cases hv with ⟨_, hvt⟩ | ⟨_, hv'⟩
          · exact absurd (hvt ▸ hvseat) (hnew hj hu' huseat)
          · exact h.exclusive j k u v seat hu' hv' huseat hvseat }

theorem Sound.enlist (h : e.Sound) {u : Task} (hu : u.Sound) (hc : u.charge.Sound e.world)
    (hfree : forall t, t ∈ e.tasks -> forall seat, u.charge.seat? = some seat ->
      t.charge.seat? ≠ some seat) :
    ({ e with tasks := e.tasks ++ [u] } : Engagement).Sound := by
  have hold : forall {k : Nat} {v : Task}, (e.tasks ++ [u])[k]? = some v ->
      e.tasks[k]? = some v ∨ (k = e.tasks.length ∧ v = u) := by
    intro k v hv
    by_cases hlt : k < e.tasks.length
    · rw [List.getElem?_append_left hlt] at hv
      exact .inl hv
    · rw [List.getElem?_append_right (Nat.le_of_not_lt hlt), List.getElem?_singleton] at hv
      split at hv
      · injection hv with hv
        exact .inr ⟨by omega, hv.symm⟩
      · cases hv
  exact
    { world := h.world
      quiet := h.quiet
      holders_le := h.holders_le
      holders_eq := h.holders_eq
      charge := by
        intro v hv
        rcases List.mem_append.mp hv with hv | hv
        · exact h.charge v hv
        · rw [List.mem_singleton.mp hv]
          exact hc
      task := by
        intro v hv
        rcases List.mem_append.mp hv with hv | hv
        · exact h.task v hv
        · rw [List.mem_singleton.mp hv]
          exact hu
      exclusive := by
        intro j k t v seat ht hv htseat hvseat
        rcases hold ht with ht' | ⟨hj, htu⟩
        · rcases hold hv with hv' | ⟨_, hvu⟩
          · exact h.exclusive j k t v seat ht' hv' htseat hvseat
          · exact absurd htseat (hfree t (List.mem_of_getElem? ht') seat (hvu ▸ hvseat))
        · rcases hold hv with hv' | ⟨hk, _⟩
          · exact absurd hvseat (hfree v (List.mem_of_getElem? hv') seat (htu ▸ htseat))
          · rw [hj, hk] }

theorem Sound.work (h : e.Sound) {i : Nat} {t : Task} (hi : e.tasks[i]? = some t)
    (c : Conditions) (dt : Float32) : (e.work i c dt t).Sound := by
  have hmem := List.mem_of_getElem? hi
  have hc := h.charge t hmem
  unfold Engagement.work
  cases hstarts : t.starts? c with
  | none =>
      rcases Task.step_advances h.quiet h.world hc (h.task t hmem) hstarts with
        ⟨hadvances, hsound, _⟩
      simp only [Option.toList_none, List.map_nil, List.append_nil]
      exact h.replace hi hadvances hsound
  | some id =>
      rcases Task.step_starts hc hstarts with ⟨hnothing, hsound, hsame, hcharge, _⟩
      rcases Duty.begin_flight id dt with ⟨hflight, hready⟩
      have hgiven : Charge.Advances e.world t.charge (t.step c e.world).1.charge
          (t.step c e.world).2 := by
        rw [hnothing, hsame]
        exact Charge.advances_nothing h.world.keeps_self
      have hleft := h.replace hi hgiven hsound
      simp only [Option.toList_some, List.map_cons, List.map_nil]
      refine hleft.enlist hready ?_ ?_
      · simp only [hflight, hsame]
        rw [← hcharge]
        exact hc
      · intro u hu seat hseat hown
        rw [hflight, ← hcharge] at hseat
        rcases List.getElem?_of_mem hu with ⟨k, hk⟩
        rcases getElem?_set_cases hk with ⟨_, heq⟩ | ⟨hne, hold⟩
        · rw [heq, hnothing] at hown
          cases hown
        · exact hne (h.exclusive k i u t seat hold hi hown hseat)

theorem step_observer {w : World} {p : Snapshot.Progress} (hquiet : w.lock.IsQuiet)
    (hle : w.lock.holders <= 1) (hheld : p.isHolding = true -> w.lock.holders = 1) :
    exists l, (p.step w).2 = { w with lock := l } ∧ l.IsQuiet ∧ l.holders <= 1 ∧
      l.holders + p.isHolding.toNat = w.lock.holders + (p.step w).1.isHolding.toNat := by
  cases p with
  | waiting =>
      cases henter : w.lock.enter .high with
      | mk ticket held =>
          cases ticket with
          | some ticket =>
              simp only [Snapshot.Progress.step, henter]
              exact ⟨w.lock, rfl, hquiet, hle, rfl⟩
          | none =>
              rcases FieldLock.enter_eq_none henter with ⟨hfree, heq⟩
              simp only [Snapshot.Progress.step, henter]
              refine ⟨held, rfl, ?_, ?_, ?_⟩
              · rw [heq]
                exact hquiet
              · simp [heq]
              · rw [heq, hfree]
                rfl
  | holding score missiles => exact ⟨w.lock, rfl, hquiet, hle, rfl⟩
  | counting score missiles free => exact ⟨w.lock, rfl, hquiet, hle, rfl⟩
  | releasing snapshot =>
      have hholders := hheld rfl
      simp only [Snapshot.Progress.step,
        FieldLock.release?_idle hholders (hquiet.nextTier .high)]
      refine ⟨{ w.lock with holders := 0 }, rfl, hquiet, Nat.zero_le 1, ?_⟩
      rw [hholders]
      rfl
  | done snapshot => exact ⟨w.lock, rfl, hquiet, hle, rfl⟩

theorem Sound.held (h : e.Sound) {p : Snapshot.Progress} (hp : p ∈ e.observers)
    (hholding : p.isHolding = true) : e.world.lock.holders = 1 := by
  have hpos : 0 < e.observers.countP Snapshot.Progress.isHolding :=
    List.countP_pos_iff.mpr ⟨p, hp, hholding⟩
  have hle := h.holders_le
  rw [← h.holders_eq] at hpos
  omega

theorem Sound.look (h : e.Sound) (i : Nat) : (e.act (.look i)).Sound := by
  cases hi : e.observers[i]? with
  | none =>
      simpa only [Engagement.act, hi] using h
  | some p =>
      have hheld := h.held (List.mem_of_getElem? hi)
      rcases step_observer h.quiet h.holders_le hheld with ⟨l, hworld, hquiet, hle, hholders⟩
      have hcount := countP_set_add (p := Snapshot.Progress.isHolding)
        (d := (p.step e.world).1) hi
      have hbefore := h.holders_eq
      simp only [Engagement.act, hi, hworld]
      exact
        { world := { h.world with }
          quiet := hquiet
          holders_le := hle
          holders_eq := by
            simp only
            omega
          charge := fun t ht => Charge.sound_relock.mpr (h.charge t ht)
          task := h.task
          exclusive := h.exclusive }

theorem Sound.hire (h : e.Sound) (side : Side) : (e.act (.hire side)).Sound := by
  cases side with
  | attacker => exact h.enlist (u := .attack .idle) trivial trivial fun _ _ _ => nofun
  | defender => exact h.enlist (u := .defence .idle) trivial trivial fun _ _ _ => nofun

theorem Sound.watch (h : e.Sound) : (e.act .watch).Sound :=
  { world := h.world
    quiet := h.quiet
    holders_le := h.holders_le
    holders_eq := by
      simp only [Engagement.act, List.countP_append]
      exact h.holders_eq
    charge := h.charge
    task := h.task
    exclusive := h.exclusive }

theorem Sound.act (h : e.Sound) (a : Action) : (e.act a).Sound := by
  cases a with
  | hire side => exact h.hire side
  | work i accepting now dt =>
      cases hi : e.tasks[i]? with
      | none =>
          simpa only [Engagement.act, hi] using h
      | some t =>
          simp only [Engagement.act, hi]
          exact h.work hi _ dt
  | watch => exact h.watch
  | look i => exact h.look i
  | request => exact h.pass (h.world.grants_admission h.world.admission.request).keeps
  | mark id => exact h.pass (h.world.markDeleted id)
  | stop => exact { h with }
  | closeAdmission => exact h.pass (h.world.grants_admission h.world.admission.close).keeps
  | closePool => exact h.pass h.world.closePool

theorem Sound.run (h : e.Sound) (actions : List Action) : (e.run actions).Sound := by
  induction actions generalizing e with
  | nil => exact h
  | cons a rest ih => exact ih (h.act a)

theorem Sound.run_of {P : Engagement -> Prop}
    (hact : forall {r : Engagement}, r.Sound -> P r -> forall a, P (r.act a)) (h : e.Sound)
    (he : P e) (actions : List Action) : P (e.run actions) := by
  induction actions generalizing e with
  | nil => exact he
  | cons a rest ih => exact ih (h.act a) (hact h he a)

/-- What an action brings about, and every action keeps, holds after that action. -/
theorem Sound.run_of_mem {P : Engagement -> Prop}
    (hact : forall {r : Engagement}, r.Sound -> P r -> forall a, P (r.act a)) {a : Action}
    (hdone : forall {r : Engagement}, r.Sound -> P (r.act a)) (h : e.Sound)
    {actions : List Action} (ha : a ∈ actions) : P (e.run actions) := by
  induction actions generalizing e with
  | nil => cases ha
  | cons b rest ih =>
      rcases List.mem_cons.mp ha with heq | hrest
      · subst heq
        exact (h.act a).run_of hact (hdone h) rest
      · exact ih (h.act b) hrest

/-!
## One task among others
-/

theorem tasks_work_of_lt {i j : Nat} {u : Task} {c : Conditions} {dt : Float32}
    (hlt : i < e.tasks.length) :
    (e.work j c dt u).tasks[i]? = if j = i then some (u.step c e.world).1 else e.tasks[i]? := by
  have hset : (e.work j c dt u).tasks[i]? = (e.tasks.set j (u.step c e.world).1)[i]? :=
    List.getElem?_append_left (by rw [List.length_set]; exact hlt)
  rw [hset, List.getElem?_set]
  by_cases hsame : j = i
  · rw [if_pos hsame, if_pos hsame, if_pos (hsame ▸ hlt)]
  · rw [if_neg hsame, if_neg hsame]

/-- An action is a step of the task in view, or it spares the task's seat. -/
theorem Sound.act_cases (h : e.Sound) {i : Nat} {t : Task} (hi : e.tasks[i]? = some t)
    (a : Action) :
    (exists accepting now dt, a = .work i accepting now dt ∧
        (e.act a).tasks[i]? =
          some (t.step { running := e.running, accepting, now } e.world).1 ∧
        (e.act a).world = (t.step { running := e.running, accepting, now } e.world).2) ∨
      ((forall accepting now dt, a ≠ .work i accepting now dt) ∧
        (e.act a).tasks[i]? = some t ∧ exists own lock,
        (forall seat, t.charge.seat? = some seat -> own ≠ some seat) ∧
          ({ e.world with lock } : World).Keeps own (e.act a).world) := by
  have hlt : i < e.tasks.length := (List.getElem?_eq_some_iff.mp hi).1
  cases a with
  | hire side =>
      refine .inr ⟨nofun, ?_, none, e.world.lock, fun _ _ => nofun, h.world.keeps_self⟩
      simp only [Engagement.act, List.getElem?_append_left hlt, hi]
  | work j accepting now dt =>
      cases hj : e.tasks[j]? with
      | none =>
          have hother : j ≠ i := by
            rintro rfl
            rw [hi] at hj
            cases hj
          simp only [Engagement.act, hj]
          exact .inr ⟨fun _ _ _ heq => hother (Action.work.inj heq).1, hi, none, e.world.lock,
            fun _ _ => nofun, h.world.keeps_self⟩
      | some u =>
          simp only [Engagement.act, hj]
          by_cases hsame : j = i
          · subst hsame
            have heq : u = t := Option.some.inj (hj.symm.trans hi)
            subst heq
            exact .inl ⟨accepting, now, dt, rfl, by rw [tasks_work_of_lt hlt, if_pos rfl], rfl⟩
          · have hmem := List.mem_of_getElem? hj
            refine .inr ⟨fun _ _ _ heq => hsame (Action.work.inj heq).1,
              by rw [tasks_work_of_lt hlt, if_neg hsame, hi], u.charge.seat?, e.world.lock,
              fun seat hseat hown => ?_, ?_⟩
            · exact hsame (h.exclusive j i u t seat hj hi hown hseat)
            · exact Task.step_keeps h.quiet h.world (h.charge u hmem) (h.task u hmem)
  | look j =>
      cases hj : e.observers[j]? with
      | none =>
          simp only [Engagement.act, hj]
          exact .inr ⟨nofun, hi, none, e.world.lock, fun _ _ => nofun, h.world.keeps_self⟩
      | some p =>
          rcases step_observer h.quiet h.holders_le (h.held (List.mem_of_getElem? hj)) with
            ⟨l, hworld, _⟩
          simp only [Engagement.act, hj, hworld]
          exact .inr ⟨nofun, hi, none, l, fun _ _ => nofun, World.Sound.keeps_self { h.world with }⟩
  | request =>
      exact .inr ⟨nofun, hi, none, e.world.lock, fun _ _ => nofun,
        (h.world.grants_admission h.world.admission.request).keeps⟩
  | mark id =>
      exact .inr ⟨nofun, hi, none, e.world.lock, fun _ _ => nofun, h.world.markDeleted id⟩
  | closeAdmission =>
      exact .inr ⟨nofun, hi, none, e.world.lock, fun _ _ => nofun,
        (h.world.grants_admission h.world.admission.close).keeps⟩
  | closePool =>
      exact .inr ⟨nofun, hi, none, e.world.lock, fun _ _ => nofun, h.world.closePool⟩
  | watch | stop =>
      exact .inr ⟨nofun, hi, none, e.world.lock, fun _ _ => nofun, h.world.keeps_self⟩

/-!
## A first flight
-/

def narrow : Settings :=
  { field :=
      { width := 9, height := 12, wallThickness := 1, goalStartRow := 9, missileRadius := 1 } }

def firstFlight : List Action :=
  [.hire .attacker, .work 0 true 0 0, .work 0 true 0 0, .request] ++
    List.replicate 5 (.work 0 true 0 0) ++ List.replicate 3 (.work 1 true 0 0)

end Engagement
end AirDefense

import AirDefense.Proofs.Engagement.Launches
import AirDefense.Proofs.Engagement.Pilots

/-!
# Accounts of the score

Each point is entered into the account of every missile that it is for: of the
attacker that reached the goal, or of both missiles of an interception.  No missile has
more than one entry.  A missile that has an entry is off the grid and was called off,
and so it neither moves into a collision nor is there to be hit again.
-/

namespace AirDefense

/-!
## The collision of a step
-/

namespace Flight

variable {f : Flight} {w : World}

theorem collision?_eq_some (hroom : w.grid.HasRoom w.settings.field.missileRadius)
    {c : Collision} (h : f.collision? w = some c) :
    exists leg g fleet lock, f.stage = .moved leg ∧ w.fleet.isActive f.id = true ∧
      (w.grid.clear leg.origin f.id).2.resolve? w.fleet f.id leg.destination
          w.settings.field.missileRadius = .ok (some c, g, fleet) ∧
      f.step w =
        ({ f with phase := .collided, stage := .ready }, { w with grid := g, fleet, lock }) := by
  unfold collision? at h
  split at h
  · rename_i leg hstage hfree
    rcases World.inGrid?_enter (w := w) (f.enterCell leg) .middle with
      ⟨hbusy, _⟩ | ⟨_, held, lock, hsection⟩
    · exact absurd hfree hbusy
    · rcases enterCell_cases (f := f) (w := { w with lock := held }) hroom leg with
        ⟨hinactive, _⟩ | ⟨hactive, ⟨collision, g, fleet, hresolve, heq⟩ | ⟨g, fleet, hresolve, _⟩⟩
      · rw [collisionAt?, if_neg (by simp [show w.fleet.isActive f.id = false from hinactive])]
          at h
        cases h
      · simp only at hresolve hactive
        simp only [collisionAt?, hactive, if_true, hresolve] at h
        injection h with h
        subst h
        refine ⟨leg, g, fleet, lock, hstage, hactive, hresolve, ?_⟩
        simp only [step, hstage, hsection, heq]
        rfl
      · simp only at hresolve hactive
        simp only [collisionAt?, hactive, if_true, hresolve] at h
        cases h
  · cases h

theorem spent_of_collision? (hw : w.Sound) (hc : f.charge.Sound w) {c : Collision}
    (h : f.collision? w = some c) :
    ¬ (Task.flying f).IsSpent w ∧ (Task.afterStep (f.step w).1).IsSpent (f.step w).2 := by
  rcases collision?_eq_some hw.room h with
    ⟨leg, g, fleet, lock, hstage, hactive, hresolve, hstep⟩
  have hcharge : f.charge = f.missileAt (.underway leg) := by simp only [charge, hstage]
  rw [hcharge] at hc
  rcases hc with ⟨_, _, m, hid, hcells, _⟩
  constructor
  · rintro ⟨f', hf, hlanded | ⟨_, hcalled⟩⟩
    · cases hlanded
    · injection hf with hf
      subst hf
      rcases hcalled with hgrounded | ⟨m', hid', hdeleted⟩
      · simp only [isGrounded, hstage] at hgrounded
        cases hgrounded
      · rcases Fleet.isActive_iff.mp hactive with ⟨m'', hid'', hactive⟩
        rw [hid'] at hid''
        injection hid'' with hid''
        rw [hid'', hactive] at hdeleted
        cases hdeleted
  · rw [hstep]
    refine ⟨_, Task.flight?_afterStep _, .inr ⟨fun p hp => ?_, .inl rfl⟩⟩
    have hoff : (w.grid.clear leg.origin f.id).2.occupant? p ≠ some f.id :=
      Grid.occupant?_clear_self hcells
    rcases Grid.resolve?_collided hresolve with
      ⟨_, _, ⟨_, hsame⟩ | ⟨spot, victim, _, _, _, hcells'⟩⟩
    · exact hoff (hsame p ▸ hp)
    · simp only [hcells'] at hp
      split at hp
      · cases hp
      · exact hoff hp

theorem victim_of_collision? (hw : w.Sound) {victim : MissileId}
    (h : f.collision? w = some (.intercept victim)) :
    victim ≠ f.id ∧ (exists p, w.grid.occupant? p = some victim) ∧
      (forall p, (f.step w).2.grid.occupant? p ≠ some victim) ∧
      exists m, (f.step w).2.fleet.find? victim = some m ∧ m.deleted = true := by
  rcases collision?_eq_some hw.room h with ⟨leg, g, fleet, lock, _, _, hresolve, hstep⟩
  rcases Grid.resolve?_intercept hresolve with ⟨hne, hfleet, spot, hspot, hcells⟩
  have hbefore : forall {p}, (w.grid.clear leg.origin f.id).2.occupant? p = some victim ->
      w.grid.occupant? p = some victim := (Grid.occupant?_clear_other hne).mp
  rw [hstep]
  refine ⟨hne, ⟨spot, hbefore hspot⟩, fun p hp => ?_, ?_⟩
  · simp only [hcells] at hp
    split at hp
    · cases hp
    · rename_i hother
      exact hother (hw.alone p spot victim (hbefore hp) (hbefore hspot))
  · rcases Option.isSome_iff_exists.mp (hw.live spot victim (hbefore hspot)) with ⟨m, hm⟩
    rcases (hw.markDeleted victim).missile victim m nofun hm with ⟨m', hm', _⟩
    exact ⟨m', by rw [hfleet]; exact hm', World.deleted_of_markDeleted hm'⟩

end Flight

namespace Task

variable {t : Task} {w : World}

def scorers (t : Task) (w : World) : List MissileId :=
  match t with
  | flying f =>
      match f.collision? w with
      | some c => c.scorers f.id
      | none => []
  | _ => []

theorem scorers_cases (hw : w.Sound) :
    (t.collision? w = none ∧ t.scorers w = []) ∨
      exists f c, t = .flying f ∧ f.collision? w = some c ∧ c.IsFair f.id ∧
        t.collision? w = some c ∧ t.scorers w = c.scorers f.id := by
  cases t with
  | attack l | defence l | checking f | pausing f | landed f => exact .inl ⟨rfl, rfl⟩
  | flying f =>
      cases hc : f.collision? w with
      | none => exact .inl ⟨hc, by simp only [scorers, hc]⟩
      | some c =>
          rcases Flight.collision?_eq_some hw.room hc with ⟨leg, g, fleet, lock, _, _, hresolve, _⟩
          exact .inr ⟨f, c, rfl, hc, (Grid.score_resolve? hresolve).2, hc,
            by simp only [scorers, hc]⟩

theorem shared_step (hw : w.Sound) (c : Conditions) (side : Side) :
    (t.step c w).2.grid.score.shared side =
      w.grid.score.shared side + ((t.scorers w).filter fun id => id.side = side).length := by
  rw [step_score hw]
  rcases scorers_cases (t := t) hw with
    ⟨hnone, hscorers⟩ | ⟨f, collision, _, _, hfair, hsome, hscorers⟩
  · rw [hnone, hscorers]
    rfl
  · rw [hsome, hscorers]
    exact hfair.shared_count _ side

theorem length_scorers_le (hw : w.Sound) (side : Side) :
    ((t.scorers w).filter fun id => id.side = side).length <= 1 := by
  rcases scorers_cases (t := t) hw with ⟨_, hscorers⟩ | ⟨f, c, _, _, hfair, _, hscorers⟩
  · rw [hscorers]
    exact Nat.zero_le 1
  · rw [hscorers]
    exact hfair.length_scorers_le side

theorem not_isSpent_of_occupant {id : MissileId} (haloft : t.aloft? = some id) {p : Position}
    (hp : w.grid.occupant? p = some id) : ¬ t.IsSpent w := by
  rcases flight?_of_aloft haloft with ⟨f, hf, hid, hbusy⟩
  rintro ⟨g, hg, hspent⟩
  rw [hf] at hg
  injection hg with hg
  subst hg
  rcases hspent with hlanded | ⟨hoff, _⟩
  · exact hbusy hlanded
  · exact hoff p (hid ▸ hp)

end Task

namespace Engagement

variable {e : Engagement} {side : Side} {id : MissileId} {a : Action} {i : Nat}

/-!
## Who scores
-/

def scorers (e : Engagement) (a : Action) : List MissileId :=
  match e.worker a with
  | some t => t.scorers e.world
  | none => []

def credits (side : Side) (e : Engagement) (a : Action) (i : Nat) : Bool :=
  ((e.tasks[i]?).bind Task.aloft?).any fun id =>
    decide (id.side = side) && (e.scorers a).contains id

def credited (side : Side) (e : Engagement) (a : Action) : List Nat :=
  (List.range e.tasks.length).filter (credits side e a)

/-- The flights of a side that the points of a run are entered for, point by point. -/
def ledger (side : Side) : Engagement -> List Action -> List Nat
  | _, [] => []
  | e, a :: rest => credited side e a ++ ledger side (e.act a) rest

theorem mem_credited :
    i ∈ credited side e a ↔
      exists t id, e.tasks[i]? = some t ∧ t.aloft? = some id ∧ id.side = side ∧
        id ∈ e.scorers a := by
  simp only [credited, credits, List.mem_filter, List.mem_range, Option.any_eq_true,
    Option.bind_eq_some_iff, Bool.and_eq_true, decide_eq_true_eq, List.contains_iff_mem]
  constructor
  · rintro ⟨_, id, ⟨t, ht, haloft⟩, hside, hmem⟩
    exact ⟨t, id, ht, haloft, hside, hmem⟩
  · rintro ⟨t, id, ht, haloft, hside, hmem⟩
    exact ⟨(List.getElem?_eq_some_iff.mp ht).1, id, ⟨t, ht, haloft⟩, hside, hmem⟩

theorem Sound.mover_spent (h : e.Sound) {f : Flight} (hi : e.tasks[i]? = some (.flying f))
    {c : Collision} (hc : f.collision? e.world = some c) {accepting : Bool} {now dt : Float32} :
    ¬ (Task.flying f).IsSpent e.world ∧
      exists t', (e.act (.work i accepting now dt)).tasks[i]? = some t' ∧
        t'.IsSpent (e.act (.work i accepting now dt)).world := by
  have hlt := (List.getElem?_eq_some_iff.mp hi).1
  rcases Flight.spent_of_collision? h.world (h.charge _ (List.mem_of_getElem? hi)) hc with
    ⟨hbefore, hafter⟩
  simp only [Engagement.act, hi]
  refine ⟨hbefore, Task.afterStep (f.step e.world).1, ?_, hafter⟩
  rw [tasks_work_of_lt hlt, if_pos rfl]
  rfl

theorem Sound.victim_spent (h : e.Sound) (hpiloted : e.IsPiloted) {f : Flight}
    (hi : e.tasks[i]? = some (.flying f)) {victim : MissileId}
    (hc : f.collision? e.world = some (.intercept victim)) {accepting : Bool}
    {now dt : Float32} :
    exists (j : Nat) (t : Task), e.tasks[j]? = some t ∧ t.aloft? = some victim ∧
      ¬ t.IsSpent e.world ∧ (e.act (.work i accepting now dt)).tasks[j]? = some t ∧
      t.IsSpent (e.act (.work i accepting now dt)).world := by
  rcases Flight.victim_of_collision? h.world hc with ⟨hne, ⟨p, hp⟩, hoff, hstruck⟩
  rcases hpiloted p victim hp with ⟨t, ht, haloft⟩
  rcases List.getElem?_of_mem ht with ⟨j, hj⟩
  have hother : i ≠ j := by
    intro heq
    subst heq
    rw [hi] at hj
    injection hj with hj
    rw [← hj] at haloft
    injection haloft with haloft
    exact hne haloft.symm
  rcases Task.flight?_of_aloft haloft with ⟨g, hg, hid, _⟩
  simp only [Engagement.act, hi]
  refine ⟨j, t, hj, haloft, Task.not_isSpent_of_occupant haloft hp, ?_,
    ⟨g, hg, .inr ⟨hid ▸ hoff, .inr (hid ▸ hstruck)⟩⟩⟩
  rw [tasks_work_of_lt (List.getElem?_eq_some_iff.mp hj).1, if_neg hother, hj]

theorem Sound.scorer_spent (h : e.Sound) (hpiloted : e.IsPiloted) (hid : id ∈ e.scorers a) :
    exists (i : Nat) (t t' : Task), e.tasks[i]? = some t ∧ t.aloft? = some id ∧
      ¬ t.IsSpent e.world ∧ (e.act a).tasks[i]? = some t' ∧ t'.IsSpent (e.act a).world := by
  cases a with
  | hire s | watch | look j | request | mark j | stop | closeAdmission | closePool => cases hid
  | work k accepting now dt =>
      cases hk : e.tasks[k]? with
      | none =>
          simp only [scorers, worker, hk] at hid
          cases hid
      | some u =>
          simp only [scorers, worker, hk] at hid
          rcases Task.scorers_cases (t := u) h.world with
            ⟨_, hscorers⟩ | ⟨f, c, hu, hc, _, _, hscorers⟩
          · rw [hscorers] at hid
            cases hid
          · subst hu
            rw [hscorers] at hid
            rcases Collision.eq_of_mem_scorers hid with heq | heq
            · rcases h.mover_spent hk hc with ⟨hbefore, t', ht', hafter⟩
              exact ⟨k, .flying f, t', hk, by rw [heq]; rfl, hbefore, ht', hafter⟩
            · rcases h.victim_spent hpiloted hk (heq ▸ hc) with ⟨j, t, hj, haloft, hstruck⟩
              exact ⟨j, t, t, hj, haloft, hstruck⟩

theorem Sound.eq_of_aloft (h : e.Sound) {i j : Nat} {t u : Task} (hi : e.tasks[i]? = some t)
    (hj : e.tasks[j]? = some u) (ht : t.aloft? = some id) (hu : u.aloft? = some id) : i = j :=
  h.exclusive i j t u id.seat hi hj
    (Task.seat?_of_aloft (h.task t (List.mem_of_getElem? hi)) ht)
    (Task.seat?_of_aloft (h.task u (List.mem_of_getElem? hj)) hu)

/-- A flight that is credited was not spent before, and is afterwards. -/
theorem Sound.credited_spent (h : e.Sound) (hpiloted : e.IsPiloted)
    (hi : i ∈ credited side e a) :
    (forall t, e.tasks[i]? = some t -> ¬ t.IsSpent e.world) ∧
      exists t', (e.act a).tasks[i]? = some t' ∧ t'.IsSpent (e.act a).world := by
  rcases mem_credited.mp hi with ⟨t, id, ht, haloft, _, hscorer⟩
  rcases h.scorer_spent hpiloted hscorer with ⟨j, u, u', hu, hsame, hbefore, hu', hafter⟩
  have heq : i = j := h.eq_of_aloft ht hu haloft hsame
  subst heq
  refine ⟨fun v hv => ?_, u', hu', hafter⟩
  rw [hu] at hv
  injection hv with hv
  exact hv ▸ hbefore

theorem Sound.length_credited (h : e.Sound) (hpiloted : e.IsPiloted) {side : Side}
    (a : Action) (hle : ((e.scorers a).filter fun id => id.side = side).length <= 1) :
    (credited side e a).length = ((e.scorers a).filter fun id => id.side = side).length := by
  have hmem : forall {id}, id ∈ (e.scorers a).filter (fun id => id.side = side) ↔
      id ∈ e.scorers a ∧ id.side = side := by
    simp
  cases hscorers : (e.scorers a).filter fun id => id.side = side with
  | nil =>
      rw [hscorers] at hmem
      refine congrArg List.length (List.eq_nil_iff_forall_not_mem.mpr fun i hi => ?_)
      rcases mem_credited.mp hi with ⟨_, id, _, _, hside, hscorer⟩
      exact absurd (hmem.mpr ⟨hscorer, hside⟩) List.not_mem_nil
  | cons id rest =>
      rw [hscorers] at hmem hle
      have hrest : rest = [] := List.eq_nil_of_length_eq_zero (by simpa using hle)
      subst hrest
      have hid := hmem.mp (List.mem_singleton_self id)
      rcases h.scorer_spent hpiloted hid.1 with ⟨k, t, _, ht, haloft, _⟩
      have honly : forall i, i ∈ credited side e a ↔ i ∈ [k] := by
        intro i
        rw [mem_credited, List.mem_singleton]
        constructor
        · rintro ⟨u, id', hu, haloft', hside', hscorer'⟩
          have hsame : id' = id := List.mem_singleton.mp (hmem.mpr ⟨hscorer', hside'⟩)
          exact h.eq_of_aloft hu ht (hsame ▸ haloft') haloft
        · intro heq
          exact ⟨t, id, heq ▸ ht, haloft, hid.2, hid.1⟩
      have hnodup : (credited side e a).Nodup := List.nodup_range.filter _
      exact ((List.perm_ext_iff_of_nodup hnodup (List.nodup_singleton k)).mpr honly).length_eq

theorem Sound.shared_act (h : e.Sound) (hpiloted : e.IsPiloted) (side : Side) (a : Action) :
    (e.act a).world.grid.score.shared side =
      e.world.grid.score.shared side + (credited side e a).length := by
  have hcredited := @Sound.length_credited e h hpiloted side a
  rcases h.worker_cases a with ⟨t, c, hworker, _, hworld⟩ | ⟨hworker, hgrid⟩
  · simp only [scorers, hworker] at hcredited
    rw [hcredited (Task.length_scorers_le h.world side), hworld]
    exact Task.shared_step h.world c side
  · simp only [scorers, hworker] at hcredited
    rw [hcredited (Nat.zero_le 1), hgrid]
    rfl

theorem Sound.score_act (h : e.Sound) (a : Action) :
    e.world.grid.score.attackerPoints <= (e.act a).world.grid.score.attackerPoints ∧
      e.world.grid.score.defenderPoints <= (e.act a).world.grid.score.defenderPoints := by
  rcases h.worker_cases a with ⟨t, c, _, _, hworld⟩ | ⟨_, hgrid⟩
  · rw [hworld, Task.step_score h.world]
    exact Score.le_count _ _
  · rw [hgrid]
    exact ⟨Nat.le_refl _, Nat.le_refl _⟩

/-!
## Whole runs
-/

theorem Sound.score_run (h : e.Sound) (actions : List Action) :
    e.world.grid.score.attackerPoints <= (e.run actions).world.grid.score.attackerPoints ∧
      e.world.grid.score.defenderPoints <= (e.run actions).world.grid.score.defenderPoints := by
  induction actions generalizing e with
  | nil => exact ⟨Nat.le_refl _, Nat.le_refl _⟩
  | cons a rest ih =>
      have hfirst := h.score_act a
      have hrest := ih (h.act a)
      exact ⟨Nat.le_trans hfirst.1 hrest.1, Nat.le_trans hfirst.2 hrest.2⟩

theorem Sound.shared_run (h : e.Sound) (hpiloted : e.IsPiloted) (side : Side)
    (actions : List Action) :
    (e.run actions).world.grid.score.shared side =
      e.world.grid.score.shared side + (ledger side e actions).length := by
  induction actions generalizing e with
  | nil => rfl
  | cons a rest ih =>
      have hrest := ih (h.act a) (h.piloted_act hpiloted a)
      rw [h.shared_act hpiloted] at hrest
      rw [ledger, List.length_append, ← Nat.add_assoc]
      exact hrest

/-- Nobody that is spent is credited again. -/
theorem Sound.ledger_nodup (h : e.Sound) (hpiloted : e.IsPiloted) (side : Side)
    (actions : List Action) :
    (ledger side e actions).Nodup ∧
      forall i, i ∈ ledger side e actions ->
        forall t, e.tasks[i]? = some t -> ¬ t.IsSpent e.world := by
  induction actions generalizing e with
  | nil => exact ⟨List.nodup_nil, nofun⟩
  | cons a rest ih =>
      rcases ih (h.act a) (h.piloted_act hpiloted a) with ⟨hnodup, hunspent⟩
      constructor
      · refine (List.nodup_range.filter _).append hnodup fun i hi hlater => ?_
        rcases (h.credited_spent hpiloted hi).2 with ⟨t', ht', hspent⟩
        exact hunspent i hlater t' ht' hspent
      · intro i hi t ht hspent
        rcases List.mem_append.mp hi with hnow | hlater
        · exact (h.credited_spent hpiloted hnow).1 t ht hspent
        · rcases h.spent_act ht hspent a with ⟨t', ht', hspent'⟩
          exact hunspent i hlater t' ht' hspent'

theorem Sound.flight_of_mem_ledger (h : e.Sound) {actions : List Action}
    (hi : i ∈ ledger side e actions) :
    exists t f, (e.run actions).tasks[i]? = some t ∧ t.flight? = some f ∧ f.id.side = side := by
  induction actions generalizing e with
  | nil => cases hi
  | cons a rest ih =>
      rcases List.mem_append.mp hi with hnow | hlater
      · rcases mem_credited.mp hnow with ⟨t, id, ht, haloft, hside, _⟩
        rcases Task.flight?_of_aloft haloft with ⟨f, hf, hid, _⟩
        rcases h.flight_run ht hf (a :: rest) with ⟨t', r, ht', hr, hsame⟩
        exact ⟨t', r, ht', hr, by rw [hsame, hid, hside]⟩
      · exact ih (h.act a) hlater

theorem length_le_carriers {indices : List Nat} (hnodup : indices.Nodup)
    (hmem : forall i, i ∈ indices ->
      exists t f, e.tasks[i]? = some t ∧ t.flight? = some f ∧ f.id.side = side) :
    indices.length <= e.carriers side := by
  have hcarriers : e.carriers side =
      ((List.range e.tasks.length).filter fun i =>
        (e.tasks[i]?).any (Task.hasMissile side)).length := by
    have htasks : (List.range e.tasks.length).map (fun i => e.tasks[i]?) = e.tasks.map some := by
      apply List.ext_getElem?
      intro i
      simp only [List.getElem?_map]
      by_cases hi : i < e.tasks.length
      · simp [hi]
      · simp [hi]
    have hcount := congrArg (List.countP fun t? => t?.any (Task.hasMissile side)) htasks
    rw [List.countP_map, List.countP_map] at hcount
    rw [carriers, ← List.countP_eq_length_filter]
    exact hcount.symm
  rw [hcarriers]
  apply (List.subperm_of_subset hnodup fun i hi => ?_).length_le
  rcases hmem i hi with ⟨t, f, ht, hf, hside⟩
  have hmissile : t.hasMissile side = true := by
    rw [Task.hasMissile, Task.missile?_flight hf]
    simpa using hside
  simp only [List.mem_filter, List.mem_range, ht, Option.any_some, hmissile, and_true]
  exact (List.getElem?_eq_some_iff.mp ht).1

/--
In every order of actions no point is taken back; each point is one flight's of either
side that has a part in it, and no flight has a part in two points.  So the points are
no more than the missiles that were launched.
-/
theorem no_missile_scores_twice {s : Settings} {w : World} (hvalid : s.validate = .ok (.ok ()))
    (hw : World.ofSettings? s = .ok w) (actions more : List Action) :
    let e := (start w).run actions
    let score := e.world.grid.score
    let later := (e.run more).world.grid.score
    (score.attackerPoints <= later.attackerPoints ∧
        score.defenderPoints <= later.defenderPoints) ∧
      (forall side, (ledger side (start w) actions).Nodup ∧
        forall i, i ∈ ledger side (start w) actions ->
          exists t f, e.tasks[i]? = some t ∧ t.flight? = some f ∧ f.id.side = side) ∧
      (ledger .attacker (start w) actions).length =
        score.attackerPoints + score.defenderPoints ∧
      (ledger .defender (start w) actions).length = score.defenderPoints ∧
      score.attackerPoints + score.defenderPoints <= launches .attacker (start w) actions ∧
      score.defenderPoints <= launches .defender (start w) actions := by
  intro e score later
  have hstart := start_sound hvalid hw
  have hpiloted := start_piloted hw
  have hzero : (start w).world.grid.score = .zero :=
    Grid.score_ofSettings? (World.isFresh_of_ofSettings? hw).grid
  have hshared : forall side, (ledger side (start w) actions).length = score.shared side := by
    intro side
    have hrun := hstart.shared_run hpiloted side actions
    rw [hzero] at hrun
    cases side <;> simpa [Score.zero, Score.shared] using hrun.symm
  have hbound : forall side, score.shared side <= launches side (start w) actions := by
    intro side
    have hledger := length_le_carriers (hstart.ledger_nodup hpiloted side actions).1
      fun i hi => hstart.flight_of_mem_ledger hi
    have hcarriers := hstart.carriers_run side actions
    rw [hshared] at hledger
    exact Nat.le_trans hledger (by simpa [carriers, start] using hcarriers)
  exact ⟨(hstart.run actions).score_run more,
    fun side => ⟨(hstart.ledger_nodup hpiloted side actions).1,
      fun i hi => hstart.flight_of_mem_ledger hi⟩,
    hshared .attacker, hshared .defender, hbound .attacker, hbound .defender⟩

def roomy : Settings :=
  { field :=
      { width := 12, height := 12, wallThickness := 1, goalStartRow := 9, missileRadius := 1 } }

def firstGoal : List Action :=
  [.hire .attacker, .work 0 true 0 0, .work 0 true 0 0, .request] ++
    List.replicate 5 (.work 0 true 0 0.125) ++ List.replicate 3 (.work 1 true 0 0)

theorem no_missile_scores_twice_first_goal :
    roomy.validate = .ok (.ok ()) ∧ exists w, World.ofSettings? roomy = .ok w ∧
      ((start w).run firstGoal).world.grid.score = ⟨1, 0⟩ ∧
      (ledger .attacker (start w) firstGoal).length = 1 ∧
      1 <= launches .attacker (start w) firstGoal := by
  have hvalid : roomy.validate = .ok (.ok ()) := by decide +kernel
  have hscored : ((World.ofSettings? roomy).toOption.map fun w =>
      ((start w).run firstGoal).world.grid.score) = some ⟨1, 0⟩ := by
    decide +kernel
  cases hw : World.ofSettings? roomy with
  | error fault =>
      rw [hw] at hscored
      cases hscored
  | ok w =>
      simp only [hw, Except.toOption, Option.map_some] at hscored
      have hscore := Option.some.inj hscored
      rcases no_missile_scores_twice hvalid hw firstGoal [] with
        ⟨_, _, hattackers, _, hlaunched, _⟩
      rw [hscore] at hattackers hlaunched
      exact ⟨hvalid, w, rfl, hscore, hattackers, hlaunched⟩

end Engagement
end AirDefense

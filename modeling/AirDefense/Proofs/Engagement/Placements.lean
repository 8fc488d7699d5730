import AirDefense.Proofs.Engagement.Marks

/-!
# Missiles on their way to the grid

No attacker is assigned to anybody before it is on the grid.  So a flight that places
its missile for the first time gives it a cell without a mark, and one that moves it on
finds the mark in the cell that the missile comes from.
-/

namespace AirDefense

namespace World

variable {w w' : World}

/-!
## Sections
-/

theorem tends_of_grid (hgrid : w'.grid = w.grid)
    (hrenews : forall side, (w.fleet.arena side).Renews (w'.fleet.arena side)) : w.Tends w' :=
  { renews := hrenews
    held := fun _ => hgrid
    carries := fun p _ _ hp => .inl ⟨p, hgrid ▸ hp⟩ }

theorem tends_of_fleet (hgrid : w'.grid = w.grid) (hfleet : w'.fleet = w.fleet) : w.Tends w' :=
  tends_of_grid hgrid fun side => by
    rw [hfleet]
    exact .refl _

theorem tends_self (w : World) : w.Tends w :=
  tends_of_fleet rfl rfl

theorem tends_setArena {side : Side} {a : Arena} (h : (w.fleet.arena side).Renews a) :
    w.Tends (w.setArena side a) := by
  refine tends_of_grid rfl fun t => ?_
  rw [World.setArena, Fleet.arena_setArena]
  split
  · rename_i heq
    exact heq ▸ h
  · exact .refl _

theorem Handles.tends (h : w.Handles w') : w.Tends w' := by
  cases h with
  | supply hsettings hgrid hlock hfleet => exact tends_of_fleet hgrid hfleet
  | spawn hspawn htarget => exact tends_setArena (Arena.renews_spawn? hspawn)
  | vacate hvacate => exact tends_setArena (Arena.renews_vacate? hvacate)
  | change side id htarget => exact tends_setArena (Arena.renews_update htarget)

theorem inGrid?_free (act : World -> α × World) (t : Tier) {x : α} :
    (w.inGrid? t act).getD (x, w) = (x, w) ∨
      (w.lock.holders = 0 ∧ exists held lock, (w.inGrid? t act).getD (x, w) =
        ((act { w with lock := held }).1, { (act { w with lock := held }).2 with lock })) := by
  rcases inGrid?_enter (w := w) act t with ⟨_, hwait⟩ | ⟨hfree, held, lock, hsection⟩
  · rw [hwait]
    exact .inl rfl
  · rw [hsection]
    refine .inr ⟨?_, held, lock, rfl⟩
    cases henter : w.lock.enter t with
    | mk ticket next =>
        rw [henter] at hfree
        cases hfree
        exact (FieldLock.enter_eq_none henter).1

theorem tends_inGrid? {act : World -> α × World} {x : α} {t : Tier}
    (hrenews : forall held side, (w.fleet.arena side).Renews
      ((act { w with lock := held }).2.fleet.arena side))
    (hcarries : forall held, w.Carries (act { w with lock := held }).2) :
    w.Tends ((w.inGrid? t act).getD (x, w)).2 := by
  rcases inGrid?_free (w := w) act t with hwait | ⟨hfree, held, lock, hsection⟩
  · rw [hwait]
    exact tends_self w
  · rw [hsection]
    exact
      { renews := hrenews held
        held := fun hheld => absurd hfree hheld
        carries := hcarries held }

end World

variable {w : World} {c : Conditions}

/-!
## Flights
-/

namespace Flight

/-- What a flight can tell of its missile before it moves the missile on the grid. -/
def Traced (f : Flight) (w : World) : Prop :=
  match f.stage with
  | .ready => f.phase = .spawned -> w.IsUnplaced f.id
  | .moved leg =>
      w.IsUnplaced f.id ∨ forall m, w.fleet.find? f.id = some m -> m.deleted = false ->
        w.grid.occupant? leg.origin = some f.id
  | _ => True

variable {f : Flight}

theorem movedCell_carried {id other : MissileId} (hside : id.side = .attacker)
    (mark : Option MissileId) :
    movedCell (some (.attacker other mark)) id = .attacker id mark := by
  simp only [movedCell, hside]

theorem movedCell_none (id : MissileId) : movedCell none id = .missile id := by
  unfold movedCell
  split
  · rename_i heq
    cases heq
  · rfl

theorem mark_of_movedCell (htyped : w.grid.IsTyped) {leg : Leg} {a : MissileId}
    {mark : Option MissileId} (hplace : w.IsUnplaced f.id ∨
      w.grid.occupant? leg.origin = some f.id)
    (hcell : movedCell (w.grid.clear leg.origin f.id).1 f.id = .attacker a mark) :
    (exists q, w.grid.cell? q = some (.attacker a mark)) ∨ (mark = none ∧ w.IsUnplaced a) := by
  have hmissile : (Cell.attacker a mark).unmarked = .missile f.id :=
    hcell ▸ unmarked_movedCell _ _
  have hside := Cell.side_of_unmarked hmissile
  rcases hplace with hunplaced | hat
  · have hnone : (w.grid.clear leg.origin f.id).1 = none := by
      rw [Option.eq_none_iff_forall_not_mem]
      intro b hb
      rcases Grid.clear_eq_some.mp hb with ⟨hb, hid⟩
      exact hunplaced.1 leg.origin (Grid.occupant?_eq_some_iff.mpr ⟨b, hb, hid⟩)
    rw [hnone, movedCell_none, Cell.missile, hside] at hcell
    injection hcell with hid hmark
    exact .inr ⟨hmark.symm, hid ▸ hunplaced⟩
  · rcases htyped.attacker hat hside with ⟨mark', horigin⟩
    rw [Grid.clear_eq_some.mpr ⟨horigin, rfl⟩, movedCell_carried hside] at hcell
    exact .inl ⟨leg.origin, hcell ▸ horigin⟩

theorem enterCell_carries (hroom : w.grid.HasRoom w.settings.field.missileRadius)
    (htyped : w.grid.IsTyped) {leg : Leg} (hstage : f.stage = .moved leg) (hf : f.Traced w) :
    w.Carries (f.enterCell leg w).2 := by
  have hcleared := Grid.carries_clear w.grid leg.origin f.id
  intro p a mark hp
  rcases enterCell_cases hroom leg with ⟨_, heq⟩ | ⟨hactive, ⟨collision, g, fleet, hresolve, heq⟩ |
    ⟨g, fleet, hresolve, heq⟩⟩
  · rw [heq] at hp
    exact .inl (hcleared p a mark hp)
  · rw [heq] at hp
    exact .inl ((hcleared.trans (Grid.carries_resolve? hresolve)) p a mark hp)
  · rw [heq, Grid.cell?_write (Grid.resolve?_free hresolve).1] at hp
    split at hp
    · simp only [Traced, hstage] at hf
      injection hp with hp
      refine mark_of_movedCell htyped (hf.imp_right fun hat => ?_) hp
      rcases Fleet.isActive_iff.mp hactive with ⟨m, hm, hdeleted⟩
      exact hat m hm hdeleted
    · exact .inl (hcleared p a mark hp)

theorem enterCell_renews (leg : Leg) (side : Side) :
    (w.fleet.arena side).Renews ((f.enterCell leg w).2.fleet.arena side) := by
  unfold enterCell
  simp only
  split
  · exact .refl _
  · split
    · exact .refl _
    · rename_i hresolve
      rcases Grid.resolve?_collided hresolve with ⟨_, _, ⟨hfleet, _⟩ | ⟨_, victim, _, _, hfleet, _⟩⟩
      · rw [hfleet]
        exact .refl _
      · rw [hfleet]
        exact (w.handles_markDeleted victim).tends.renews side
    · split <;> exact .refl _

theorem step_tends (hroom : w.grid.HasRoom w.settings.field.missileRadius)
    (htyped : w.grid.IsTyped) (hf : f.Traced w) : w.Tends (f.step w).2 := by
  rcases f.step_cases w with ⟨_, hhandles⟩ | ⟨leg, hstage, hstep⟩ | ⟨cell, _, hstep⟩
  · exact hhandles.tends
  · rw [hstep]
    exact World.tends_inGrid? (fun held => enterCell_renews (w := { w with lock := held }) leg)
      fun held => enterCell_carries (w := { w with lock := held }) hroom htyped hstage hf
  · rw [hstep]
    exact World.tends_inGrid? (fun held side => .refl _)
      fun held p a mark hp => .inl (Grid.carries_clear _ _ _ p a mark hp)

theorem traced_ready (hstage : f.stage = .ready) (hphase : f.phase ≠ .spawned) :
    f.Traced w := by
  simp only [Traced, hstage]
  exact fun h => absurd h hphase

theorem traced_depart (hplace : w.IsUnplaced f.id ∨
    (f.missileAt .settled).Sound w) : (f.depart w).1.Traced (f.depart w).2 := by
  have hnone := (f.depart_handles (w := w)).eases.beginsNone
  unfold depart at hnone ⊢
  cases hadvance : (w.fleet.arena f.id.side).advance f.id f.dt with
  | none => trivial
  | some moved =>
      rcases moved with ⟨leg, arena⟩
      rcases Arena.advance_eq_some hadvance with ⟨m, hm, hdeleted, hleg, _⟩
      rw [hadvance] at hnone
      rcases hplace with ⟨habsent, hfree⟩ | ⟨_, _, m', hm', _, hat⟩
      · exact .inl ⟨habsent, fun d hd => hfree d (hnone d _ hd)⟩
      · have hsame : m' = m := Option.some.inj (hm'.symm.trans hm)
        subst hsame hleg
        exact .inr fun _ _ _ => hat hdeleted

theorem step_traced (hw : w.Sound) (hc : f.charge.Sound w) (hf : f.Traced w) :
    (f.step w).1.Traced (f.step w).2 := by
  have hlookUp : (f.lookUp w).1.Traced (f.lookUp w).2 := by
    unfold lookUp
    split <;> trivial
  cases hstage : f.stage with
  | ready =>
      simp only [Traced, hstage] at hf
      cases hphase : f.phase with
      | spawned =>
          simp only [step, hstage, hphase]
          exact traced_depart (.inl (hf hphase))
      | moving =>
          have hcharge : f.charge = f.missileAt .settled := by simp only [charge, hstage, hphase]
          simp only [step, hstage, hphase]
          exact traced_depart (.inr (hcharge ▸ hc))
      | collided | externallyDeleted =>
          simp only [step, hstage, hphase]
          exact hlookUp
      | cleared =>
          simp only [step, hstage, hphase]
          exact traced_ready hstage (by simp [hphase])
  | moved leg =>
      simp only [step, hstage]
      rcases World.inGrid?_free (w := w) (f.enterCell leg) .middle (x := f) with
        hwait | ⟨_, held, lock, hsection⟩
      · rw [hwait]
        exact hf
      · rw [hsection]
        rcases enterCell_cases (f := f) (w := { w with lock := held }) hw.room leg with
          ⟨_, heq⟩ | ⟨_, ⟨collision, g, fleet, _, heq⟩ | ⟨g, fleet, _, heq⟩⟩
        · rw [heq]
          trivial
        · rw [heq]
          exact traced_ready rfl (by simp)
        · rw [heq]
          exact traced_ready rfl (by simp)
  | ending =>
      simp only [step, hstage]
      exact hlookUp
  | clearing cell =>
      simp only [step, hstage]
      rcases World.inGrid?_free (w := w) (f.clearCell cell) .middle (x := f) with
        hwait | ⟨_, held, lock, hsection⟩
      · rw [hwait]
        exact hf
      · rw [hsection]
        trivial
  | vacating =>
      simp only [step, hstage, vacate]
      split <;> trivial
  | returning =>
      simp only [step, hstage, giveBack]
      split
      · exact traced_ready rfl (by simp)
      · trivial
  | broken fault =>
      simp only [step, hstage]
      exact hf

end Flight

/-!
## Launchers
-/

theorem Attempt.side_of_charge {a : Attempt} {seat : Seat} (h : a.charge.seat? = some seat) :
    seat.side = .defender := by
  cases a with
  | equipped slot | reserved id | watching watch | pausing watch | watched watch | aiming watch
  | launching id | retreating id | returning slot =>
      injection h with h
      rw [← h]
  | seeking | queued | ended launched | broken fault => cases h

/-- A launcher that is about to start a flight has an attacker that is yet to be placed. -/
def AttackLauncher.Traced (l : AttackLauncher) (w : World) : Prop :=
  match l with
  | launching id => w.IsUnplaced id
  | _ => True

/-- An interceptor that is yet to make its claim was assigned nothing. -/
def Attempt.Traced (a : Attempt) (w : World) : Prop :=
  match a with
  | reserved id => forall target, ¬ w.fleet.defenders.Pursues id target
  | _ => True

def DefenceLauncher.Traced (l : DefenceLauncher) (w : World) : Prop :=
  match l with
  | attempting a => a.Traced w
  | _ => True

theorem World.Agrees.isUnplaced_of_spawn? {underway : MissileId -> MissileId -> Prop}
    (h : w.Agrees underway) (hw : w.Sound) {slot : Nat} {m : Missile} {id : MissileId} {w' : World}
    (hspawn : w.spawn? .attacker slot m = .ok (id, w')) (hlasts : w.Lasts w') :
    w'.IsUnplaced id := by
  rcases World.spawn?_eq_ok hspawn with ⟨a, ha, heq⟩
  have hside : id.side = .attacker := (Arena.spawn?_eq_ok ha).1.trans (hw.arena_side .attacker)
  have hgone : w.fleet.find? id = none := by
    rw [Fleet.find?, hside]
    exact Arena.find?_of_spawn? ha
  subst heq
  refine ⟨hw.not_occupant hgone, fun d hd => ?_⟩
  have hlast : w.fleet.attackers.count slot + 1 < UInt32.size := by
    have hlast := hlasts .attacker slot
    have hfills : w.fleet.attackers.fills a slot = true := Arena.fills_spawn? ha
    rwa [show (w.setArena .attacker a).fleet.arena .attacker = a from rfl,
      show w.fleet.arena .attacker = w.fleet.attackers from rfl, hfills] at hlast
  exact Arena.not_hasIssued_of_spawn? ha hlast (h.targets d id hd)

theorem AttackLauncher.step_traced {l : AttackLauncher} {underway : MissileId -> MissileId -> Prop}
    (hw : w.Sound) (hagrees : w.Agrees underway) (hlasts : w.Lasts (l.step c w).2) :
    (l.step c w).1.Traced (l.step c w).2 := by
  cases l with
  | loaded slot m =>
      simp only [step] at hlasts ⊢
      cases hspawn : w.spawn? .attacker slot m with
      | error fault => trivial
      | ok r =>
          rcases r with ⟨id, w'⟩
          rw [hspawn] at hlasts
          exact hagrees.isUnplaced_of_spawn? hw hspawn hlasts
  | idle | drawn slot | launching id =>
      simp only [step]
      split <;> trivial
  | drawing | parked =>
      simp only [step, take]
      split <;> trivial
  | armed slot | retreating id | returning slot =>
      simp only [step]
      split <;> trivial
  | cooling | ended | broken fault => trivial

theorem Attempt.step_traced {a : Attempt} (ha : forall id, a ≠ reserved id) :
    (a.step c w).1.Traced (a.step c w).2 := by
  cases a with
  | equipped slot =>
      simp only [step, reserve]
      split
      · rename_i id w' hspawn
        rcases World.spawn?_eq_ok hspawn with ⟨arena, harena, heq⟩
        rintro target ⟨m, hm, htarget⟩
        rw [heq] at hm
        rw [show (w.setArena .defender arena).fleet.defenders = arena from rfl,
          (Arena.spawn?_eq_ok harena).2.2.2.2.2, if_pos rfl] at hm
        cases hm
        cases htarget
      · trivial
  | reserved id => exact absurd rfl (ha id)
  | seeking | queued =>
      simp only [step, take]
      split <;> trivial
  | watching watch =>
      simp only [step, observe, readTarget]
      split
      · trivial
      · split
        · trivial
        · split
          · trivial
          · split
            · trivial
            · split <;> trivial
  | aiming watch =>
      simp only [step, aim]
      split <;> trivial
  | pausing watch | watched watch | launching id | retreating id | returning slot =>
      simp only [step]
      split <;> trivial
  | ended launched | broken fault => trivial

theorem DefenceLauncher.step_traced {l : DefenceLauncher}
    (hl : forall id, l ≠ attempting (.reserved id)) : (l.step c w).1.Traced (l.step c w).2 := by
  have hafter : forall {a : Attempt} {w' : World}, a.Traced w' ->
      (afterAttempt a).Traced w' := by
    intro a w' ha
    cases a with
    | reserved id => exact ha
    | seeking | queued | equipped slot | watching watch | pausing watch | watched watch
    | aiming watch | launching id | retreating id | returning slot | ended launched
    | broken fault => trivial
  cases l with
  | idle =>
      simp only [step]
      split <;> trivial
  | attempting a => exact hafter (Attempt.step_traced fun id hid => hl id (by rw [hid]))
  | pausing | ended | broken fault => trivial

/-!
## Tasks
-/

/-- New pursuits are those of the interceptor in `own`, and of attackers on the grid. -/
def World.BeginsOnly (own : Option Seat) (w w' : World) : Prop :=
  forall d target, w'.fleet.defenders.Pursues d target ->
    w.fleet.defenders.Pursues d target ∨
      (own = some d.seat ∧ exists p, w.grid.occupant? p = some target)

section Others

variable {w' : World} {own : Option Seat}

theorem World.IsUnplaced.of_keeps {id : MissileId} (h : w.IsUnplaced id) (hk : w.Keeps own w')
    (hbegins : w.BeginsOnly own w') (hne : own ≠ some id.seat) : w'.IsUnplaced id := by
  refine ⟨fun p hp => h.1 p (hk.occupant id p hne hp), fun d hd => ?_⟩
  rcases hbegins d id hd with hold | ⟨_, p, hp⟩
  · exact h.2 d hold
  · exact h.1 p hp

theorem Flight.Traced.of_keeps {f : Flight} (h : f.Traced w) (hc : f.charge.Sound w)
    (hk : w.Keeps own w') (hbegins : w.BeginsOnly own w')
    (hne : forall seat, f.charge.seat? = some seat -> own ≠ some seat) : f.Traced w' := by
  cases hstage : f.stage with
  | ready =>
      simp only [Traced, hstage] at h ⊢
      intro hphase
      have hcharge : f.charge = f.missileAt .nowhere := by simp only [charge, hstage, hphase]
      exact (h hphase).of_keeps hk hbegins (hne _ (by rw [hcharge]; rfl))
  | moved leg =>
      simp only [Traced, hstage] at h ⊢
      have hcharge : f.charge = f.missileAt (.underway leg) := by simp only [charge, hstage]
      have hseat : own ≠ some f.id.seat := hne _ (by rw [hcharge]; rfl)
      rw [hcharge] at hc
      rcases hc with ⟨_, _, m, hm, _⟩
      rcases hk.missile f.id m hseat hm with ⟨m', hm', _, hactive⟩
      refine h.imp (fun hunplaced => hunplaced.of_keeps hk hbegins hseat) ?_
      intro hat m'' hm'' hdeleted
      rw [hm'] at hm''
      cases hm''
      exact hk.kept f.id _ m' hseat (hat m hm (hactive hdeleted)) hm' hdeleted
  | ending | clearing cell | vacating | returning | broken fault =>
      simp only [Traced, hstage]

end Others

namespace Task

def Traced (t : Task) (w : World) : Prop :=
  match t with
  | attack l => l.Traced w
  | defence l => l.Traced w
  | checking f => f.Traced w
  | flying f => f.Traced w
  | pausing f => f.Traced w
  | landed _ => True

variable {t : Task} {w' : World} {own : Option Seat} {underway : MissileId -> MissileId -> Prop}

theorem traced_relock {l : FieldLock} : t.Traced { w with lock := l } ↔ t.Traced w := by
  cases t <;> exact Iff.rfl

theorem Traced.of_keeps (h : t.Traced w) (hc : t.charge.Sound w) (hk : w.Keeps own w')
    (hbegins : w.BeginsOnly own w')
    (hne : forall seat, t.charge.seat? = some seat -> own ≠ some seat) : t.Traced w' := by
  cases t with
  | attack l =>
      cases l with
      | launching id =>
          have hseat : own ≠ some id.seat := by
            rw [show id.seat = ⟨.attacker, id.slot⟩ from hc.1]
            exact hne _ rfl
          exact World.IsUnplaced.of_keeps h hk hbegins hseat
      | idle | drawing | parked | drawn slot | armed slot | loaded slot m | cooling
      | retreating id | returning slot | ended | broken fault => trivial
  | defence l =>
      cases l with
      | attempting a =>
          cases a with
          | reserved id =>
              have hseat : own ≠ some id.seat := by
                rw [show id.seat = ⟨.defender, id.slot⟩ from hc.1]
                exact hne _ rfl
              intro target hpursues
              rcases hbegins id target hpursues with hold | ⟨hown, _⟩
              · exact h target hold
              · exact hseat hown
          | seeking | queued | equipped slot | watching watch | pausing watch | watched watch
          | aiming watch | launching id | retreating id | returning slot | ended launched
          | broken fault => trivial
      | idle | pausing | ended | broken fault => trivial
  | checking f => exact Flight.Traced.of_keeps h hc hk hbegins hne
  | flying f => exact Flight.Traced.of_keeps h hc hk hbegins hne
  | pausing f => exact Flight.Traced.of_keeps h hc hk hbegins hne
  | landed f => trivial

theorem traced_afterStep {f : Flight} (h : f.Traced w) : (afterStep f).Traced w := by
  unfold afterStep
  split
  · exact h
  · split
    · trivial
    · exact h

theorem beginsOnly_of_eases (h : w.Eases w') : w.BeginsOnly own w' :=
  fun d target hpursues => .inl (h.beginsNone d target hpursues)

theorem step_tends (hw : w.Sound) (htyped : w.grid.IsTyped) (h : t.Traced w)
    (hclaimant : t.claimant? = none) : w.Tends (t.step c w).2 := by
  rcases step_cases hclaimant with hhandles | ⟨f, heq⟩
  · exact hhandles.tends
  · subst heq
    exact Flight.step_tends hw.room htyped h

/-- A task can tell of its missile after a step what it has to, unless the step is a claim. -/
theorem step_traced (hw : w.Sound) (hc : t.charge.Sound w) (h : t.Traced w)
    (hagrees : w.Agrees underway) (hclaimant : t.claimant? = none)
    (hlasts : w.Lasts (t.step c w).2) : (t.step c w).1.Traced (t.step c w).2 := by
  cases t with
  | attack l => exact AttackLauncher.step_traced hw hagrees hlasts
  | defence l =>
      refine DefenceLauncher.step_traced fun id hid => ?_
      rw [hid] at hclaimant
      cases hclaimant
  | checking f =>
      simp only [step]
      split
      · exact h
      · exact Flight.Traced.of_keeps h hc (hw.markDeleted f.id)
          (beginsOnly_of_eases ⟨rfl, Fleet.beginsNone_markDeleted f.id⟩) fun _ _ h => by cases h
  | flying f => exact traced_afterStep (Flight.step_traced hw hc h)
  | pausing f => exact h
  | landed f => trivial

theorem starts_traced (hw : w.Sound) (hc : t.charge.Sound w) (h : t.Traced w)
    (hagrees : w.Agrees underway) {id : MissileId} (hstarts : t.starts? c = some id)
    (dt : Float32) : ((Duty.flight id).begin dt).Traced w := by
  have hcharge := (step_starts hc hstarts).2.2.2.1
  suffices hunplaced : w.IsUnplaced id from fun _ => hunplaced
  cases t with
  | attack l =>
      cases l with
      | launching other =>
          simp only [starts?, AttackLauncher.starts?] at hstarts
          split at hstarts
          · cases hstarts
            exact h
          · cases hstarts
      | idle | drawing | parked | drawn slot | armed slot | loaded slot m | cooling
      | retreating other | returning slot | ended | broken fault => cases hstarts
  | defence l =>
      have hseat : forall seat, (Task.defence l).charge.seat? = some seat ->
          seat.side = .defender := by
        cases l with
        | attempting a => exact fun _ => Attempt.side_of_charge
        | idle | pausing | ended | broken fault =>
            intro seat h
            cases h
      have hside : id.side = .defender := hseat id.seat (by rw [hcharge]; rfl)
      rw [hcharge] at hc
      rcases hc with ⟨_, _, m, _, habsent⟩
      refine ⟨habsent, fun d hd => ?_⟩
      have hattacker := (hagrees.targets d id hd).1.trans (hw.arena_side .attacker)
      rw [hside] at hattacker
      cases hattacker
  | checking f | flying f | pausing f | landed f => cases hstarts

end Task
end AirDefense

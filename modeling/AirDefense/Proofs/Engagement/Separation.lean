import AirDefense.Proofs.Engagement.Handling
import AirDefense.Proofs.Engagement.Interleaving
import AirDefense.Proofs.Field.Separation

/-!
# Separation of missiles

A flight that moves its missile on the grid looks around where the missile comes to,
and calls the move off if there is anything to run into.  All that other tasks do to
the grid is to clear cells and to mark them.  So missiles keep clear of each other
and of walls, and attackers of the goal band, wherever they may fly.
-/

namespace AirDefense

structure World.Drives (w w' : World) : Prop where
  settings_eq : w'.settings = w.settings
  grid : w.grid.Shifts w.settings.field.missileRadius w'.grid

namespace World

variable {w w' : World}

theorem drives_of_eq (hsettings : w'.settings = w.settings) (hgrid : w'.grid = w.grid) :
    w.Drives w' :=
  ⟨hsettings, .inl (.of_eq hgrid)⟩

theorem drives_self (w : World) : w.Drives w :=
  drives_of_eq rfl rfl

theorem Handles.drives (h : w.Handles w') : w.Drives w' :=
  drives_of_eq h.settings_eq h.grid_eq

theorem drives_inGrid? {act : World -> α × World} {x : α} {t : Tier}
    (h : forall held, ({ w with lock := held } : World).Drives (act { w with lock := held }).2) :
    w.Drives ((w.inGrid? t act).getD (x, w)).2 := by
  rcases inGrid?_enter (w := w) act t with ⟨_, hwait⟩ | ⟨_, held, lock, hsection⟩
  · rw [hwait]
    exact drives_self w
  · rw [hsection]
    exact ⟨(h held).settings_eq, (h held).grid⟩

end World

variable {w : World} {c : Conditions}

/-!
## Flights
-/

namespace Flight

variable {f : Flight}

theorem unmarked_movedCell (previous : Option Cell) (id : MissileId) :
    (movedCell previous id).unmarked = .missile id := by
  unfold movedCell
  split
  · rename_i hside
    rw [Cell.missile, hside]
    rfl
  · unfold Cell.missile
    split <;> rfl

/-- A move ends with the missile off the grid, or where nothing is in its way. -/
theorem enterCell_drives (hw : w.Sound) {leg : Leg}
    (hc : (f.missileAt (.underway leg)).Sound w) : w.Drives (f.enterCell leg w).2 := by
  rcases hc with ⟨_, _, m, _, hcells, _⟩
  have hcleared := Grid.thins_clear w.grid leg.origin f.id
  rcases enterCell_cases hw.room leg with ⟨_, heq⟩ | ⟨_, ⟨collision, g, fleet, hresolve, heq⟩ |
    ⟨g, fleet, hresolve, heq⟩⟩
  · rw [heq]
    exact ⟨rfl, .inl hcleared⟩
  · rw [heq]
    exact ⟨rfl, .inl (hcleared.trans (Grid.thins_resolve? hresolve))⟩
  · rw [heq]
    refine ⟨rfl, .inr ⟨f.id, leg.origin, leg.destination, _, ?_, rfl⟩⟩
    exact
      { radius_nonneg := hw.room.radius_nonneg
        inBounds := (Grid.resolve?_free hresolve).1
        absent := fun q => Grid.occupant?_clear_self hcells
        unhindered := fun q b hle hb => Grid.resolve?_unhindered hresolve hle hb
        cell_eq := unmarked_movedCell _ _ }

theorem step_drives (hw : w.Sound) (hc : f.charge.Sound w) : w.Drives (f.step w).2 := by
  rcases f.step_cases w with ⟨_, hhandles⟩ | ⟨leg, hstage, hstep⟩ | ⟨cell, _, hstep⟩
  · exact hhandles.drives
  · have hcharge : f.charge = f.missileAt (.underway leg) := by simp only [charge, hstage]
    rw [hcharge] at hc
    rw [hstep]
    exact World.drives_inGrid? fun held =>
      enterCell_drives (w := { w with lock := held }) { hw with } (Charge.sound_relock.mpr hc)
  · rw [hstep]
    exact World.drives_inGrid? fun held => ⟨rfl, .inl (Grid.thins_clear _ _ _)⟩

end Flight

/-!
## Tasks
-/

namespace Task

theorem claimTarget_drives (id : MissileId) : w.Drives (Attempt.claimTarget id w).2 := by
  unfold Attempt.claimTarget Claim.take
  cases Claim.first? w.grid w.fleet with
  | none => exact w.drives_self
  | some claim => exact ⟨rfl, .inl (Grid.thins_stamp _ _ _)⟩

theorem step_drives {t : Task} (hw : w.Sound) (hc : t.charge.Sound w) :
    w.Drives (t.step c w).2 := by
  cases hclaimant : t.claimant? with
  | none =>
      rcases step_cases hclaimant with hhandles | ⟨f, heq⟩
      · exact hhandles.drives
      · subst heq
        exact Flight.step_drives hw hc
  | some id =>
      rw [eq_of_claimant? hclaimant]
      exact World.drives_inGrid? fun held => claimTarget_drives id

end Task

/-!
## Engagements
-/

/-- What may happen in an engagement whose missiles fly as they like. -/
inductive Maneuver where
  | act (a : Action)
  /-- A missile finds itself somewhere else, on another course. -/
  | steer (id : MissileId) (point : Point) (speed angle : Float32)

namespace Engagement

def maneuver (e : Engagement) : Maneuver -> Engagement
  | .act a => e.act a
  | .steer id point speed angle =>
      { e with
        world := e.world.setArena id.side ((e.world.fleet.arena id.side).update id fun m =>
          { m with point, speed, angle }) }

def maneuvers (e : Engagement) (ms : List Maneuver) : Engagement :=
  ms.foldl maneuver e

variable {e : Engagement}

theorem Sound.maneuver (h : e.Sound) (m : Maneuver) : (e.maneuver m).Sound := by
  cases m with
  | act a => exact h.act a
  | steer id point speed angle =>
      exact h.pass (h.world.change none id _ (.inr fun _ => ⟨rfl, fun hdeleted => hdeleted⟩))

theorem Sound.act_drives (h : e.Sound) (a : Action) : e.world.Drives (e.act a).world := by
  cases a with
  | work i accepting now dt =>
      cases hi : e.tasks[i]? with
      | none =>
          simp only [Engagement.act, hi]
          exact e.world.drives_self
      | some t =>
          simp only [Engagement.act, hi]
          exact Task.step_drives h.world (h.charge t (List.mem_of_getElem? hi))
  | look i =>
      cases hi : e.observers[i]? with
      | none =>
          simp only [Engagement.act, hi]
          exact e.world.drives_self
      | some p =>
          rcases step_observer h.quiet h.holders_le (h.held (List.mem_of_getElem? hi)) with
            ⟨l, hworld, _⟩
          simp only [Engagement.act, hi, hworld]
          exact World.drives_of_eq rfl rfl
  | hire side | watch | request | mark id | stop | closeAdmission | closePool =>
      exact World.drives_of_eq rfl rfl

theorem Sound.maneuver_drives (h : e.Sound) (m : Maneuver) :
    e.world.Drives (e.maneuver m).world := by
  cases m with
  | act a => exact h.act_drives a
  | steer id point speed angle => exact World.drives_of_eq rfl rfl

/-- Missiles keep clear of what they would run into. -/
structure IsClear (s : Settings) (e : Engagement) : Prop where
  sound : e.Sound
  settings_eq : e.world.settings = s
  separated : e.world.grid.Separated s.field.missileRadius

variable {s : Settings}

theorem start_isClear {w : World} (hvalid : s.validate = .ok (.ok ()))
    (hw : World.ofSettings? s = .ok w) : (start w).IsClear s := by
  have hfresh := World.isFresh_of_ofSettings? hw
  exact
    { sound := start_sound hvalid hw
      settings_eq := hfresh.settings_eq
      separated := Grid.separated_of_vacant (Grid.ofSettings?_spec hfresh.grid).2.2.2 }

theorem IsClear.shifts (h : e.IsClear s) (m : Maneuver) :
    e.world.grid.Shifts s.field.missileRadius (e.maneuver m).world.grid :=
  h.settings_eq ▸ (h.sound.maneuver_drives m).grid

theorem IsClear.maneuver (h : e.IsClear s) (m : Maneuver) : (e.maneuver m).IsClear s :=
  { sound := h.sound.maneuver m
    settings_eq := (h.sound.maneuver_drives m).settings_eq.trans h.settings_eq
    separated := (h.shifts m).separated h.separated }

theorem IsClear.maneuvers (h : e.IsClear s) (ms : List Maneuver) : (e.maneuvers ms).IsClear s := by
  induction ms generalizing e with
  | nil => exact h
  | cons m rest ih => exact ih (h.maneuver m)

/--
Wherever missiles fly, and in every order of actions, two missiles on the grid are
farther apart than the collision radius, and so are missiles and walls, and attackers
and the goal band.  A missile that moves takes the place of no other missile and of no
wall.
-/
theorem missiles_keep_clear {s : Settings} {w : World} (hvalid : s.validate = .ok (.ok ()))
    (hw : World.ofSettings? s = .ok w) (ms : List Maneuver) :
    let e := (start w).maneuvers ms
    let g := e.world.grid
    (forall p q id other, g.occupant? p = some id -> g.occupant? q = some other -> p ≠ q ->
        s.field.missileRadius < p.distance q) ∧
      (forall p q id, g.occupant? p = some id -> g.cell? q = some .wall ->
        s.field.missileRadius < p.distance q) ∧
      (forall p q id mark, g.cell? p = some (.attacker id mark) -> g.cell? q = some .goal ->
        s.field.missileRadius < p.distance q) ∧
      forall m p,
        ((e.maneuver m).world.grid.cell? p = some .wall ↔ g.cell? p = some .wall) ∧
          forall id, (e.maneuver m).world.grid.occupant? p = some id ->
            g.occupant? p = some id ∨ (g.occupant? p = none ∧ g.cell? p ≠ some .wall) := by
  intro e g
  have hclear : e.IsClear s := (start_isClear hvalid hw).maneuvers ms
  refine ⟨hclear.separated.missiles, hclear.separated.walls, hclear.separated.goals, ?_⟩
  intro m p
  have hshifts := hclear.shifts m
  exact ⟨hshifts.wall_iff, fun id hp => hshifts.occupant hp⟩

def strayFlight : List Maneuver :=
  firstFlight.map .act ++ [.steer ⟨.attacker, 0, 1⟩ ⟨Single.ofInt 2, Single.ofInt 8⟩ 0 0] ++
    List.replicate 4 (.act (.work 1 true 0 0))

theorem missiles_keep_clear_stray_flight :
    narrow.validate = .ok (.ok ()) ∧ exists w, World.ofSettings? narrow = .ok w ∧
      let g := ((start w).maneuvers strayFlight).world.grid
      g.occupant? ⟨2, 8⟩ = some ⟨.attacker, 0, 1⟩ ∧ g.cell? ⟨0, 8⟩ = some .wall ∧
        narrow.field.missileRadius < Position.distance ⟨2, 8⟩ ⟨0, 8⟩ := by
  have hvalid : narrow.validate = .ok (.ok ()) := by decide +kernel
  have hmoved : ((World.ofSettings? narrow).toOption.map fun w =>
      let g := ((start w).maneuvers strayFlight).world.grid
      (g.occupant? ⟨2, 8⟩, g.cell? ⟨0, 8⟩)) = some (some ⟨.attacker, 0, 1⟩, some .wall) := by
    decide +kernel
  cases hw : World.ofSettings? narrow with
  | error fault =>
      rw [hw] at hmoved
      cases hmoved
  | ok w =>
      simp only [hw, Except.toOption, Option.map_some, Option.some.injEq, Prod.mk.injEq] at hmoved
      have hclear := missiles_keep_clear hvalid hw strayFlight
      exact ⟨hvalid, w, rfl, hmoved.1, hmoved.2, hclear.2.1 _ _ _ hmoved.1 hmoved.2⟩

end Engagement
end AirDefense

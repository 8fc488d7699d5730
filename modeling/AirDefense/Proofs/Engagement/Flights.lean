import AirDefense.Engagement.Flight
import AirDefense.Proofs.Engagement.Charges

/-!
# Steps of a flight

A flight is in charge of its missile until it has taken it out of the arena, then of
the slot, and then of nothing.  It never breaks off, whatever other tasks do between
its steps.
-/

namespace AirDefense

def Charge.Follows (w : World) : Charge -> Charge -> Prop
  | missile seat id _, missile seat' id' _ => seat' = seat ∧ id' = id
  | missile seat _ _, slot seat' => seat' = seat
  | slot seat, slot seat' => seat' = seat
  | slot seat, nothing => ¬ w.IsTaken seat
  | nothing, nothing => True
  | _, _ => False

namespace Charge

variable {w w' : World} {c c' d : Charge} {seat : Seat} {id : MissileId} {place : Whereabouts}

theorem Advances.of_seat (h : Advances w c c' w') (hseat : d.seat? = c.seat?) :
    Advances w d c' w' :=
  ⟨hseat ▸ h.keeps, h.charge, hseat ▸ h.seat⟩

theorem Sound.leaving_of_nowhere (h : (missile seat id .nowhere).Sound w) :
    (missile seat id .leaving).Sound w := by
  rcases h with ⟨hseat, htaken, m, hid, hoff⟩
  exact ⟨hseat, htaken, m, hid, fun p hp => absurd hp (hoff p)⟩

theorem Sound.leaving_of_settled (h : (missile seat id .settled).Sound w) :
    (missile seat id .leaving).Sound w := by
  rcases h with ⟨hseat, htaken, m, hid, hcell⟩
  exact ⟨hseat, htaken, m, hid, hcell.1⟩

end Charge

namespace Flight

def missileAt (f : Flight) (place : Whereabouts) : Charge :=
  .missile f.id.seat f.id place

def charge (f : Flight) : Charge :=
  match f.stage with
  | .ready =>
      match f.phase with
      | .spawned => f.missileAt .nowhere
      | .moving => f.missileAt .settled
      | .collided => f.missileAt .leaving
      | .externallyDeleted => f.missileAt .leaving
      | .cleared => .nothing
  | .moved leg => f.missileAt (.underway leg)
  | .ending => f.missileAt .leaving
  | .clearing cell => f.missileAt (.within cell)
  | .vacating => f.missileAt .nowhere
  | .returning => .slot f.id.seat
  | .broken _ => .nothing

structure Sound (f : Flight) : Prop where
  unbroken : f.fault? = none
  cleared : f.phase = .cleared -> f.stage = .ready

/-- A step of `f` in `w` has led to `r`. -/
structure Steps (f : Flight) (w : World) (r : Flight × World) : Prop where
  advances : Charge.Advances w f.charge r.1.charge r.2
  follows : Charge.Follows r.2 f.charge r.1.charge
  sound : r.1.Sound
  id_eq : r.1.id = f.id

variable {f : Flight} {w : World}

theorem follows_missile {r : Flight} {place place' : Whereabouts} (w' : World)
    (hf : f.charge = f.missileAt place) (hr : r.charge = f.missileAt place') :
    Charge.Follows w' f.charge r.charge := by
  rw [hf, hr]
  exact ⟨rfl, rfl⟩

theorem stop_steps {place : Whereabouts} (hf : f.charge = f.missileAt place) {w' : World}
    (hk : w.Keeps (some f.id.seat) w') (hc : (f.missileAt .leaving).Sound w') :
    f.Steps w (f.stop, w') :=
  { advances := ⟨by rw [hf]; exact hk, hc, fun seat hseat => .inl (by rw [hf]; exact hseat)⟩
    follows := follows_missile (r := f.stop) w' hf rfl
    sound := ⟨rfl, fun h => by cases h⟩
    id_eq := rfl }

theorem depart_steps (hw : w.Sound) {place : Whereabouts} (hf : f.charge = f.missileAt place)
    (hphase : f.phase ≠ .cleared) (hc : (f.missileAt .leaving).Sound w) :
    f.Steps w (f.depart w) := by
  rcases hc with ⟨hseat, htaken, m, hid, hcells⟩
  unfold depart
  cases hadvance : (w.fleet.arena f.id.side).advance f.id f.dt with
  | none =>
      exact stop_steps hf hw.keeps_self ⟨hseat, htaken, m, hid, hcells⟩
  | some moved =>
      rcases moved with ⟨leg, arena⟩
      rcases Arena.advance_eq_some hadvance with ⟨m', hid', _, hleg, harena⟩
      have hsame : m' = m := Option.some.inj (hid'.symm.trans hid)
      subst hsame hleg harena
      have hk := hw.change (some f.id.seat) f.id (fun m => m.fly f.dt) (.inl rfl)
      have hmoved := Fleet.find?_setArena_update w.fleet f.id f.id fun m => m.fly f.dt
      rw [if_pos rfl, hid] at hmoved
      refine ⟨⟨by rw [hf]; exact hk, ?_, fun seat hs => .inl (by rw [hf]; exact hs)⟩,
        follows_missile _ hf rfl, ⟨rfl, fun h => absurd h hphase⟩, rfl⟩
      exact ⟨rfl, htaken, _, hmoved, hcells, rfl⟩

theorem occupant?_movedCell (previous : Option Cell) (id : MissileId) :
    (movedCell previous id).occupant? = some id := by
  unfold movedCell
  split
  · rfl
  · exact Cell.occupant?_missile id

structure Continues (f r : Flight) : Prop where
  sound : r.Sound
  id_eq : r.id = f.id
  charge : exists place, r.charge = f.missileAt place

theorem Continues.steps {r : Flight} {w' : World} {place : Whereabouts} (h : f.Continues r)
    (hf : f.charge = f.missileAt place) (hadvances : Charge.Advances w f.charge r.charge w') :
    f.Steps w (r, w') := by
  rcases h.charge with ⟨place', hr⟩
  exact ⟨hadvances, follows_missile w' hf hr, h.sound, h.id_eq⟩

/--
The section that moves the missile on the grid: the flight finds its missile asked to
stop, or it collides, or it moves on.
-/
theorem enterCell_cases (hroom : w.grid.HasRoom w.settings.field.missileRadius) (leg : Leg) :
    let previous := (w.grid.clear leg.origin f.id).1
    let cleared := (w.grid.clear leg.origin f.id).2
    let entered := cleared.write leg.destination (movedCell previous f.id)
    (w.fleet.isActive f.id = false ∧
        f.enterCell leg w = (f.stop, { w with grid := cleared })) ∨
      (w.fleet.isActive f.id = true ∧
        ((exists collision g fleet,
            cleared.resolve? w.fleet f.id leg.destination w.settings.field.missileRadius =
                .ok (some collision, g, fleet) ∧
              f.enterCell leg w =
                ({ f with phase := .collided, stage := .ready }, { w with grid := g, fleet })) ∨
          exists g fleet,
            cleared.resolve? w.fleet f.id leg.destination w.settings.field.missileRadius =
                .ok (none, g, fleet) ∧
              f.enterCell leg w =
                ({ f with phase := .moving, stage := .ready }, { w with grid := entered }))) := by
  intro previous cleared entered
  have hroom' : cleared.HasRoom w.settings.field.missileRadius :=
    hroom.congr Grid.width_clear Grid.height_clear
  have hclear : w.grid.clear leg.origin f.id = (previous, cleared) := rfl
  cases hactive : w.fleet.isActive f.id with
  | false =>
      refine .inl ⟨rfl, ?_⟩
      simp only [enterCell, hclear, hactive, Bool.not_false, if_true]
  | true =>
      refine .inr ⟨rfl, ?_⟩
      rcases hroom'.resolve? w.fleet f.id leg.destination with ⟨⟨outcome, g, fleet⟩, hresolve⟩
      cases outcome with
      | some collision =>
          refine .inl ⟨collision, g, fleet, hresolve, ?_⟩
          simp only [enterCell, hclear, hactive, Bool.not_true, Bool.false_eq_true, if_false,
            hresolve]
      | none =>
          have hput : cleared.put? leg.destination (movedCell previous f.id) = .ok entered :=
            Grid.put?_of_inBounds (Grid.resolve?_free hresolve).1
          refine .inr ⟨g, fleet, hresolve, ?_⟩
          simp only [enterCell, hclear, hactive, Bool.not_true, Bool.false_eq_true, if_false,
            hresolve, hput]

theorem enterCell_advances (hw : w.Sound) {leg : Leg}
    (hc : (f.missileAt (.underway leg)).Sound w) :
    Charge.Advances w (f.missileAt (.underway leg)) (f.enterCell leg w).1.charge
        (f.enterCell leg w).2 ∧ f.Continues (f.enterCell leg w).1 := by
  rcases hc with ⟨_, htaken, m, hid, hcells, hdestination⟩
  have hclear := hw.clear leg.origin f.id
  have hoff : forall q, (w.grid.clear leg.origin f.id).2.occupant? q ≠ some f.id :=
    fun q => Grid.occupant?_clear_self hcells
  have hw' := hclear.sound
  have hnowhere : (f.missileAt .nowhere).Sound
      { w with grid := (w.grid.clear leg.origin f.id).2 } := ⟨rfl, htaken, m, hid, hoff⟩
  rcases enterCell_cases hw.room leg with ⟨_, heq⟩ | ⟨_, hcase⟩
  · rw [heq]
    exact ⟨⟨hclear, hnowhere.leaving_of_nowhere, fun seat hseat => .inl hseat⟩,
      ⟨rfl, fun h => by cases h⟩, rfl, _, rfl⟩
  · rcases hcase with ⟨collision, g, fleet, hresolve, heq⟩ | ⟨g, fleet, hresolve, heq⟩
    · have hcollide := hw'.collide hresolve
      have hkeeps := hclear.trans hw hcollide.weaken
      have hstill := hnowhere.of_keeps hcollide fun _ _ => nofun
      rw [heq]
      exact ⟨⟨hkeeps, hstill.leaving_of_nowhere, fun seat hseat => .inl hseat⟩,
        ⟨rfl, fun h => by cases h⟩, rfl, _, rfl⟩
    · rcases Grid.resolve?_free hresolve with ⟨hinBounds, halone⟩
      have hradius : 0 <= w.settings.field.missileRadius := hw.room.radius_nonneg
      have hfree : forall other, (w.grid.clear leg.origin f.id).2.occupant? leg.destination ≠
          some other := by
        intro other hother
        have hself := halone leg.destination other (by omega) (by omega) (by omega) (by omega)
          hother
        exact hoff leg.destination (hself ▸ hother)
      have hentered := hw'.put (Grid.put?_of_inBounds hinBounds)
        (occupant?_movedCell (w.grid.clear leg.origin f.id).1 f.id) hid hoff hfree
      have hkeeps := hclear.trans hw hentered.1
      rw [heq]
      refine ⟨⟨hkeeps, ⟨rfl, htaken, m, hid, ?_, ?_⟩, fun seat hseat => .inl hseat⟩,
        ⟨rfl, fun h => by cases h⟩, rfl, _, rfl⟩
      · intro p hp
        exact ((hentered.2 p).mp hp).trans hdestination.symm
      · intro _
        exact (hentered.2 m.cell).mpr hdestination

theorem clearCell_advances (hw : w.Sound) {cell : Position} (hphase : f.phase ≠ .cleared)
    (hc : (f.missileAt (.within cell)).Sound w) :
    Charge.Advances w (f.missileAt (.within cell)) (f.clearCell cell w).1.charge
        (f.clearCell cell w).2 ∧ f.Continues (f.clearCell cell w).1 := by
  rcases hc with ⟨_, htaken, m, hid, hcells⟩
  refine ⟨⟨hw.clear cell f.id, ⟨rfl, htaken, m, hid, ?_⟩, fun seat hseat => .inl hseat⟩,
    ⟨rfl, fun h => absurd h hphase⟩, rfl, _, rfl⟩
  intro q
  exact Grid.occupant?_clear_self hcells

theorem lookUp_steps (hw : w.Sound) (hf : f.charge = f.missileAt .leaving)
    (hphase : f.phase ≠ .cleared) (hc : (f.missileAt .leaving).Sound w) :
    f.Steps w (f.lookUp w) := by
  rcases hc with ⟨_, htaken, m, hid, hcells⟩
  have hlook : f.lookUp w = ({ f with stage := .clearing m.cell }, w) := by
    simp only [lookUp, hid]
  rw [hlook]
  refine ⟨⟨hw.keeps_self, ⟨rfl, htaken, m, hid, hcells⟩, fun seat hseat => .inl ?_⟩,
    follows_missile w hf rfl, ⟨rfl, fun h => absurd h hphase⟩, rfl⟩
  rw [hf]
  exact hseat

theorem vacate_steps (hw : w.Sound) (hf : f.charge = f.missileAt .nowhere)
    (hphase : f.phase ≠ .cleared) (hc : (f.missileAt .nowhere).Sound w) :
    f.Steps w (f.vacate w) := by
  rcases Charge.advances_vacate hw hc with ⟨m, w', hvacate, hadvances⟩
  have hvacated : f.vacate w = ({ f with stage := .returning }, w') := by
    simp only [vacate, hvacate]
  rw [hvacated]
  refine ⟨hadvances.of_seat (by rw [hf]; rfl), ?_, ⟨rfl, fun h => absurd h hphase⟩, rfl⟩
  rw [hf]
  rfl

theorem giveBack_steps (hw : w.Sound) (hf : f.charge = .slot f.id.seat)
    (hc : (Charge.slot f.id.seat).Sound w) : f.Steps w (f.giveBack w) := by
  rcases Charge.advances_return hw hc with ⟨w', hreturn, hadvances, hfree⟩
  have hreturned : f.giveBack w = ({ f with phase := .cleared, stage := .ready }, w') := by
    simp only [MissileId.seat] at hreturn
    simp only [giveBack, hreturn]
  rw [hreturned]
  refine ⟨hf ▸ hadvances, ?_, ⟨rfl, fun _ => rfl⟩, rfl⟩
  rw [hf]
  exact hfree

theorem begin_steps (hw : w.Sound) (hc : f.charge.Sound w) (hf : f.Sound)
    (hstage : f.stage = .ready) : f.Steps w (f.step w) := by
  cases hphase : f.phase with
  | spawned =>
      have hcharge : f.charge = f.missileAt .nowhere := by simp only [charge, hstage, hphase]
      rw [hcharge] at hc
      simp only [step, hstage, hphase]
      exact depart_steps hw hcharge (by simp [hphase]) hc.leaving_of_nowhere
  | moving =>
      have hcharge : f.charge = f.missileAt .settled := by simp only [charge, hstage, hphase]
      rw [hcharge] at hc
      simp only [step, hstage, hphase]
      exact depart_steps hw hcharge (by simp [hphase]) hc.leaving_of_settled
  | collided =>
      have hcharge : f.charge = f.missileAt .leaving := by simp only [charge, hstage, hphase]
      simp only [step, hstage, hphase]
      exact lookUp_steps hw hcharge (by simp [hphase]) (hcharge ▸ hc)
  | externallyDeleted =>
      have hcharge : f.charge = f.missileAt .leaving := by simp only [charge, hstage, hphase]
      simp only [step, hstage, hphase]
      exact lookUp_steps hw hcharge (by simp [hphase]) (hcharge ▸ hc)
  | cleared =>
      have hcharge : f.charge = .nothing := by simp only [charge, hstage, hphase]
      simp only [step, hstage, hphase]
      refine ⟨hc.stays hw, ?_, hf, rfl⟩
      rw [hcharge]
      trivial

theorem section_steps (hquiet : w.lock.IsQuiet) (hw : w.Sound) (hf : f.Sound)
    {place : Whereabouts} (hcharge : f.charge = f.missileAt place)
    (hc : (f.missileAt place).Sound w) {act : World -> Flight × World}
    (hact : forall w : World, w.Sound -> (f.missileAt place).Sound w ->
      Charge.Advances w (f.missileAt place) (act w).1.charge (act w).2 ∧
        f.Continues (act w).1) :
    f.Steps w ((w.inGrid? .middle act).getD (f, w)) := by
  have hself : f.Continues f := ⟨hf, rfl, place, hcharge⟩
  rcases Charge.advances_inGrid? (t := .middle) hquiet hw hc hcharge hself
    fun held hw' hc' => hact _ hw' hc' with ⟨hadvances, hcontinues⟩
  exact hcontinues.steps hcharge (hadvances.of_seat (by rw [hcharge]))

/-- One step, whatever others did before. -/
theorem step_steps (hquiet : w.lock.IsQuiet) (hw : w.Sound) (hc : f.charge.Sound w)
    (hf : f.Sound) : f.Steps w (f.step w) := by
  have hbusy : f.stage ≠ .ready -> f.phase ≠ .cleared :=
    fun hstage hphase => hstage (hf.cleared hphase)
  cases hstage : f.stage with
  | ready => exact begin_steps hw hc hf hstage
  | moved leg =>
      have hcharge : f.charge = f.missileAt (.underway leg) := by simp only [charge, hstage]
      simp only [step, hstage]
      exact section_steps hquiet hw hf hcharge (hcharge ▸ hc) fun _ hw' hc' =>
        enterCell_advances hw' hc'
  | ending =>
      have hcharge : f.charge = f.missileAt .leaving := by simp only [charge, hstage]
      simp only [step, hstage]
      exact lookUp_steps hw hcharge (hbusy (by simp [hstage])) (hcharge ▸ hc)
  | clearing cell =>
      have hcharge : f.charge = f.missileAt (.within cell) := by simp only [charge, hstage]
      have hphase := hbusy (by simp [hstage])
      simp only [step, hstage]
      exact section_steps hquiet hw hf hcharge (hcharge ▸ hc) fun _ hw' =>
        clearCell_advances hw' hphase
  | vacating =>
      have hcharge : f.charge = f.missileAt .nowhere := by simp only [charge, hstage]
      simp only [step, hstage]
      exact vacate_steps hw hcharge (hbusy (by simp [hstage])) (hcharge ▸ hc)
  | returning =>
      have hcharge : f.charge = .slot f.id.seat := by simp only [charge, hstage]
      simp only [step, hstage]
      exact giveBack_steps hw hcharge (hcharge ▸ hc)
  | broken fault =>
      have hbroken := hf.unbroken
      simp only [fault?, hstage] at hbroken
      cases hbroken

end Flight
end AirDefense

import AirDefense.Proofs.Engagement.FirstClaim
import AirDefense.Proofs.Engagement.Pilots
import AirDefense.Proofs.Engagement.Placements

/-!
# Claims that others honour

Once an interceptor has claimed an attacker, nobody else pursues that attacker and no other
mark is on it.  Whatever is done that is not a claim, it stays so.
-/

namespace AirDefense

/-!
## What leaves claims alone
-/

def Arena.KeepsTargets (a b : Arena) : Prop :=
  forall id m m', a.find? id = some m -> b.find? id = some m' -> m'.target = m.target

structure World.Honours (w w' : World) : Prop where
  beginsNone : w.fleet.defenders.BeginsNone w'.fleet.defenders
  targets : w.fleet.defenders.KeepsTargets w'.fleet.defenders
  marks : forall p a d, w'.grid.cell? p = some (.attacker a (some d)) ->
    exists q, w.grid.cell? q = some (.attacker a (some d))

namespace Arena

variable {a b : Arena} {id : MissileId} {m : Missile} {slot : Nat}

theorem KeepsTargets.refl (a : Arena) : a.KeepsTargets a := by
  intro id m m' hm hm'
  rw [hm] at hm'
  injection hm' with hm'
  rw [hm']

theorem keepsTargets_update {f : Missile -> Missile} (hf : forall m, (f m).target = m.target) :
    a.KeepsTargets (a.update id f) := by
  intro other m m' hm hm'
  rw [find?_update] at hm'
  split at hm'
  · rename_i heq
    rw [← heq, hm] at hm'
    injection hm' with hm'
    rw [← hm', hf]
  · exact KeepsTargets.refl a other m m' hm hm'

theorem keepsTargets_spawn? (h : a.spawn? slot m = .ok (id, b)) : a.KeepsTargets b := by
  have hnew := find?_of_spawn? h
  rcases spawn?_eq_ok h with ⟨_, _, _, _, _, hfind⟩
  intro other m m' hm hm'
  rw [hfind, if_neg fun heq => by rw [heq, hnew] at hm; cases hm] at hm'
  exact KeepsTargets.refl a other m m' hm hm'

theorem keepsTargets_vacate? (h : a.vacate? id = .ok (m, b)) : a.KeepsTargets b :=
  fun other m m' hm hm' => KeepsTargets.refl a other m m' hm (find?_of_vacate? h hm')

end Arena

theorem Fleet.keepsTargets_setArena {f : Fleet} {side : Side} {a : Arena}
    (h : (f.arena side).KeepsTargets a) :
    f.defenders.KeepsTargets (f.setArena side a).defenders := by
  cases side with
  | attacker => exact .refl _
  | defender => exact h

theorem Fleet.isSome_find?_assign {f : Fleet} {id : MissileId} {target? : Option MissileId}
    (other : MissileId) :
    (({ f with defenders := f.defenders.assign id target? } : Fleet).find? other).isSome =
      (f.find? other).isSome := by
  unfold Fleet.find?
  cases other.side with
  | attacker => rfl
  | defender =>
      simp only [Fleet.arena, Arena.assign, Arena.find?_update]
      split
      · rename_i heq
        rw [heq, Option.isSome_map]
      · rfl

namespace World

variable {w w' : World}

theorem honours_of_fleet (hfleet : w'.fleet = w.fleet)
    (hmarks : forall p a d, w'.grid.cell? p = some (.attacker a (some d)) ->
      exists q, w.grid.cell? q = some (.attacker a (some d))) : w.Honours w' :=
  { beginsNone := by rw [hfleet]; exact .refl _
    targets := by rw [hfleet]; exact .refl _
    marks := hmarks }

theorem honours_self (w : World) : w.Honours w :=
  honours_of_fleet rfl fun p _ _ hp => ⟨p, hp⟩

theorem Handles.honours (h : w.Handles w') : w.Honours w' := by
  refine ⟨h.eases.beginsNone, ?_, fun p _ _ hp => ⟨p, h.grid_eq ▸ hp⟩⟩
  cases h with
  | supply hsettings hgrid hlock hfleet =>
      rw [hfleet]
      exact .refl _
  | spawn hspawn htarget => exact Fleet.keepsTargets_setArena (Arena.keepsTargets_spawn? hspawn)
  | vacate hvacate => exact Fleet.keepsTargets_setArena (Arena.keepsTargets_vacate? hvacate)
  | change side id htarget =>
      exact Fleet.keepsTargets_setArena (Arena.keepsTargets_update htarget)

end World

namespace Flight

variable {f : Flight} {w : World}

theorem marked_movedCell {g : Grid} {p : Position} {id a d : MissileId}
    (h : movedCell (g.clear p id).1 id = .attacker a (some d)) :
    g.cell? p = some (.attacker a (some d)) := by
  unfold movedCell at h
  split at h
  · rename_i hside hprevious
    rcases Grid.clear_eq_some.mp hprevious with ⟨hcell, hid⟩
    injection hid with hid
    rw [hcell, hid, h]
  · unfold Cell.missile at h
    split at h <;> cases h

theorem enterCell_honours (hroom : w.grid.HasRoom w.settings.field.missileRadius) (leg : Leg) :
    w.Honours (f.enterCell leg w).2 := by
  have hcleared := Grid.carries_clear w.grid leg.origin f.id
  rcases enterCell_cases hroom leg with ⟨_, heq⟩ | ⟨hactive, ⟨collision, g, fleet, hresolve, heq⟩ |
    ⟨g, fleet, hresolve, heq⟩⟩
  · rw [heq]
    exact World.honours_of_fleet rfl fun p a d hp => hcleared p a _ hp
  · have hcarries := hcleared.trans (Grid.carries_resolve? hresolve)
    rw [heq]
    rcases Grid.resolve?_collided hresolve with ⟨_, _, ⟨hfleet, _⟩ | ⟨_, victim, _, _, hfleet, _⟩⟩
    · exact World.honours_of_fleet hfleet fun p a d hp => hcarries p a _ hp
    · have hmarked := (w.handles_markDeleted victim).honours
      subst hfleet
      exact ⟨hmarked.beginsNone, hmarked.targets, fun p a d hp => hcarries p a _ hp⟩
  · rw [heq]
    refine World.honours_of_fleet rfl fun p a d hp => ?_
    rw [Grid.cell?_write (Grid.resolve?_free hresolve).1] at hp
    split at hp
    · injection hp with hp
      exact ⟨leg.origin, marked_movedCell hp⟩
    · exact hcleared p a _ hp

theorem step_honours (hroom : w.grid.HasRoom w.settings.field.missileRadius) :
    w.Honours (f.step w).2 := by
  rcases f.step_cases w with ⟨_, hhandles⟩ | ⟨leg, _, hstep⟩ | ⟨cell, _, hstep⟩
  · exact hhandles.honours
  · rw [hstep]
    rcases World.inGrid?_free (w := w) (f.enterCell leg) .middle (x := f) with
      hwait | ⟨_, held, lock, hsection⟩
    · rw [hwait]
      exact w.honours_self
    · rw [hsection]
      have henter := enterCell_honours (f := f) (w := { w with lock := held }) hroom leg
      exact { henter with }
  · rw [hstep]
    rcases World.inGrid?_free (w := w) (f.clearCell cell) .middle (x := f) with
      hwait | ⟨_, held, lock, hsection⟩
    · rw [hwait]
      exact w.honours_self
    · rw [hsection]
      exact World.honours_of_fleet rfl fun p a d hp => Grid.carries_clear _ _ _ p a _ hp

end Flight

theorem Task.step_honours {t : Task} {w : World} {c : Conditions} (hw : w.Sound)
    (ht : t.claimant? = none) : w.Honours (t.step c w).2 := by
  rcases step_cases ht with hhandles | ⟨f, heq⟩
  · exact hhandles.honours
  · rw [heq]
    exact Flight.step_honours hw.room

namespace Engagement

variable {e : Engagement}

theorem Sound.act_honours (h : e.Sound) {a : Action}
    (ha : forall t, e.worker a = some t -> t.claimant? = none) :
    e.world.Honours (e.act a).world := by
  cases a with
  | work i accepting now dt =>
      cases hi : e.tasks[i]? with
      | none =>
          simp only [Engagement.act, hi]
          exact e.world.honours_self
      | some t =>
          simp only [Engagement.act, hi]
          exact Task.step_honours h.world (ha t hi)
  | look i =>
      cases hi : e.observers[i]? with
      | none =>
          simp only [Engagement.act, hi]
          exact e.world.honours_self
      | some p =>
          rcases step_observer h.quiet h.holders_le (h.held (List.mem_of_getElem? hi)) with
            ⟨l, hworld, _⟩
          simp only [Engagement.act, hi, hworld]
          exact World.honours_of_fleet rfl fun p _ _ hp => ⟨p, hp⟩
  | mark id => exact (e.world.handles_markDeleted id).honours
  | request | closeAdmission | closePool =>
      exact World.honours_of_fleet rfl fun p _ _ hp => ⟨p, hp⟩
  | hire side | watch | stop => exact e.world.honours_self

theorem Sound.maneuver_honours (h : e.Sound) {m : Maneuver}
    (hm : forall a t, m = .act a -> e.worker a = some t -> t.claimant? = none) :
    e.world.Honours (e.maneuver m).world := by
  cases m with
  | act a => exact h.act_honours fun t => hm a t rfl
  | steer id point speed angle => exact World.Handles.honours (.change _ _ fun _ => rfl)

end Engagement

/-!
## Reservations
-/

structure World.Reserves (w : World) (id target : MissileId) : Prop where
  pursuer : forall other, w.fleet.defenders.Pursues other target -> other = id
  marker : forall p d, w.grid.cell? p = some (.attacker target (some d)) -> d = id

namespace World

def IsUnclaimed (w : World) (target : MissileId) : Prop :=
  w.fleet.isUnclaimed target none = true ∧
    forall p mark, w.grid.cell? p = some (.attacker target mark) ->
      w.fleet.isUnclaimed target mark = true

variable {w w' : World} {id target : MissileId}

theorem Honours.reserves (h : w.Honours w') (hr : w.Reserves id target) :
    w'.Reserves id target := by
  refine ⟨fun other hother => hr.pursuer other (h.beginsNone other target hother),
    fun p d hp => ?_⟩
  rcases h.marks p target d hp with ⟨q, hq⟩
  exact hr.marker q d hq

theorem Honours.pursues (h : w.Honours w') (hpursues : w.fleet.defenders.Pursues id target)
    (hlive : (w'.fleet.defenders.find? id).isSome = true) :
    w'.fleet.defenders.Pursues id target := by
  rcases hpursues with ⟨m, hm, htarget⟩
  rcases Option.isSome_iff_exists.mp hlive with ⟨m', hm'⟩
  exact ⟨m', hm', (h.targets id m m' hm hm').trans htarget⟩

/-- With its claimant gone the attacker is open to claims again. -/
theorem Reserves.unclaimed (h : w.Reserves id target)
    (hgone : w.fleet.defenders.find? id = none)
    (hactive : w.fleet.attackers.isActive target = true) : w.IsUnclaimed target := by
  have hnobody : forall d, ¬ w.fleet.defenders.Pursues d target := by
    intro d hd
    rcases hd with ⟨m, hm, htarget⟩
    rw [h.pursuer d ⟨m, hm, htarget⟩, hgone] at hm
    cases hm
  have hflies := Arena.isActive_iff.mp hactive
  refine ⟨Fleet.isUnclaimed_iff.mpr ⟨hflies, fun _ => nofun, hnobody⟩, fun p mark hp => ?_⟩
  refine Fleet.isUnclaimed_iff.mpr ⟨hflies, fun d hd => ?_, hnobody⟩
  rw [h.marker p d (hd ▸ hp), hgone]

structure Claims (w : World) (id target : MissileId) (w' : World) : Prop where
  live : forall other, (w'.fleet.find? other).isSome = (w.fleet.find? other).isSome
  free : forall other, ¬ w.fleet.defenders.Pursues other target
  begins : forall other t, w'.fleet.defenders.Pursues other t ->
    (other = id ∧ t = target) ∨ w.fleet.defenders.Pursues other t
  pursues : w'.fleet.defenders.Pursues id target
  reserves : w'.Reserves id target

theorem claims_take (hw : w.Sound) (hlive : w.fleet.defenders.isLive id = true) {claim : Claim}
    {g : Grid} {f : Fleet} (htake : Claim.take w.grid w.fleet id = (some claim, g, f)) :
    w.Claims id claim.target { w with grid := g, fleet := f } := by
  cases (Claim.takes_iff hlive).mpr htake with
  | @first p target mark _ _ hopen hfirst hgrid hfleet =>
      have hbegins : forall other t, f.defenders.Pursues other t ->
          (other = id ∧ t = target) ∨ w.fleet.defenders.Pursues other t := by
        intro other t hpursues
        rw [(Fleet.assigned_iff hlive).mp hfleet] at hpursues
        exact Arena.pursues_assign hpursues
      refine ⟨fun other => ?_, hopen.unpursued, hbegins, hfleet.pursues hlive,
        fun other hother => ?_, ?_⟩
      · rw [(Fleet.assigned_iff hlive).mp hfleet]
        exact Fleet.isSome_find?_assign other
      · rcases hbegins other target hother with ⟨heq, _⟩ | hbefore
        · exact heq
        · exact absurd hbefore (hopen.unpursued other)
      · intro q d hq
        rw [hgrid.cell?_eq] at hq
        split at hq
        · injection hq with hq
          injection hq with _ hmark
          injection hmark with hmark
          exact hmark.symm
        · rename_i hne
          exact absurd (hw.alone q p target (Grid.occupant?_eq_some_iff.mpr ⟨_, hq, rfl⟩)
            (Grid.occupant?_eq_some_iff.mpr ⟨_, hopen.cell_eq, rfl⟩)) hne

end World
end AirDefense

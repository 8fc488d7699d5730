import AirDefense.Proofs.Engagement.Interleaving

/-!
# Grid and arenas agree

A missile has its position twice, in its arena and on the grid, and the two change in
different sections.  In between others may run, and may destroy the missile.
-/

namespace AirDefense
namespace Engagement

variable {e : Engagement}

theorem Sound.settled (h : e.Sound) {t : Task} (ht : t ∈ e.tasks) {f : Flight}
    (hf : t.flight? = some f) (hphase : f.phase = .moving) (hstage : f.stage = .ready) :
    (f.missileAt .settled).Sound e.world := by
  have hcharge : f.charge = f.missileAt .settled := by
    simp only [Flight.charge, hstage, hphase]
  have hsound := h.charge t ht
  cases t with
  | attack l => cases hf
  | defence l => cases hf
  | checking g =>
      injection hf with hf
      subst hf
      exact hcharge ▸ hsound
  | flying g =>
      injection hf with hf
      subst hf
      exact hcharge ▸ hsound
  | pausing g =>
      injection hf with hf
      subst hf
      exact hcharge ▸ hsound
  | landed g =>
      injection hf with hf
      subst hf
      have hcleared := (h.task _ ht).2
      rw [hphase] at hcleared
      cases hcleared

/--
In every order of actions a missile is in one cell at most; a missile on the grid is
in its arena, under the very name that its cell has; and between two periods of its
flight a missile is in its own cell and in no other, unless it was asked to stop.
-/
theorem grid_agrees_with_arenas {s : Settings} {w : World}
    (hvalid : s.validate = .ok (.ok ())) (hw : World.ofSettings? s = .ok w)
    (actions : List Action) :
    let e := (start w).run actions
    (forall p q id, e.world.grid.occupant? p = some id -> e.world.grid.occupant? q = some id ->
        p = q) ∧
      (forall p id, e.world.grid.occupant? p = some id ->
        (e.world.fleet.find? id).isSome = true) ∧
      (forall t f, t ∈ e.tasks -> t.flight? = some f -> f.phase = .moving ->
        f.stage = .ready ->
        exists m, e.world.fleet.find? f.id = some m ∧
          (m.deleted = false ->
            forall p, e.world.grid.occupant? p = some f.id ↔ p = m.cell)) := by
  intro e
  have h : e.Sound := (start_sound hvalid hw).run actions
  refine ⟨h.world.alone, h.world.live, ?_⟩
  intro t f ht hf hphase hstage
  rcases h.settled ht hf hphase hstage with ⟨_, _, m, hid, hcell, hpresent⟩
  refine ⟨m, hid, fun hdeleted p => ⟨hcell p, fun hp => ?_⟩⟩
  rw [hp]
  exact hpresent hdeleted

theorem grid_agrees_with_arenas_first_flight :
    narrow.validate = .ok (.ok ()) ∧ exists w, World.ofSettings? narrow = .ok w ∧
      let e := (start w).run firstFlight
      e.world.grid.occupant? ⟨3, 3⟩ = some ⟨.attacker, 0, 1⟩ ∧
        forall p, e.world.grid.occupant? p = some ⟨.attacker, 0, 1⟩ -> p = ⟨3, 3⟩ := by
  have hvalid : narrow.validate = .ok (.ok ()) := by decide +kernel
  have hmoved : ((World.ofSettings? narrow).toOption.bind fun w =>
      ((start w).run firstFlight).world.grid.occupant? ⟨3, 3⟩) = some ⟨.attacker, 0, 1⟩ := by
    decide +kernel
  cases hw : World.ofSettings? narrow with
  | error fault =>
      rw [hw] at hmoved
      cases hmoved
  | ok w =>
      simp only [hw, Except.toOption, Option.bind_some] at hmoved
      have hagree := grid_agrees_with_arenas hvalid hw firstFlight
      exact ⟨hvalid, w, rfl, hmoved, fun p hp => hagree.1 p ⟨3, 3⟩ _ hp hmoved⟩

end Engagement
end AirDefense

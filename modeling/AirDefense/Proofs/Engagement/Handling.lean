import AirDefense.Engagement.Task
import AirDefense.Proofs.Engagement.Seats

/-!
# Sections off the grid

Most sections of a task leave the grid and its lock alone.  They draw, take a slot or
give one back; or they put a missile into a slot, take one out, or change one that is
there, and then no missile's assignment changes.  What remains are the claims and the
sections of a flight that need the grid.
-/

namespace AirDefense

inductive World.Handles (w : World) : World -> Prop where
  | supply {w' : World} (hsettings : w'.settings = w.settings) (hgrid : w'.grid = w.grid)
      (hlock : w'.lock = w.lock) (hfleet : w'.fleet = w.fleet) : Handles w w'
  | spawn {side : Side} {slot : Nat} {m : Missile} {id : MissileId} {a : Arena}
      (hspawn : (w.fleet.arena side).spawn? slot m = .ok (id, a))
      (htarget : side = .defender -> m.target = none) : Handles w (w.setArena side a)
  | vacate {side : Side} {id : MissileId} {m : Missile} {a : Arena}
      (hvacate : (w.fleet.arena side).vacate? id = .ok (m, a)) : Handles w (w.setArena side a)
  | change (side : Side) (id : MissileId) {f : Missile -> Missile}
      (htarget : forall m, (f m).target = m.target) :
      Handles w (w.setArena side ((w.fleet.arena side).update id f))

namespace World

variable {w w' : World} {id : MissileId} {m : Missile}

theorem handles_self (w : World) : w.Handles w :=
  .supply rfl rfl rfl rfl

theorem handles_spawn? {side : Side} {slot : Nat} (h : w.spawn? side slot m = .ok (id, w'))
    (htarget : side = .defender -> m.target = none) : w.Handles w' := by
  rcases spawn?_eq_ok h with ⟨a, ha, heq⟩
  rw [heq]
  exact .spawn ha htarget

theorem handles_vacate? (h : w.vacate? id = .ok (m, w')) : w.Handles w' := by
  rcases vacate?_eq_ok h with ⟨a, ha, heq⟩
  rw [heq]
  exact .vacate ha

theorem handles_returnSlot? {side : Side} {slot : Nat} (h : w.returnSlot? side slot = .ok w') :
    w.Handles w' := by
  cases side with
  | attacker =>
      rcases bind_eq_ok.mp h with ⟨q, _, h⟩
      cases pure_eq_ok.mp h
      exact .supply rfl rfl rfl rfl
  | defender =>
      rcases bind_eq_ok.mp h with ⟨p, _, h⟩
      cases pure_eq_ok.mp h
      exact .supply rfl rfl rfl rfl

theorem handles_markDeleted (w : World) (id : MissileId) : w.Handles (w.markDeleted id) :=
  .change id.side id fun _ => rfl

theorem Handles.settings_eq (h : w.Handles w') : w'.settings = w.settings := by
  cases h with
  | supply hsettings hgrid hlock hfleet => exact hsettings
  | spawn hspawn htarget | vacate hvacate | change side id htarget => rfl

theorem Handles.grid_eq (h : w.Handles w') : w'.grid = w.grid := by
  cases h with
  | supply hsettings hgrid hlock hfleet => exact hgrid
  | spawn hspawn htarget | vacate hvacate | change side id htarget => rfl

theorem Handles.lock_eq (h : w.Handles w') : w'.lock = w.lock := by
  cases h with
  | supply hsettings hgrid hlock hfleet => exact hlock
  | spawn hspawn htarget | vacate hvacate | change side id htarget => rfl

end World

/-!
## Launchers
-/

section Launchers

variable {w : World} {c : Conditions}

theorem AttackLauncher.step_handles (l : AttackLauncher) : w.Handles (l.step c w).2 := by
  cases l with
  | armed slot =>
      simp only [step, World.drawAttacker]
      split
      · rename_i heq
        injection heq with _ heq
        rw [← heq]
        exact .supply rfl rfl rfl rfl
      · rename_i heq
        injection heq with _ heq
        rw [← heq]
        exact .supply rfl rfl rfl rfl
  | loaded slot m =>
      simp only [step]
      split
      · rename_i hspawn
        exact World.handles_spawn? hspawn fun hside => by cases hside
      · exact w.handles_self
  | retreating id =>
      simp only [step]
      split
      · rename_i hvacate
        exact World.handles_vacate? hvacate
      · exact w.handles_self
  | returning slot =>
      simp only [step]
      split
      · rename_i hreturn
        exact World.handles_returnSlot? hreturn
      · exact w.handles_self
  | idle | drawing | parked | drawn slot | launching id | cooling | ended | broken fault =>
      exact .supply rfl rfl rfl rfl

theorem Attempt.step_handles {a : Attempt} (ha : forall id, a ≠ reserved id) :
    w.Handles (a.step c w).2 := by
  cases a with
  | equipped slot =>
      simp only [step, reserve]
      split
      · rename_i hspawn
        exact World.handles_spawn? hspawn fun _ => rfl
      · exact w.handles_self
  | reserved id => exact absurd rfl (ha id)
  | aiming watch =>
      simp only [step, aim]
      split
      · exact w.handles_self
      · exact .change .defender watch.interceptor fun _ => rfl
  | retreating id =>
      simp only [step]
      split
      · rename_i hvacate
        exact World.handles_vacate? hvacate
      · exact w.handles_self
  | returning slot =>
      simp only [step]
      split
      · rename_i hreturn
        exact World.handles_returnSlot? hreturn
      · exact w.handles_self
  | seeking | queued | watching watch | pausing watch | watched watch | launching id
  | ended launched | broken fault => exact .supply rfl rfl rfl rfl

end Launchers

/-!
## Flights
-/

namespace Flight

variable {w : World}

theorem depart_handles (f : Flight) : w.Handles (f.depart w).2 := by
  unfold depart
  split
  · exact w.handles_self
  · rename_i hadvance
    rcases Arena.advance_eq_some hadvance with ⟨_, _, _, _, harena⟩
    rw [harena]
    exact .change f.id.side f.id fun _ => rfl

theorem lookUp_handles (f : Flight) : w.Handles (f.lookUp w).2 := by
  unfold lookUp
  split <;> exact w.handles_self

theorem step_handles {f : Flight} (hmoved : forall leg, f.stage ≠ .moved leg)
    (hclearing : forall cell, f.stage ≠ .clearing cell) : w.Handles (f.step w).2 := by
  unfold step
  split
  · split
    · exact f.depart_handles
    · exact f.depart_handles
    · exact f.lookUp_handles
    · exact f.lookUp_handles
    · exact w.handles_self
  · rename_i leg hstage
    exact absurd hstage (hmoved leg)
  · exact f.lookUp_handles
  · rename_i cell hstage
    exact absurd hstage (hclearing cell)
  · unfold vacate
    split
    · rename_i hvacate
      exact World.handles_vacate? hvacate
    · exact w.handles_self
  · unfold giveBack
    split
    · rename_i hreturn
      exact World.handles_returnSlot? hreturn
    · exact w.handles_self
  · exact w.handles_self

theorem step_cases (f : Flight) (w : World) :
    ((forall leg, f.stage ≠ .moved leg) ∧ w.Handles (f.step w).2) ∨
      (exists leg, f.stage = .moved leg ∧
        f.step w = (w.inGrid? .middle (f.enterCell leg)).getD (f, w)) ∨
      exists cell, f.stage = .clearing cell ∧
        f.step w = (w.inGrid? .middle (f.clearCell cell)).getD (f, w) := by
  by_cases hmoved : exists leg, f.stage = .moved leg
  · rcases hmoved with ⟨leg, hstage⟩
    exact .inr (.inl ⟨leg, hstage, by simp only [step, hstage]⟩)
  by_cases hclearing : exists cell, f.stage = .clearing cell
  · rcases hclearing with ⟨cell, hstage⟩
    exact .inr (.inr ⟨cell, hstage, by simp only [step, hstage]⟩)
  have hmoved' := not_exists.mp hmoved
  exact .inl ⟨hmoved', step_handles hmoved' (not_exists.mp hclearing)⟩

end Flight

/-!
## Tasks
-/

namespace Task

def claimant? : Task -> Option MissileId
  | defence (.attempting (.reserved id)) => some id
  | _ => none

variable {t : Task} {w : World} {c : Conditions}

theorem eq_of_claimant? {id : MissileId} (h : t.claimant? = some id) :
    t = .defence (.attempting (.reserved id)) := by
  unfold claimant? at h
  split at h
  · injection h with h
    rw [h]
  · cases h

theorem step_cases (ht : t.claimant? = none) :
    w.Handles (t.step c w).2 ∨ exists f, t = .flying f := by
  cases t with
  | attack l => exact .inl l.step_handles
  | defence l =>
      cases l with
      | attempting a =>
          refine .inl (Attempt.step_handles fun id hid => ?_)
          rw [hid] at ht
          cases ht
      | idle | pausing | ended | broken fault => exact .inl w.handles_self
  | checking f =>
      simp only [step]
      split
      · exact .inl w.handles_self
      · exact .inl (w.handles_markDeleted f.id)
  | flying f => exact .inr ⟨f, rfl⟩
  | pausing f | landed f => exact .inl w.handles_self

end Task
end AirDefense

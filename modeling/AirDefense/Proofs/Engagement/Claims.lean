import AirDefense.Proofs.Engagement.Handling
import AirDefense.Proofs.Engagement.Interleaving
import AirDefense.Proofs.Fleet.Pursuit

/-!
# Steps that claim nothing

A task assigns a target to an interceptor in one step, its claim, and for that it needs
the grid.  In no other step does anybody begin a pursuit.
-/

namespace AirDefense

/-- A section has left the lock as it was, and nobody has begun a pursuit. -/
structure World.Eases (w w' : World) : Prop where
  lock_eq : w'.lock = w.lock
  beginsNone : w.fleet.defenders.BeginsNone w'.fleet.defenders

namespace World

variable {w w' : World}

theorem eases_of_fleet (hlock : w'.lock = w.lock) (hfleet : w'.fleet = w.fleet) : w.Eases w' :=
  { lock_eq := hlock
    beginsNone := by
      rw [hfleet]
      exact .refl _ }

theorem Eases.refl (w : World) : w.Eases w :=
  eases_of_fleet rfl rfl

theorem Handles.eases (h : w.Handles w') : w.Eases w' := by
  refine ⟨h.lock_eq, ?_⟩
  cases h with
  | supply hsettings hgrid hlock hfleet =>
      rw [hfleet]
      exact .refl _
  | @spawn side slot m id a hspawn htarget =>
      cases side with
      | attacker => exact .refl _
      | defender => exact Arena.beginsNone_spawn? (htarget rfl) hspawn
  | vacate hvacate => exact Fleet.beginsNone_setArena (Arena.beginsNone_vacate? hvacate)
  | change side id htarget => exact Fleet.beginsNone_setArena (Arena.beginsNone_update htarget)

theorem eases_inGrid? {act : World -> α × World} {t : Tier} {x : α} (hquiet : w.lock.IsQuiet)
    (hact : forall held, ({ w with lock := held } : World).Eases
      (act { w with lock := held }).2) :
    w.Eases ((w.inGrid? t act).getD (x, w)).2 := by
  rcases inGrid?_cases act t hquiet with ⟨_, hnone⟩ | ⟨_, held, hsome⟩
  · rw [hnone]
    exact .refl w
  · rw [hsome (hact held).lock_eq]
    exact ⟨rfl, (hact held).beginsNone⟩

end World

/-!
## Launchers
-/

section Launchers

variable {w : World} {c : Conditions}

theorem Attempt.step_reserved (hquiet : w.lock.IsQuiet) (id : MissileId) :
    ((w.lock.enter .low).1 ≠ none ∧ (reserved id).step c w = (reserved id, w)) ∨
      (w.lock.holders = 0 ∧ (reserved id).step c w = claimTarget id w) := by
  simp only [step]
  rcases World.inGrid?_cases (claimTarget id) .low hquiet with
    ⟨hbusy, hnone⟩ | ⟨hfree, held, hsome⟩
  · rw [hnone]
    exact .inl ⟨hbusy, rfl⟩
  · refine .inr ⟨hfree, ?_⟩
    have hlock : (claimTarget id { w with lock := held }).2.lock = held := by
      unfold claimTarget
      split <;> rfl
    rw [hsome hlock]
    simp only [Option.getD_some, claimTarget]
    cases hclaim : Claim.take w.grid w.fleet id with
    | mk claim? rest =>
        cases claim? <;> rfl

end Launchers

/-!
## Flights
-/

namespace Flight

variable {f : Flight} {w : World}

theorem eases_enterCell (leg : Leg) : w.Eases (f.enterCell leg w).2 := by
  unfold enterCell
  simp only
  split
  · exact World.eases_of_fleet rfl rfl
  · split
    · exact World.eases_of_fleet rfl rfl
    · rename_i hresolve
      refine ⟨rfl, ?_⟩
      rcases Grid.resolve?_collided hresolve with ⟨_, _, ⟨hfleet, _⟩ | ⟨_, victim, _, _, hfleet, _⟩⟩
      · rw [hfleet]
        exact .refl _
      · rw [hfleet]
        exact Fleet.beginsNone_markDeleted victim
    · split <;> exact World.eases_of_fleet rfl rfl

theorem step_eases (hquiet : w.lock.IsQuiet) : w.Eases (f.step w).2 := by
  rcases f.step_cases w with ⟨_, hhandles⟩ | ⟨leg, _, hstep⟩ | ⟨cell, _, hstep⟩
  · exact hhandles.eases
  · rw [hstep]
    exact World.eases_inGrid? hquiet fun _ => eases_enterCell _
  · rw [hstep]
    exact World.eases_inGrid? hquiet fun _ => World.eases_of_fleet rfl rfl

end Flight

/-!
## Tasks
-/

namespace Task

variable {t : Task} {w : World} {c : Conditions}

theorem step_eases (hquiet : w.lock.IsQuiet) (ht : t.claimant? = none) :
    w.Eases (t.step c w).2 := by
  rcases step_cases ht with hhandles | ⟨f, heq⟩
  · exact hhandles.eases
  · rw [heq]
    exact Flight.step_eases hquiet

/-- A task that is about to claim waits for the grid, or claims. -/
theorem step_claims (hquiet : w.lock.IsQuiet) {id : MissileId} (ht : t.claimant? = some id) :
    ((w.lock.enter .low).1 ≠ none ∧ t.step c w = (t, w)) ∨
      (w.lock.holders = 0 ∧ t.step c w =
        (.defence (.attempting (Attempt.claimTarget id w).1), (Attempt.claimTarget id w).2)) := by
  have hgoes : forall w', DefenceLauncher.afterAttempt (Attempt.claimTarget id w').1 =
      .attempting (Attempt.claimTarget id w').1 := by
    intro w'
    unfold Attempt.claimTarget
    split <;> rfl
  rw [eq_of_claimant? ht]
  simp only [step, DefenceLauncher.step]
  rcases Attempt.step_reserved (c := c) hquiet id with ⟨hbusy, hstay⟩ | ⟨hfree, hclaim⟩
  · rw [hstay]
    exact .inl ⟨hbusy, rfl⟩
  · rw [hclaim, hgoes]
    exact .inr ⟨hfree, rfl⟩

end Task
end AirDefense

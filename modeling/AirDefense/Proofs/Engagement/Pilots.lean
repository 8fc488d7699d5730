import AirDefense.Proofs.Engagement.Endings
import AirDefense.Proofs.Engagement.Handling
import AirDefense.Proofs.Field.Scoring

/-!
# Who is on the grid

Launchers move nothing on the grid, and a flight moves its own missile only.  So each
missile on the grid is one that some task flies.  The score changes with the collision
of a flight and with nothing else.
-/

namespace AirDefense

structure Grid.SameAs (g g' : Grid) : Prop where
  score : g'.score = g.score
  occupant : forall p, g'.occupant? p = g.occupant? p

theorem Grid.SameAs.of_eq {g g' : Grid} (h : g' = g) : g.SameAs g' := by
  rw [h]
  exact ⟨rfl, fun _ => rfl⟩

variable {w : World} {c : Conditions}

/-!
## Flights
-/

namespace Flight

def collisionAt? (f : Flight) (leg : Leg) (w : World) : Option Collision :=
  if w.fleet.isActive f.id then
    match (w.grid.clear leg.origin f.id).2.resolve? w.fleet f.id leg.destination
        w.settings.field.missileRadius with
    | .ok (outcome, _) => outcome
    | .error _ => none
  else none

def collision? (f : Flight) (w : World) : Option Collision :=
  match f.stage, (w.lock.enter .middle).1 with
  | .moved leg, none => f.collisionAt? leg w
  | _, _ => none

structure Moves (f : Flight) (w : World) (c? : Option Collision) (w' : World) : Prop where
  score : w'.grid.score = w.grid.score.count c?
  occupant : forall p id, w'.grid.occupant? p = some id ->
    w.grid.occupant? p = some id ∨ id = f.id

variable {f : Flight}

theorem moves_nothing {w' : World} (h : w.grid.SameAs w'.grid) : f.Moves w none w' :=
  ⟨h.score, fun p _ hp => .inl (h.occupant p ▸ hp)⟩

theorem moves_clear {w' : World} (cell : Position)
    (h : w'.grid = (w.grid.clear cell f.id).2) : f.Moves w none w' := by
  refine ⟨by rw [h]; exact Grid.score_clear, fun p id hp => .inl ?_⟩
  rw [h, Grid.occupant?_clear] at hp
  split at hp
  · cases hp
  · exact hp

theorem enterCell_moves (hroom : w.grid.HasRoom w.settings.field.missileRadius) (leg : Leg) :
    f.Moves w (f.collisionAt? leg w) (f.enterCell leg w).2 := by
  have hclear : f.Moves w none { w with grid := (w.grid.clear leg.origin f.id).2 } :=
    moves_clear leg.origin rfl
  rcases enterCell_cases (f := f) hroom leg with ⟨hinactive, heq⟩ | ⟨hactive, hcase⟩
  · simp only [collisionAt?, hinactive, heq]
    exact hclear
  · rcases hcase with ⟨collision, g, fleet, hresolve, heq⟩ | ⟨g, fleet, hresolve, heq⟩
    · simp only [collisionAt?, hactive, if_true, hresolve, heq]
      refine ⟨?_, fun p id hp => hclear.occupant p id ?_⟩
      · simpa only [Grid.score_clear] using (Grid.score_resolve? hresolve).1
      · rcases Grid.resolve?_collided hresolve with
          ⟨_, _, ⟨_, hsame⟩ | ⟨spot, victim, _, _, _, hcells⟩⟩
        · rwa [hsame] at hp
        · rw [hcells] at hp
          split at hp
          · cases hp
          · exact hp
    · simp only [collisionAt?, hactive, if_true, hresolve, heq]
      refine ⟨hclear.score, fun p id hp => ?_⟩
      rw [Grid.occupant?_write (Grid.resolve?_free hresolve).1] at hp
      split at hp
      · rw [occupant?_movedCell] at hp
        injection hp with hp
        exact .inr hp.symm
      · exact hclear.occupant p id hp

theorem collision?_eq_none (hmoved : forall leg, f.stage ≠ .moved leg) :
    f.collision? w = none := by
  unfold collision?
  split
  · rename_i leg hstage _
    exact absurd hstage (hmoved leg)
  · rfl

theorem step_moves (hroom : w.grid.HasRoom w.settings.field.missileRadius) :
    f.Moves w (f.collision? w) (f.step w).2 := by
  rcases f.step_cases w with ⟨hmoved, hhandles⟩ | ⟨leg, hstage, hstep⟩ | ⟨cell, hstage, hstep⟩
  · rw [collision?_eq_none hmoved]
    exact moves_nothing (.of_eq hhandles.grid_eq)
  · rw [hstep]
    rcases World.inGrid?_enter (w := w) (f.enterCell leg) .middle with
      ⟨hbusy, hwait⟩ | ⟨hfree, held, lock, hsection⟩
    · have hnone : f.collision? w = none := by
        simp only [collision?, hstage]
        split
        · rename_i heq
          exact absurd heq hbusy
        · rfl
      rw [hwait, hnone]
      exact moves_nothing (.of_eq rfl)
    · simp only [collision?, hstage, hfree]
      rw [hsection]
      have hmoves := enterCell_moves (f := f) (w := { w with lock := held }) hroom leg
      exact ⟨hmoves.score, hmoves.occupant⟩
  · have hmoved : forall leg, f.stage ≠ .moved leg := by
      intro leg h
      rw [hstage] at h
      cases h
    rw [collision?_eq_none hmoved, hstep]
    rcases World.inGrid?_enter (w := w) (f.clearCell cell) .middle with
      ⟨_, hwait⟩ | ⟨_, held, lock, hsection⟩
    · rw [hwait]
      exact moves_nothing (.of_eq rfl)
    · rw [hsection]
      exact moves_clear cell rfl

end Flight

/-!
## Tasks
-/

namespace Task

def collision? (t : Task) (w : World) : Option Collision :=
  match t with
  | flying f => f.collision? w
  | _ => none

variable {t : Task}

theorem claimTarget_sameAs (id : MissileId) :
    w.grid.SameAs (Attempt.claimTarget id w).2.grid := by
  unfold Attempt.claimTarget Claim.take
  cases Claim.first? w.grid w.fleet with
  | none => exact .of_eq rfl
  | some claim => exact ⟨Grid.score_stamp, fun p => Grid.occupant?_stamp⟩

theorem step_sameAs (ht : forall f, t ≠ flying f) : w.grid.SameAs (t.step c w).2.grid := by
  cases hclaimant : t.claimant? with
  | none =>
      rcases step_cases hclaimant with hhandles | ⟨f, heq⟩
      · exact .of_eq hhandles.grid_eq
      · exact absurd heq (ht f)
  | some id =>
      rw [eq_of_claimant? hclaimant]
      simp only [step, DefenceLauncher.step, Attempt.step]
      rcases World.inGrid?_enter (w := w) (Attempt.claimTarget id) .low with
        ⟨_, hwait⟩ | ⟨_, held, lock, hsection⟩
      · rw [hwait]
        exact .of_eq rfl
      · rw [hsection]
        exact claimTarget_sameAs (w := { w with lock := held }) id

theorem step_score (hw : w.Sound) :
    (t.step c w).2.grid.score = w.grid.score.count (t.collision? w) := by
  cases t with
  | flying f => exact (Flight.step_moves hw.room).score
  | attack l | defence l | checking f | pausing f | landed f =>
      refine (step_sameAs ?_).score
      intro f h
      cases h

theorem step_occupant (hw : w.Sound) {p : Position} {id : MissileId}
    (hp : (t.step c w).2.grid.occupant? p = some id) :
    w.grid.occupant? p = some id ∨ t.aloft? = some id := by
  cases t with
  | flying f =>
      rcases (Flight.step_moves hw.room).occupant p id hp with hbefore | heq
      · exact .inl hbefore
      · exact .inr (by rw [heq]; rfl)
  | attack l | defence l | checking f | pausing f | landed f =>
      rw [(step_sameAs fun f h => by cases h).occupant] at hp
      exact .inl hp

end Task

namespace Engagement

variable {e : Engagement} {p : Position} {id : MissileId}

/-- Every missile on the grid is flown by some task. -/
def IsPiloted (e : Engagement) : Prop :=
  forall p id, e.world.grid.occupant? p = some id -> exists t, t ∈ e.tasks ∧ t.aloft? = some id

/-- A flight goes on as long as its missile is in its arena. -/
theorem Sound.aloft_act (h : e.Sound) {i : Nat} {t : Task} (hi : e.tasks[i]? = some t)
    (haloft : t.aloft? = some id) {a : Action}
    (hlive : ((e.act a).world.fleet.find? id).isSome = true) :
    exists t', (e.act a).tasks[i]? = some t' ∧ t'.aloft? = some id := by
  rcases h.evolves hi a with ⟨t', ht', hevolves⟩
  refine ⟨t', ht', ?_⟩
  rcases Task.flight?_of_aloft haloft with ⟨f, hf, hid, _⟩
  rcases hevolves.flight f hf with ⟨r, hr, hsame, hfollows⟩
  rcases Task.aloft?_flight hr with hlanded | hstill
  · exfalso
    subst hlanded
    rcases Option.isSome_iff_exists.mp hlive with ⟨m, hm⟩
    have htaken := (h.act a).world.taken id.seat (Arena.isOccupied_of_find? hm)
    rcases Task.charge_cases (h.task t (List.mem_of_getElem? hi)) haloft with ⟨place, hc⟩ | hc
    · rw [hc] at hfollows
      cases hfollows
    · rw [hc] at hfollows
      exact hfollows htaken
  · rw [hstill, hsame, hid]

def worker (e : Engagement) : Action -> Option Task
  | .work i _ _ _ => e.tasks[i]?
  | _ => none

theorem Sound.worker_cases (h : e.Sound) (a : Action) :
    (exists t c, e.worker a = some t ∧ t ∈ e.tasks ∧ (e.act a).world = (t.step c e.world).2) ∨
      (e.worker a = none ∧ (e.act a).world.grid = e.world.grid) := by
  cases a with
  | work i accepting now dt =>
      cases hi : e.tasks[i]? with
      | none =>
          refine .inr ⟨hi, ?_⟩
          simp only [Engagement.act, hi]
      | some t =>
          refine .inl ⟨t, { running := e.running, accepting, now }, hi, List.mem_of_getElem? hi, ?_⟩
          simp only [Engagement.act, hi]
          rfl
  | look i =>
      refine .inr ⟨rfl, ?_⟩
      cases hi : e.observers[i]? with
      | none => simp only [Engagement.act, hi]
      | some o =>
          rcases step_observer h.quiet h.holders_le (h.held (List.mem_of_getElem? hi)) with
            ⟨l, hworld, _⟩
          simp only [Engagement.act, hi, hworld]
  | hire side | watch | request | mark other | stop | closeAdmission | closePool =>
      exact .inr ⟨rfl, rfl⟩

theorem Sound.piloted_act (h : e.Sound) (hpiloted : e.IsPiloted) (a : Action) :
    (e.act a).IsPiloted := by
  intro p id hp
  have hlive := (h.act a).world.live p id hp
  have hbefore : exists t, t ∈ e.tasks ∧ t.aloft? = some id := by
    rcases h.worker_cases a with ⟨t, c, _, hmem, hworld⟩ | ⟨_, hgrid⟩
    · rw [hworld] at hp
      rcases Task.step_occupant h.world hp with hold | haloft
      · exact hpiloted p id hold
      · exact ⟨t, hmem, haloft⟩
    · rw [hgrid] at hp
      exact hpiloted p id hp
  rcases hbefore with ⟨t, hmem, haloft⟩
  rcases List.getElem?_of_mem hmem with ⟨i, hi⟩
  rcases h.aloft_act hi haloft hlive with ⟨t', ht', haloft'⟩
  exact ⟨t', List.mem_of_getElem? ht', haloft'⟩

theorem start_piloted {s : Settings} {w : World} (hw : World.ofSettings? s = .ok w) :
    (start w).IsPiloted := by
  intro p id hp
  rw [start, (Grid.ofSettings?_spec (World.isFresh_of_ofSettings? hw).grid).2.2.2 p] at hp
  cases hp

end Engagement
end AirDefense

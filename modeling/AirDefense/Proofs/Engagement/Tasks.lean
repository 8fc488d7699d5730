import AirDefense.Engagement.Task
import AirDefense.Proofs.Engagement.Flights
import AirDefense.Proofs.Engagement.Launchers

/-!
# Steps of a task

Whatever a task is, a step of it passes its charge on in one way: to itself, or to a
flight that starts with the step.
-/

namespace AirDefense

@[simp] theorem Charge.Follows.refl (w : World) (c : Charge) : Charge.Follows w c c := by
  cases c with
  | nothing => trivial
  | slot seat => rfl
  | missile seat id place => exact ⟨rfl, rfl⟩

namespace Task

/-- The flight of a task that flies a missile. -/
def flight? : Task -> Option Flight
  | attack _ => none
  | defence _ => none
  | checking f => some f
  | flying f => some f
  | pausing f => some f
  | landed f => some f

def charge : Task -> Charge
  | attack l => l.charge
  | defence l => l.charge
  | checking f => f.charge
  | flying f => f.charge
  | pausing f => f.charge
  | landed _ => .nothing

def Sound : Task -> Prop
  | attack l => l.Sound
  | defence l => l.Sound
  | checking f => f.Sound ∧ f.phase ≠ .cleared
  | flying f => f.Sound ∧ f.phase ≠ .cleared
  | pausing f => f.Sound ∧ f.phase ≠ .cleared
  | landed f => f.Sound ∧ f.phase = .cleared

/-- The task `t` may have become `t'` in a step that led to `w`. -/
structure Evolves (w : World) (t t' : Task) : Prop where
  flight : forall f, t.flight? = some f ->
    exists r, t'.flight? = some r ∧ r.id = f.id ∧ Charge.Follows w t.charge t'.charge
  launcher : t.flight? = none -> t'.flight? = none

theorem Evolves.refl (w : World) (t : Task) : t.Evolves w t :=
  ⟨fun f hf => ⟨f, hf, rfl, .refl w _⟩, fun h => h⟩

theorem evolves_launcher {w : World} {t t' : Task} (h : t.flight? = none)
    (h' : t'.flight? = none) : t.Evolves w t' :=
  { flight := by
      intro f hf
      rw [h] at hf
      cases hf
    launcher := fun _ => h' }

variable {t : Task} {c : Conditions} {w : World}

/-!
## Flights within a period
-/

theorem afterStep_spec {f : Flight} (hf : f.Sound) :
    (afterStep f).charge = f.charge ∧ (afterStep f).Sound ∧
      (afterStep f).flight? = some f := by
  have hunbroken := hf.unbroken
  unfold afterStep
  cases hsettled : f.isSettled with
  | false =>
      have hbusy : f.phase ≠ .cleared := by
        intro hphase
        simp [Flight.isSettled, hf.cleared hphase] at hsettled
      exact ⟨rfl, ⟨hf, hbusy⟩, rfl⟩
  | true =>
      by_cases hphase : f.phase = .cleared
      · have hcharge : f.charge = .nothing := by
          simp only [Flight.charge, hf.cleared hphase, hphase]
        simp only [hphase, hunbroken]
        exact ⟨hcharge.symm, ⟨hf, hphase⟩, rfl⟩
      · simp only [hphase, hunbroken]
        exact ⟨rfl, ⟨hf, hphase⟩, rfl⟩

/-!
## One step
-/

theorem step_advances (hquiet : w.lock.IsQuiet) (hw : w.Sound) (hc : t.charge.Sound w)
    (ht : t.Sound) (hstarts : t.starts? c = none) :
    Charge.Advances w t.charge (t.step c w).1.charge (t.step c w).2 ∧
      (t.step c w).1.Sound ∧ t.Evolves (t.step c w).2 (t.step c w).1 := by
  cases t with
  | attack l =>
      rcases AttackLauncher.step_advances hw hc ht hstarts with ⟨hadvances, hsound⟩
      exact ⟨hadvances, hsound, evolves_launcher rfl rfl⟩
  | defence l =>
      rcases DefenceLauncher.step_advances hquiet hw hc ht hstarts with ⟨hadvances, hsound⟩
      exact ⟨hadvances, hsound, evolves_launcher rfl rfl⟩
  | checking f =>
      refine ⟨?_, ht, fun r hr => ⟨f, rfl, by injection hr with hr; rw [hr], .refl _ _⟩,
        fun h => by cases h⟩
      simp only [step]
      split
      · exact hc.stays hw
      · exact hc.advances (hw.markDeleted f.id)
  | flying f =>
      have hsteps := Flight.step_steps hquiet hw hc ht.1
      rcases afterStep_spec hsteps.sound with ⟨hcharge, hsound, hflight⟩
      simp only [step]
      rw [hcharge]
      refine ⟨hsteps.advances, hsound, fun r hr => ?_, fun h => by cases h⟩
      injection hr with hr
      subst hr
      exact ⟨_, hflight, hsteps.id_eq, hcharge ▸ hsteps.follows⟩
  | pausing f =>
      exact ⟨hc.stays hw, ht, fun r hr => ⟨f, rfl, by injection hr with hr; rw [hr], .refl _ _⟩,
        fun h => by cases h⟩
  | landed f => exact ⟨hc.stays hw, ht, .refl _ _⟩

theorem step_starts (hc : t.charge.Sound w) {id : MissileId} (hstarts : t.starts? c = some id) :
    (t.step c w).1.charge = .nothing ∧ (t.step c w).1.Sound ∧ (t.step c w).2 = w ∧
      t.charge = .missile id.seat id .nowhere ∧ t.flight? = none ∧
      (t.step c w).1.flight? = none := by
  cases t with
  | attack l =>
      rcases AttackLauncher.step_starts hc hstarts with ⟨hnothing, hsound, hsame, hcharge⟩
      exact ⟨hnothing, hsound, hsame, hcharge, rfl, rfl⟩
  | defence l =>
      rcases DefenceLauncher.step_starts hc hstarts with ⟨hnothing, hsound, hsame, hcharge⟩
      exact ⟨hnothing, hsound, hsame, hcharge, rfl, rfl⟩
  | checking f => cases hstarts
  | flying f => cases hstarts
  | pausing f => cases hstarts
  | landed f => cases hstarts

theorem step_keeps (hquiet : w.lock.IsQuiet) (hw : w.Sound) (hc : t.charge.Sound w)
    (ht : t.Sound) : w.Keeps t.charge.seat? (t.step c w).2 := by
  cases hstarts : t.starts? c with
  | none => exact (step_advances hquiet hw hc ht hstarts).1.keeps
  | some id =>
      rw [(step_starts hc hstarts).2.2.1]
      exact hw.keeps_self

theorem step_evolves (hquiet : w.lock.IsQuiet) (hw : w.Sound) (hc : t.charge.Sound w)
    (ht : t.Sound) : t.Evolves (t.step c w).2 (t.step c w).1 := by
  cases hstarts : t.starts? c with
  | none => exact (step_advances hquiet hw hc ht hstarts).2.2
  | some id =>
      rcases step_starts hc hstarts with ⟨_, _, _, _, hbefore, hafter⟩
      exact evolves_launcher hbefore hafter

end Task

theorem Duty.begin_flight (id : MissileId) (dt : Float32) :
    ((Duty.flight id).begin dt).charge = .missile id.seat id .nowhere ∧
      ((Duty.flight id).begin dt).Sound :=
  ⟨rfl, ⟨rfl, fun h => by cases h⟩, fun h => by cases h⟩

end AirDefense

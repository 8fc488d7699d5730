import AirDefense.Proofs.Engagement.Separation
import AirDefense.Proofs.Number.Integers
import AirDefense.Proofs.Settings.Rows

/-!
# Launch points

Under valid settings the usable columns are in order, in single precision too, so there is
always a launch point to aim for.  An attempt of the defence thus goes on or ends with an
answer, unless there is no room for its samples.
-/

namespace AirDefense

theorem Settings.exists_clampLaunch {s : Settings} {g : Grid}
    (h : s.validate = .ok (.ok ())) (hg : Grid.ofSettings? s.field = .ok g) :
    exists b, s.launchBounds? = .ok b ∧ forall x, exists y, s.clampLaunch? b x = .ok y := by
  have hf := hasInterior_of_validate h
  have hwall := hf.wall_pos
  have hradius := hf.radius_pos
  have hinner := hf.margin_lt_width
  have hwidth : s.field.width < 2 ^ 32 := by
    rcases hf.sides_le with ⟨hrows, _⟩
    have hgreatest := (Grid.ofSettings?_spec hg).1.2
    unfold Bounded.greatest at hgreatest
    omega
  rcases launchRow?_of_validate h with ⟨row, hrow, _⟩
  rcases hf.interior hg with ⟨hleast, hgreatest⟩
  refine ⟨_, bind_eq_ok.mpr ⟨row, hrow, bind_eq_ok.mpr ⟨_, hleast,
    bind_eq_ok.mpr ⟨_, hgreatest, rfl⟩⟩⟩, fun x => ?_⟩
  unfold clampLaunch? geometry
  simp only
  rw [if_pos (Single.ofInt_le_ofInt (by omega) (by omega) (by omega))]
  exact ⟨_, rfl⟩

namespace Attempt

variable {a : Attempt} {c : Conditions} {w : World}

def CanAim (s : Settings) : Prop :=
  forall watch, exists point, launchPoint? s watch = .ok point

theorem canAim_of_validate {s : Settings} {g : Grid} (h : s.validate = .ok (.ok ()))
    (hg : Grid.ofSettings? s.field = .ok g) : CanAim s := by
  intro watch
  rcases Settings.exists_clampLaunch h hg with ⟨b, hb, hclamp⟩
  rcases hclamp (predict s.predictor.searchLimits (s.geometry b)
    (Single.ofInt watch.claim.position.x) watch.log.samples).x with ⟨x, hx⟩
  exact ⟨_, bind_eq_ok.mpr ⟨b, hb, bind_eq_ok.mpr ⟨x, hx, rfl⟩⟩⟩

/-- Why the attempt broke off. -/
def fault? : Attempt -> Option Fault
  | broken fault => some fault
  | _ => none

theorem fault?_take (answer : SlotAnswer) : (take answer).fault? = none := by
  cases answer <;> rfl

theorem fault?_readTarget (watch : Watch) : (readTarget c watch w).fault? = none := by
  unfold readTarget
  split
  · rfl
  · split
    · rfl
    · split
      · rfl
      · split <;> rfl

/-- The fault of an attempt whose samples there is no room for. -/
def LacksRoom (s : Settings) (fault : Fault) : Prop :=
  fault = .capacityOverflow ∧ PredictorSettings.sampleRoom < s.predictor.maxSamples

theorem fault?_step (hw : w.Sound) (hc : a.charge.Sound w) (haim : CanAim w.settings)
    {fault : Fault} (hfault : (a.step c w).1.fault? = some fault) :
    a.fault? = some fault ∨ LacksRoom w.settings fault := by
  cases a with
  | seeking | queued =>
      rw [step, fault?_take] at hfault
      cases hfault
  | equipped slot =>
      rcases Charge.advances_spawn (m := Missile.launchedAt .defender .origin (Single.ofInt 0)
        w.settings.defender.angle) hw hc rfl with ⟨id, w', hspawn, _⟩
      simp only at hspawn
      simp only [step, reserve, hspawn] at hfault
      cases hfault
  | reserved id =>
      simp only [step] at hfault
      rcases World.inGrid?_enter (w := w) (claimTarget id) .low with
        ⟨_, hwait⟩ | ⟨_, held, lock, hsection⟩
      · rw [hwait] at hfault
        cases hfault
      · rw [hsection] at hfault
        unfold claimTarget at hfault
        split at hfault <;> cases hfault
  | watching watch =>
      simp only [step] at hfault
      rcases observe_cases c watch w with ⟨hlarge, heq⟩ | ⟨_, heq⟩
      · rw [heq] at hfault
        injection hfault with hfault
        exact .inr ⟨hfault.symm, hlarge⟩
      · rw [heq, fault?_readTarget] at hfault
        cases hfault
  | pausing watch | watched watch | launching id =>
      simp only [step] at hfault
      split at hfault <;> cases hfault
  | aiming watch =>
      rcases haim watch with ⟨point, hpoint⟩
      simp only [step, aim, hpoint] at hfault
      cases hfault
  | retreating id =>
      rcases Charge.advances_vacate hw hc with ⟨m, w', hvacate, _⟩
      simp only [step, hvacate] at hfault
      cases hfault
  | returning slot =>
      rcases Charge.advances_return hw hc with ⟨w', hreturn, _⟩
      simp only at hreturn
      simp only [step, hreturn] at hfault
      cases hfault
  | ended launched | broken other => exact .inl hfault

end Attempt

/-!
## The launcher
-/

namespace DefenceLauncher

/-- Why the launcher broke off, or its attempt did. -/
def fault? : DefenceLauncher -> Option Fault
  | attempting a => a.fault?
  | broken fault => some fault
  | _ => none

theorem fault?_afterAttempt (a : Attempt) : (afterAttempt a).fault? = a.fault? := by
  cases a <;> rfl

theorem fault?_step {l : DefenceLauncher} {c : Conditions} {w : World} (hw : w.Sound)
    (hc : l.charge.Sound w) (haim : Attempt.CanAim w.settings) {fault : Fault}
    (hfault : (l.step c w).1.fault? = some fault) :
    l.fault? = some fault ∨ Attempt.LacksRoom w.settings fault := by
  cases l with
  | idle =>
      simp only [step] at hfault
      split at hfault <;> cases hfault
  | attempting a =>
      exact Attempt.fault?_step hw hc haim ((fault?_afterAttempt _).symm.trans hfault)
  | pausing => cases hfault
  | ended | broken other => exact .inl hfault

end DefenceLauncher

namespace Engagement

variable {e : Engagement} {s : Settings}

/-- No launcher of the defence has broken off but for want of room for samples. -/
def IsWhole (s : Settings) (e : Engagement) : Prop :=
  forall l fault, .defence l ∈ e.tasks -> l.fault? = some fault -> Attempt.LacksRoom s fault

theorem IsWhole.work (h : e.IsWhole s) (hclear : e.IsClear s) (haim : Attempt.CanAim s) {i : Nat}
    {t : Task} (hi : e.tasks[i]? = some t) (c : Conditions) (dt : Float32) :
    (e.work i c dt t).IsWhole s := by
  have hmem := List.mem_of_getElem? hi
  intro l fault hl hfault
  rcases List.mem_append.mp hl with hset | hstarted
  · rcases List.mem_or_eq_of_mem_set hset with hold | heq
    · exact h l fault hold hfault
    · cases t with
      | attack other | checking f | pausing f | landed f => cases heq
      | flying f =>
          have hflight : Task.defence l = .afterStep (f.step e.world).1 := heq
          unfold Task.afterStep at hflight
          split at hflight
          · cases hflight
          · split at hflight <;> cases hflight
      | defence other =>
          injection heq with heq
          subst heq
          rw [← hclear.settings_eq] at haim
          rcases DefenceLauncher.fault?_step hclear.sound.world (hclear.sound.charge _ hmem) haim
            hfault with hbefore | hlacks
          · exact h other fault hmem hbefore
          · exact hclear.settings_eq ▸ hlacks
  · rcases List.mem_map.mp hstarted with ⟨id, _, heq⟩
    cases heq

theorem IsWhole.maneuver (h : e.IsWhole s) (hclear : e.IsClear s) (haim : Attempt.CanAim s)
    (m : Maneuver) : (e.maneuver m).IsWhole s := by
  cases m with
  | steer id point speed angle => exact h
  | act a =>
      cases a with
      | hire side =>
          intro l fault hl hfault
          rcases List.mem_append.mp hl with hold | hnew
          · exact h l fault hold hfault
          · cases side with
            | attacker => cases List.mem_singleton.mp hnew
            | defender =>
                cases List.mem_singleton.mp hnew
                cases hfault
      | work i accepting now dt =>
          simp only [Engagement.maneuver, act]
          split
          · exact h
          · rename_i t hi
            exact h.work hclear haim hi _ dt
      | look i =>
          simp only [Engagement.maneuver, act]
          split <;> exact h
      | watch | request | mark id | stop | closeAdmission | closePool => exact h

theorem maneuvers_isWhole {w : World} (hvalid : s.validate = .ok (.ok ()))
    (hw : World.ofSettings? s = .ok w) (ms : List Maneuver) :
    ((start w).maneuvers ms).IsWhole s := by
  have hclear := start_isClear hvalid hw
  have hwhole : (start w).IsWhole s := fun l fault hl => absurd hl List.not_mem_nil
  have haim := Attempt.canAim_of_validate hvalid (World.isFresh_of_ofSettings? hw).grid
  generalize start w = e at hclear hwhole
  induction ms generalizing e with
  | nil => exact hwhole
  | cons m rest ih => exact ih _ (hclear.maneuver m) (hwhole.maneuver hclear haim m)

end Engagement
end AirDefense

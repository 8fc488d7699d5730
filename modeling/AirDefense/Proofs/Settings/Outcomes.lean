import AirDefense.Proofs.Settings.Ranges
import AirDefense.Proofs.Settings.Rules
import Mathlib.Control.Monad.Basic

/-!
# Whether validation comes to an end

Validation computes before it compares, in 32 bits.  Two of its sums may leave that range:
the margin that walls and radius take on both sides, and the row that is a radius below a
launch row which the settings name.  Nothing else does; the launch row that the field itself
gives can always be computed once it is asked for.
-/

namespace AirDefense
namespace FieldSettings

variable {f : FieldSettings} {fault : Fault}

/-- The margin on both sides is no number of 32 bits, although walls and radius are valid. -/
structure MarginOverflows (f : FieldSettings) (fault : Fault) : Prop where
  wall_pos : 1 <= f.wallThickness
  radius_pos : 1 <= f.missileRadius
  too_wide : Bounded.greatest < 2 * (f.wallThickness + f.missileRadius + 1)
  fault_eq : fault =
    if Bounded.greatest < f.wallThickness + f.missileRadius + 1 then .addOverflow
    else .multiplyOverflow

theorem fits_of_pos {n : Int} (hpos : 0 <= n) : Bounded.Fits n ↔ n <= Bounded.greatest := by
  unfold Bounded.Fits Bounded.least
  omega

def margin? (f : FieldSettings) : Except Fault Int := do
  let edge <- f.leastInterior?
  Bounded.mul? 2 edge

theorem leastInterior?_eq_error_iff (hwall : 1 <= f.wallThickness)
    (hradius : 1 <= f.missileRadius) :
    f.leastInterior? = .error fault ↔
      Bounded.greatest < f.wallThickness + f.missileRadius + 1 ∧ fault = .addOverflow := by
  unfold leastInterior?
  rw [bind_eq_error]
  constructor
  · rintro (h | ⟨edge, hedge, h⟩)
    · rcases Bounded.check_eq_error.mp h with ⟨hfits, hfault⟩
      rw [fits_of_pos (by omega)] at hfits
      exact ⟨by omega, hfault.symm⟩
    · rcases Bounded.check_eq_error.mp h with ⟨hfits, hfault⟩
      rw [← (Bounded.add?_eq_ok.mp hedge).2, fits_of_pos (by omega)] at hfits
      exact ⟨by omega, hfault.symm⟩
  · rintro ⟨hwide, rfl⟩
    by_cases hfits : Bounded.Fits (f.wallThickness + f.missileRadius)
    · refine .inr ⟨_, Bounded.add?_eq_ok.mpr ⟨hfits, rfl⟩, Bounded.check_eq_error.mpr ⟨?_, rfl⟩⟩
      rw [fits_of_pos (by omega)]
      omega
    · exact .inl (Bounded.check_eq_error.mpr ⟨hfits, rfl⟩)

theorem eq_of_leastInterior? {edge : Int} (h : f.leastInterior? = .ok edge) :
    edge = f.wallThickness + f.missileRadius + 1 := by
  rcases bind_eq_ok.mp h with ⟨inner, hinner, h⟩
  rw [← (Bounded.add?_eq_ok.mp h).2, ← (Bounded.add?_eq_ok.mp hinner).2]

theorem margin?_eq_error_iff (hwall : 1 <= f.wallThickness) (hradius : 1 <= f.missileRadius) :
    f.margin? = .error fault ↔ f.MarginOverflows fault := by
  unfold margin?
  rw [bind_eq_error, leastInterior?_eq_error_iff hwall hradius]
  constructor
  · rintro (⟨hwide, hfault⟩ | ⟨edge, hedge, h⟩)
    · exact ⟨hwall, hradius, by omega, by rw [if_pos hwide, hfault]⟩
    · rcases Bounded.check_eq_error.mp h with ⟨hfits, hfault⟩
      have hsum := eq_of_leastInterior? hedge
      have hnarrow : ¬ Bounded.greatest < f.wallThickness + f.missileRadius + 1 := by
        intro hwide
        have herror := (leastInterior?_eq_error_iff hwall hradius).mpr ⟨hwide, rfl⟩
        rw [hedge] at herror
        cases herror
      rw [hsum, fits_of_pos (by omega)] at hfits
      exact ⟨hwall, hradius, by omega, by rw [if_neg hnarrow, hfault]⟩
  · rintro ⟨_, _, hwide, hfault⟩
    split at hfault
    · rename_i hedge
      exact .inl ⟨hedge, hfault⟩
    · rename_i hedge
      cases hleast : f.leastInterior? with
      | error fault' => exact absurd ((leastInterior?_eq_error_iff hwall hradius).mp hleast).1 hedge
      | ok edge =>
          refine .inr ⟨edge, rfl, Bounded.check_eq_error.mpr ⟨?_, hfault.symm⟩⟩
          rw [eq_of_leastInterior? hleast, fits_of_pos (by omega)]
          omega

end FieldSettings

namespace Settings

open FieldSettings

variable {s : Settings} {f : FieldSettings} {fault : Fault}

/-!
## Faults of the rules
-/

theorem validateExtent_of_small (h : f.wallThickness < 1 ∨ f.missileRadius < 1) :
    exists i, validateExtent f = .ok (.error i) := by
  unfold validateExtent
  by_cases hwall : f.wallThickness < 1
  · exact ⟨_, if_pos hwall⟩
  · rw [if_neg hwall, if_pos (h.resolve_left hwall)]
    exact ⟨_, rfl⟩

theorem validateExtent_eq_error_iff :
    validateExtent f = .error fault ↔ f.MarginOverflows fault := by
  by_cases hsmall : f.wallThickness < 1 ∨ f.missileRadius < 1
  · rcases validateExtent_of_small hsmall with ⟨i, hi⟩
    rw [hi]
    constructor
    · intro h
      cases h
    · intro h
      have hwall := h.wall_pos
      have hradius := h.radius_pos
      omega
  · rcases not_or.mp hsmall with ⟨hwall, hradius⟩
    rw [← margin?_eq_error_iff (by omega) (by omega)]
    unfold validateExtent
    rw [if_neg hwall, if_neg hradius]
    constructor
    · intro h
      rcases bind_eq_error.mp h with herror | ⟨edge, hedge, h⟩
      · exact bind_eq_error.mpr (.inl herror)
      · rcases bind_eq_error.mp h with herror | ⟨margin, _, h⟩
        · exact bind_eq_error.mpr (.inr ⟨edge, hedge, herror⟩)
        · split at h
          · cases h
          · split at h <;> cases h
    · intro h
      rcases bind_eq_error.mp h with herror | ⟨edge, hedge, herror⟩
      · exact bind_eq_error.mpr (.inl herror)
      · exact bind_eq_error.mpr (.inr ⟨edge, hedge, bind_eq_error.mpr (.inl herror)⟩)

theorem defaultLaunchRow?_eq_ok (hf : f.HasInterior) (hrange : f.InRange) :
    f.defaultLaunchRow? = .ok (f.goalStartRow - 2 * f.missileRadius - 1) := by
  have hwall := hf.wall_pos
  have hradius := hf.radius_pos
  have hmargin := hf.margin_lt_height
  have htop := hf.wall_lt_goal
  have hlow := hf.goal_lt_height
  have hheight := hrange.height.2
  have hfits : forall n : Int, -f.height <= n -> n <= f.height -> Bounded.Fits n := by
    intro n hleast hgreatest
    unfold Bounded.Fits Bounded.least Bounded.greatest at *
    omega
  exact bind_eq_ok.mpr ⟨_, Bounded.mul?_eq_ok.mpr ⟨hfits _ (by omega) (by omega), rfl⟩,
    bind_eq_ok.mpr ⟨_, Bounded.sub?_eq_ok.mpr ⟨hfits _ (by omega) (by omega), rfl⟩,
      Bounded.sub?_eq_ok.mpr ⟨hfits _ (by omega) (by omega), rfl⟩⟩⟩

/-- A launch row that the settings name may be too low for the sum with the radius. -/
structure LaunchOverflows (s : Settings) (fault : Fault) : Prop where
  too_low : exists row, s.defender.launchRow = some row ∧
    Bounded.greatest < row + s.field.missileRadius
  fault_eq : fault = .addOverflow

theorem launchRow?_of_some {row : Int} (h : s.defender.launchRow = some row) :
    s.launchRow? = .ok row := by
  unfold launchRow?
  rw [h]

theorem launchRow?_cases (hf : s.field.HasInterior) (hrange : s.InRange) :
    exists row, s.launchRow? = .ok row ∧ (s.defender.launchRow = some row ∨
      row + s.field.missileRadius < s.field.goalStartRow) := by
  cases hrow : s.defender.launchRow with
  | some row => exact ⟨row, launchRow?_of_some hrow, .inl rfl⟩
  | none =>
      have hradius := hf.radius_pos
      have hdefault : s.launchRow? =
          .ok (s.field.goalStartRow - 2 * s.field.missileRadius - 1) := by
        unfold launchRow?
        rw [hrow]
        exact defaultLaunchRow?_eq_ok hf hrange.field
      exact ⟨_, hdefault, .inr (by omega)⟩

theorem validateLaunchRow_eq_error_iff (hf : s.field.HasInterior) (hrange : s.InRange) :
    validateLaunchRow s = .error fault ↔ s.LaunchOverflows fault := by
  have hwall := hf.wall_pos
  have hradius := hf.radius_pos
  have hmargin := hf.margin_lt_height
  have hlow := hf.goal_lt_height
  have hheight := hrange.field.height.2
  have hsum : Bounded.add? s.field.wallThickness s.field.missileRadius =
      .ok (s.field.wallThickness + s.field.missileRadius) :=
    Bounded.add?_eq_ok.mpr ⟨(fits_of_pos (by omega)).mpr (by omega), rfl⟩
  rcases launchRow?_cases hf hrange with ⟨row, hrow, hnamed⟩
  unfold validateLaunchRow
  rw [hrow, hsum]
  constructor
  · intro h
    change (if row <= s.field.wallThickness + s.field.missileRadius then _ else _) = _ at h
    split at h
    · cases h
    · rename_i hbelow
      rcases bind_eq_error.mp h with herror | ⟨reach, _, h⟩
      · rcases Bounded.check_eq_error.mp herror with ⟨hfits, hfault⟩
        rw [fits_of_pos (by omega)] at hfits
        rcases hnamed with hsome | habove
        · exact ⟨⟨row, hsome, by omega⟩, hfault.symm⟩
        · omega
      · cases h
  · rintro ⟨⟨row', hsome, hdeep⟩, hfault⟩
    cases hrow.symm.trans (launchRow?_of_some hsome)
    change (if row <= s.field.wallThickness + s.field.missileRadius then _ else _) = _
    rw [if_neg (by omega)]
    refine bind_eq_error.mpr (.inl (Bounded.check_eq_error.mpr ⟨?_, hfault.symm⟩))
    rw [fits_of_pos (by omega)]
    omega

/-!
## Faults of validation
-/

theorem andThen_eq_error {first : Except Invalid Unit} {next : Checked (Except Invalid Unit)} :
    andThen first next = .error fault ↔ first = .ok () ∧ next = .error fault := by
  cases first with
  | ok u => simp [andThen]
  | error i => simp [andThen]

theorem bind_andThen_eq_error {first next : Checked (Except Invalid Unit)} :
    (first >>= (andThen · next)) = .error fault ↔
      first = .error fault ∨ first = .ok (.ok ()) ∧ next = .error fault := by
  rw [bind_eq_error]
  constructor
  · rintro (h | ⟨outcome, hfirst, hrest⟩)
    · exact .inl h
    · rcases andThen_eq_error.mp hrest with ⟨houtcome, hnext⟩
      exact .inr ⟨houtcome ▸ hfirst, hnext⟩
  · rintro (h | ⟨hfirst, hnext⟩)
    · exact .inl h
    · exact .inr ⟨_, hfirst, andThen_eq_error.mpr ⟨rfl, hnext⟩⟩

theorem validate_eq_error_iff :
    s.validate = .error fault ↔
      validateExtent s.field = .error fault ∨
        validateExtent s.field = .ok (.ok ()) ∧ validateAttacker s.attacker = .ok () ∧
          validateDefender s.defender = .ok () ∧ validateLaunchRow s = .error fault := by
  unfold validate
  rw [bind_andThen_eq_error, andThen_eq_error, then_eq_ok, bind_andThen_eq_error, and_assoc]
  simp only [reduceCtorEq, and_false, or_false]

/--
The faults of validation, of all settings whose integers have 32 bits.  The margin of walls
and radius overflows before anything else is looked at, or the rules up to that for the
launch row hold and the sum of the row that the settings name and the radius overflows.
With no such sum validation ends in one of its outcomes.
-/
theorem validation_faults_iff {s : Settings} {fault : Fault} (h : s.InRange) :
    s.validate = .error fault ↔
      s.field.MarginOverflows fault ∨
        validateExtent s.field = .ok (.ok ()) ∧ validateAttacker s.attacker = .ok () ∧
          validateDefender s.defender = .ok () ∧ s.LaunchOverflows fault := by
  rw [validate_eq_error_iff, validateExtent_eq_error_iff]
  refine or_congr_right (and_congr_right fun hextent => ?_)
  rw [validateLaunchRow_eq_error_iff (hasInterior_of_validateExtent hextent) h]

def walled (thickness : Int) : Settings :=
  { field := { wallThickness := thickness } }

theorem inRange_walled {thickness : Int} (h : Bounded.Fits thickness) :
    (walled thickness).InRange :=
  { field := { FieldSettings.inRange_default with wall := h }
    defender := DefenderSettings.inRange_default }

def launchedFrom (row : Int) : Settings :=
  { defender := { launchRow := some row } }

theorem inRange_launchedFrom {row : Int} (h : Bounded.Fits row) : (launchedFrom row).InRange where
  field := FieldSettings.inRange_default
  defender := by
    intro row' hrow
    cases hrow
    exact h

theorem validation_faults_iff_least :
    ((walled 1073741818).InRange ∧ (walled 1073741818).validate = .error .multiplyOverflow) ∧
      (exists outcome, (walled 1073741817).validate = .ok outcome) ∧
        ((launchedFrom 2147483643).InRange ∧
          (launchedFrom 2147483643).validate = .error .addOverflow) ∧
          exists outcome, (launchedFrom 2147483642).validate = .ok outcome := by
  have hwalled : (walled 1073741818).InRange := inRange_walled (by decide)
  have hlaunched : (launchedFrom 2147483643).InRange := inRange_launchedFrom (by decide)
  refine ⟨⟨hwalled, (validation_faults_iff hwalled).mpr (.inl ?_)⟩, ?_,
    ⟨hlaunched, (validation_faults_iff hlaunched).mpr (.inr ?_)⟩, ?_⟩
  · exact
      { wall_pos := by decide
        radius_pos := by decide
        too_wide := by decide
        fault_eq := rfl }
  · exact ⟨.error ⟨"grid", "640x480 leaves no interior for radius 5"⟩, by decide +kernel⟩
  · exact ⟨by decide +kernel, by decide +kernel, by decide +kernel,
      { too_low := ⟨_, rfl, by decide⟩
        fault_eq := rfl }⟩
  · exact ⟨.error ⟨"defender.launch_y",
      "2147483642 must sit between the top wall and the goal band"⟩, by decide +kernel⟩

/-- Settings of 32 bits, and documents, that validation computes no outcome for. -/
theorem validation_overflows :
    ((walled 2147483647).InRange ∧ (walled 2147483647).validate = .error .addOverflow) ∧
      ((launchedFrom 2147483647).InRange ∧
        (launchedFrom 2147483647).validate = .error .addOverflow) ∧
        ofText "\x7b\"grid\": \x7b\"wall_thickness\": 2147483647\x7d\x7d" = .error .addOverflow ∧
          ofText "\x7b\"defender\": \x7b\"launch_y\": 2147483647\x7d\x7d" =
            .error .addOverflow := by
  exact ⟨⟨inRange_walled (by decide), by decide +kernel⟩,
    ⟨inRange_launchedFrom (by decide), by decide +kernel⟩, by decide +kernel, by decide +kernel⟩

end Settings
end AirDefense

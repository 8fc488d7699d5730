import AirDefense.Proofs.Settings.Extent

/-!
# The rules of valid settings

Settings are valid if they pass every rule, each by itself.  Here is what some of the rules
find out: both sides have a slot, attackers fly downward, and the launch row keeps its
distance from the top wall and from the goal band.
-/

namespace AirDefense
namespace Settings

variable {s : Settings}

/-!
## One rule after the other
-/

theorem require_eq_ok {holds : Bool} {field reason : String} :
    require holds field reason = .ok () ↔ holds = true := by
  cases holds <;> simp [require]

theorem then_eq_ok {first next : Except Invalid Unit} :
    (do first; next) = .ok () ↔ first = .ok () ∧ next = .ok () := by
  rw [bind_eq_ok]
  constructor
  · rintro ⟨_, hfirst, hnext⟩
    exact ⟨hfirst, hnext⟩
  · rintro ⟨hfirst, hnext⟩
    exact ⟨(), hfirst, hnext⟩

theorem andThen_eq_ok {first : Except Invalid Unit} {next : Checked (Except Invalid Unit)} :
    andThen first next = .ok (.ok ()) ↔ first = .ok () ∧ next = .ok (.ok ()) := by
  cases first with
  | ok u => simp [andThen]
  | error i => simp [andThen]

theorem bind_andThen_eq_ok {first next : Checked (Except Invalid Unit)} :
    (first >>= (andThen · next)) = .ok (.ok ()) ↔
      first = .ok (.ok ()) ∧ next = .ok (.ok ()) := by
  rw [bind_eq_ok]
  constructor
  · rintro ⟨outcome, hfirst, hrest⟩
    rcases andThen_eq_ok.mp hrest with ⟨houtcome, hnext⟩
    exact ⟨houtcome ▸ hfirst, hnext⟩
  · rintro ⟨hfirst, hnext⟩
    exact ⟨_, hfirst, andThen_eq_ok.mpr ⟨rfl, hnext⟩⟩

/-- Valid settings pass each of the rules. -/
theorem validate_eq_ok_iff :
    s.validate = .ok (.ok ()) ↔
      validateExtent s.field = .ok (.ok ()) ∧ validateAttacker s.attacker = .ok () ∧
        validateDefender s.defender = .ok () ∧ validateLaunchRow s = .ok (.ok ()) ∧
        validateTiming s = .ok () ∧ validatePredictor s.predictor = .ok () := by
  unfold validate
  rw [bind_andThen_eq_ok, andThen_eq_ok, then_eq_ok, bind_andThen_eq_ok, and_assoc,
    Except.ok.injEq, then_eq_ok]

/-!
## What the rules find out
-/

theorem capacity_pos_of_validate (h : s.validate = .ok (.ok ())) :
    s.attacker.capacity ≠ 0 ∧ s.defender.capacity ≠ 0 := by
  rcases validate_eq_ok_iff.mp h with ⟨_, hattacker, hdefender, _⟩
  have hattackers := require_eq_ok.mp (then_eq_ok.mp hattacker).1
  have hdefenders := require_eq_ok.mp (then_eq_ok.mp hdefender).1
  exact ⟨of_decide_eq_true hattackers, of_decide_eq_true hdefenders⟩

theorem attacker_of_validate (h : s.validate = .ok (.ok ())) :
    ¬ s.attacker.maxSpeed < Single.ofInt 1 ∧ Single.ofInt 0 <= s.attacker.maxAngle ∧
      s.attacker.maxAngle < Single.ofInt 90 := by
  rcases validate_eq_ok_iff.mp h with ⟨_, hattacker, _⟩
  rcases then_eq_ok.mp (then_eq_ok.mp hattacker).2 with ⟨hspeed, hangle⟩
  have hslow := require_eq_ok.mp hspeed
  have hsteep := require_eq_ok.mp hangle
  rw [Bool.not_eq_true', decide_eq_false_iff_not] at hslow
  rw [Bool.and_eq_true, decide_eq_true_eq, decide_eq_true_eq] at hsteep
  exact ⟨hslow, hsteep⟩

theorem launchRow?_of_validate (h : s.validate = .ok (.ok ())) :
    exists row, s.launchRow? = .ok row ∧
      s.field.wallThickness + s.field.missileRadius < row ∧
        row + s.field.missileRadius < s.field.goalStartRow := by
  rcases validate_eq_ok_iff.mp h with ⟨_, _, _, hlaunch, _⟩
  rcases bind_eq_ok.mp hlaunch with ⟨row, hrow, hlaunch⟩
  rcases bind_eq_ok.mp hlaunch with ⟨edge, hedge, hlaunch⟩
  rw [← (Bounded.add?_eq_ok.mp hedge).2] at hlaunch
  split at hlaunch
  · cases hlaunch
  · rename_i hbelow
    rcases bind_eq_ok.mp hlaunch with ⟨reach, hreach, hlaunch⟩
    rw [← (Bounded.add?_eq_ok.mp hreach).2] at hlaunch
    split at hlaunch
    · cases hlaunch
    · rename_i habove
      exact ⟨row, hrow, Int.lt_of_not_ge hbelow, Int.lt_of_not_ge habove⟩

end Settings
end AirDefense

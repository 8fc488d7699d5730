import AirDefense.Engagement.Launcher
import AirDefense.Proofs.Number.Singles
import AirDefense.Proofs.Settings.Ranges
import AirDefense.Proofs.Settings.Start
import AirDefense.Proofs.Spawn.Draw

/-!
# Attackers of valid settings

Three numbers are drawn for an attacker, from ranges that the settings give.  Under valid
settings none of them is empty.  They are finite but for that of the speeds, as no rule keeps
the greatest speed from being infinite: from such settings no attacker comes about, and the
launcher ends with the slot it has drawn.  All this is said of draws that come to an end.
-/

namespace AirDefense
namespace Draw

/-!
## Speeds and headings
-/

def speed (a : AttackerSettings) : Draw Float32 :=
  if Single.ofInt 1 < a.maxSpeed then single (Single.ofInt 1) a.maxSpeed
  else pure (Single.ofInt 1)

def heading (a : AttackerSettings) : Draw Float32 :=
  single a.maxAngle (Single.ofInt 180 - a.maxAngle)

variable {a : AttackerSettings} {f : FieldSettings} {s : KeyStream}

theorem exists_speed (hfinite : a.maxSpeed.isInf = false) (hends : (speed a).Ends s) :
    exists x, (speed a s).1 = .ok x := by
  unfold speed at hends ⊢
  by_cases hlt : Single.ofInt 1 < a.maxSpeed
  · rw [if_pos hlt] at hends ⊢
    have hone : (Single.ofInt 1).isFinite = true := by decide +kernel
    have hhi := (Single.isFinite_iff_of_lt hlt).mpr hfinite
    have hvalue := (Single.lt_iff hone hhi).mp hlt
    have hnonneg : 0 <= Single.value (Single.ofInt 1) := by
      rw [Single.value_ofInt_one]
      exact zero_le_one
    exact exists_single hlt hone hhi (Single.sub_spec hhi hone hnonneg hvalue).1 hends
  · rw [if_neg hlt]
    exact ⟨_, rfl⟩

theorem speed_to_infinity (hleast : ¬ a.maxSpeed < Single.ofInt 1)
    (hinfinite : a.maxSpeed.isInf = true) (s : KeyStream) :
    (speed a s).1 = .error .drawToNonFinite := by
  have hone : (Single.ofInt 1).isFinite = true := by decide +kernel
  have hlt := Single.lt_of_isInf hone hleast hinfinite
  have hhi : a.maxSpeed.isFinite = false := by
    rw [← Bool.not_eq_true, Single.isFinite_iff_of_lt hlt, hinfinite]
    decide
  unfold speed
  rw [if_pos hlt]
  exact single_to_infinity hlt hone hhi s

theorem exists_heading (hleast : Single.ofInt 0 <= a.maxAngle)
    (hgreatest : a.maxAngle < Single.ofInt 90) (hends : (heading a).Ends s) :
    exists x, (heading a s).1 = .ok x := by
  have hzero : (Single.ofInt 0).isFinite = true := by decide +kernel
  have hninety : (Single.ofInt 90).isFinite = true := by decide +kernel
  have hhalfTurn : (Single.ofInt 180).isFinite = true := by decide +kernel
  have hlo := Single.isFinite_of_between hzero hninety hleast hgreatest
  have hnonneg := (Single.le_iff hzero hlo).mp hleast
  have hlt := (Single.lt_iff hlo hninety).mp hgreatest
  rw [Single.value_ofInt_zero] at hnonneg
  rw [Single.value_ofInt_ninety] at hlt
  rcases Single.sub_spec hhalfTurn hlo hnonneg
    (by rw [Single.value_ofInt_halfTurn]; linarith) with ⟨hhi, hnearest⟩
  have hright := hnearest (Single.ofInt 90) hninety (by
    rw [Single.value_ofInt_halfTurn, Single.value_ofInt_ninety]
    linarith)
  rw [Single.value_ofInt_ninety] at hright
  have hbetween := hlt.trans_le hright
  exact exists_single ((Single.lt_iff hlo hhi).mpr hbetween) hlo hhi
    (Single.sub_spec hhi hlo hnonneg hbetween).1 hends

/-!
## Attackers
-/

/-- Wherever there is an interior, a column, a speed and a heading make an attacker. -/
theorem attacker_eq {least greatest : Int} (hleast : f.leastInterior? = .ok least)
    (hgreatest : f.greatestInterior? = .ok greatest) (a : AttackerSettings) :
    attacker f a = (do
      let x <- integer least greatest
      let speed <- speed a
      let heading <- heading a
      pure (.launchedAt .attacker ⟨Single.ofInt x, Single.ofInt least⟩ speed heading)) := by
  unfold attacker
  rw [hleast, hgreatest]
  refine congrArg (andThen (integer least greatest)) (funext fun x => ?_)
  unfold speed
  split <;> rfl

end Draw

namespace Settings

variable {s : Settings} {stream : KeyStream}

theorem exists_column (hrange : s.InRange) (h : s.validate = .ok (.ok ()))
    (hends : (Draw.attacker s.field s.attacker).Ends stream) :
    exists least x rest,
      let others : Draw Missile := do
        let speed <- Draw.speed s.attacker
        let heading <- Draw.heading s.attacker
        pure (.launchedAt .attacker ⟨Single.ofInt x, Single.ofInt least⟩ speed heading)
      others.Ends rest ∧ (Draw.attacker s.field s.attacker stream).1 = (others rest).1 := by
  have hf := hasInterior_of_validate h
  have hwall := hf.wall_pos
  have hradius := hf.radius_pos
  have hinner := hf.margin_lt_width
  have hwidth := hrange.field.width.2
  rcases hf.interior_of_width hwidth with ⟨hleast, hgreatest⟩
  have hnarrow : s.field.width - s.field.wallThickness - s.field.missileRadius - 2 -
      (s.field.wallThickness + s.field.missileRadius + 1) + 1 < wordCount := by
    unfold Bounded.greatest at hwidth
    unfold wordCount
    omega
  rw [Draw.attacker_eq hleast hgreatest] at hends ⊢
  rcases Draw.exists_integer (by omega) hnarrow hends.first with ⟨x, hx, _⟩
  exact ⟨_, x, _, hends.rest hx, Draw.fst_bind hx⟩

theorem exists_attacker (hrange : s.InRange) (h : s.validate = .ok (.ok ()))
    (hfinite : s.attacker.maxSpeed.isInf = false)
    (hends : (Draw.attacker s.field s.attacker).Ends stream) :
    exists m, (Draw.attacker s.field s.attacker stream).1 = .ok m := by
  rcases attacker_of_validate h with ⟨_, hleast, hgreatest⟩
  rcases exists_column hrange h hends with ⟨least, x, rest, hothers, heq⟩
  rcases Draw.exists_speed hfinite hothers.first with ⟨speed, hspeed⟩
  rcases Draw.exists_heading hleast hgreatest (hothers.rest hspeed).first with
    ⟨heading, hheading⟩
  rw [heq, Draw.fst_bind hspeed, Draw.fst_bind hheading]
  exact ⟨_, rfl⟩

theorem attacker_to_infinity (hrange : s.InRange) (h : s.validate = .ok (.ok ()))
    (hinfinite : s.attacker.maxSpeed.isInf = true)
    (hends : (Draw.attacker s.field s.attacker).Ends stream) :
    (Draw.attacker s.field s.attacker stream).1 = .error .drawToNonFinite := by
  rcases exists_column hrange h hends with ⟨least, x, rest, _, heq⟩
  rw [heq]
  exact Draw.fst_bind_error (Draw.speed_to_infinity (attacker_of_validate h).1 hinfinite rest)

end Settings

/-!
## The launcher
-/

theorem World.draws_of_ofSettings? {s : Settings} {w : World}
    (h : World.ofSettings? s = .ok w) : w.settings = s ∧ w.stream = .ofSeed s.seed := by
  rcases bind_eq_ok.mp h with ⟨g, _, h⟩
  rcases bind_eq_ok.mp h with ⟨fleet, _, h⟩
  rcases bind_eq_ok.mp h with ⟨admission, _, h⟩
  rcases bind_eq_ok.mp h with ⟨pool, _, h⟩
  cases pure_eq_ok.mp h
  exact ⟨rfl, rfl⟩

namespace AttackLauncher

variable {w : World} {c : Conditions}

theorem step_armed_ok {m : Missile}
    (h : (Draw.attacker w.settings.field w.settings.attacker w.stream).1 = .ok m) (slot : Nat) :
    ((armed slot).step c w).1 = loaded slot m := by
  simp only [step, World.drawAttacker, h]

/-- The slot that was drawn is not given back. -/
theorem step_armed_error {fault : Fault}
    (h : (Draw.attacker w.settings.field w.settings.attacker w.stream).1 = .error fault)
    (slot : Nat) :
    ((armed slot).step c w).1 = broken fault ∧
      ((armed slot).step c w).2.admission = w.admission := by
  simp only [step, World.drawAttacker, h, and_self]

end AttackLauncher

namespace Settings

/--
If the greatest speed is finite, every draw of an attacker of settings from a document ends
in one, whatever has been drawn before, and a launcher that has a slot is loaded with it.  But
the greatest speed that a document names may be infinite.  Then every draw faults, and the
launcher comes to its end and leaves the slot it has drawn in use.  A draw may also go on for
ever, if the stream refuses it.
-/
theorem accepted_attackers_are_drawn {text : String} {s : Settings}
    (h : ofText text = .ok (.ok s)) :
    let draw := Draw.attacker s.field s.attacker
    (s.attacker.maxSpeed.isInf = false ->
      (forall stream, draw.Ends stream -> exists m, (draw stream).1 = .ok m) ∧
        forall w : World, w.settings = s -> draw.Ends w.stream -> forall c slot,
          exists m, ((AttackLauncher.armed slot).step c w).1 = .loaded slot m) ∧
      (s.attacker.maxSpeed.isInf = true ->
        (forall stream, draw.Ends stream -> (draw stream).1 = .error .drawToNonFinite) ∧
          forall w : World, w.settings = s -> draw.Ends w.stream -> forall c slot,
            ((AttackLauncher.armed slot).step c w).1 = .broken .drawToNonFinite ∧
              ((AttackLauncher.armed slot).step c w).2.admission = w.admission) := by
  rcases ofText_spec h with ⟨hrange, hvalid⟩
  intro draw
  constructor
  · intro hfinite
    refine ⟨fun stream => exists_attacker hrange hvalid hfinite, ?_⟩
    rintro w rfl hends c slot
    rcases exists_attacker hrange hvalid hfinite hends with ⟨m, hm⟩
    exact ⟨m, AttackLauncher.step_armed_ok hm slot⟩
  · intro hinfinite
    refine ⟨fun stream => attacker_to_infinity hrange hvalid hinfinite, ?_⟩
    rintro w rfl hends c slot
    exact AttackLauncher.step_armed_error (attacker_to_infinity hrange hvalid hinfinite hends) slot

def steep : Settings :=
  { attacker := { maxAngle := Float32.ofBits 0x42b3ffff } }

theorem accepted_attackers_are_drawn_steep :
    ofText "\x7b\"attacker\": \x7b\"max_angle\": 89.99999\x7d\x7d" = .ok (.ok steep) ∧
      exists m, (Draw.attacker steep.field steep.attacker (.ofSeed 42)).1 = .ok m := by
  have hread : ofText "\x7b\"attacker\": \x7b\"max_angle\": 89.99999\x7d\x7d" =
      .ok (.ok steep) := by decide +kernel
  exact ⟨hread, ((accepted_attackers_are_drawn hread).1 (by decide +kernel)).1 _
    (by decide +kernel)⟩

def endless : Settings :=
  { attacker := { maxSpeed := Float32.ofBits 0x7f800000 } }

/--
A speed that a document names is rounded, to infinity if need be, and accepted.  There is a
world with such settings, but no attacker is ever drawn, and the first draw faults.
-/
theorem accepted_attacker_is_not_drawn :
    ofText "\x7b\"attacker\": \x7b\"max_speed\": 1e39\x7d\x7d" = .ok (.ok endless) ∧
      (forall stream m, (Draw.attacker endless.field endless.attacker stream).1 ≠ .ok m) ∧
        exists w, World.ofSettings? endless = .ok w ∧ forall c slot,
          ((AttackLauncher.armed slot).step c w).1 = .broken .drawToNonFinite ∧
            ((AttackLauncher.armed slot).step c w).2.admission = w.admission := by
  have hread : ofText "\x7b\"attacker\": \x7b\"max_speed\": 1e39\x7d\x7d" =
      .ok (.ok endless) := by decide +kernel
  rcases ofText_spec hread with ⟨hrange, hvalid⟩
  have hinfinite : endless.attacker.maxSpeed.isInf = true := by decide +kernel
  rcases (hasInterior_of_validate hvalid).exists_grid (by decide) with ⟨g, hg⟩
  rcases World.exists_of_grid hvalid hg (by decide) (by decide) with ⟨w, hw⟩
  refine ⟨hread, fun stream m hm => ?_, w, hw, fun c slot => ?_⟩
  · have hends : (Draw.attacker endless.field endless.attacker).Ends stream := by
      rw [Draw.Ends, hm]
      exact fun hnone => by cases hnone
    cases hm.symm.trans (attacker_to_infinity hrange hvalid hinfinite hends)
  · rcases World.draws_of_ofSettings? hw with ⟨hsettings, hstream⟩
    have hdraw : (Draw.attacker w.settings.field w.settings.attacker w.stream).1 =
        .error .drawToNonFinite := by
      rw [hsettings, hstream]
      exact attacker_to_infinity hrange hvalid hinfinite (by decide +kernel)
    exact AttackLauncher.step_armed_error hdraw slot

end Settings
end AirDefense

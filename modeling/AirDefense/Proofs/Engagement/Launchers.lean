import AirDefense.Engagement.Launcher
import AirDefense.Proofs.Engagement.Charges
import AirDefense.Proofs.Spawn.Draw

/-!
# Steps of the launchers

A launcher that has a slot, or a missile that does not fly yet, either hands it over
to a flight or undoes what it did.  It breaks no contract on the way.
-/

namespace AirDefense

/-!
## The attackers' launcher
-/

namespace AttackLauncher

def charge : AttackLauncher -> Charge
  | drawn slot => .slot ⟨.attacker, slot⟩
  | armed slot => .slot ⟨.attacker, slot⟩
  | loaded slot _ => .slot ⟨.attacker, slot⟩
  | launching id => .missile ⟨.attacker, id.slot⟩ id .nowhere
  | retreating id => .missile ⟨.attacker, id.slot⟩ id .nowhere
  | returning slot => .slot ⟨.attacker, slot⟩
  | idle => .nothing
  | drawing => .nothing
  | parked => .nothing
  | cooling => .nothing
  | ended => .nothing
  | broken _ => .nothing

def Sound : AttackLauncher -> Prop
  | loaded _ m => m.side = .attacker
  | broken fault => fault.breaksContract = false
  | _ => True

variable {l : AttackLauncher} {c : Conditions} {w : World}

theorem charge_take (answer : SlotAnswer) :
    (take answer).charge = .ofSeat? (answer.slot?.map (Seat.mk .attacker)) := by
  cases answer <;> rfl

theorem sound_take (answer : SlotAnswer) : (take answer).Sound := by
  cases answer <;> trivial

theorem step_advances (hw : w.Sound) (hc : l.charge.Sound w) (hl : l.Sound)
    (hstarts : l.starts? c = none) :
    Charge.Advances w l.charge (l.step c w).1.charge (l.step c w).2 ∧ (l.step c w).1.Sound := by
  cases l with
  | idle =>
      simp only [step]
      split
      · exact ⟨hc.stays hw, trivial⟩
      · exact ⟨hc.stays hw, trivial⟩
  | drawing =>
      simp only [step, charge_take]
      exact ⟨Charge.advances_grants (hw.grants_admission hw.admission.enter), sound_take _⟩
  | parked =>
      simp only [step, charge_take]
      exact ⟨Charge.advances_grants (hw.grants_admission hw.admission.wake), sound_take _⟩
  | drawn slot =>
      simp only [step]
      split
      · exact ⟨hc.stays hw, trivial⟩
      · exact ⟨hc.stays hw, trivial⟩
  | armed slot =>
      rcases Draw.ensures_attacker w.settings.field w.settings.attacker w.stream with
        ⟨hharmless, hside⟩
      simp only [step, World.drawAttacker]
      have hk : forall s, w.Keeps none { w with stream := s } :=
        fun s => World.Keeps.relock hw.keeps_self rfl
      cases hdraw : (Draw.attacker w.settings.field w.settings.attacker w.stream).1 with
      | ok m => exact ⟨hc.advances (hk _), hside m hdraw⟩
      | error fault => exact ⟨Charge.advances_nothing (hk _), hharmless fault hdraw⟩
  | loaded slot m =>
      rcases Charge.advances_spawn hw hc hl with ⟨id, w', hspawn, hid, hadvances⟩
      have hslot : id.slot = slot := congrArg Seat.slot hid
      simp only at hspawn
      simp only [step, hspawn, charge, hslot]
      exact ⟨hadvances, trivial⟩
  | launching id =>
      cases haccepting : c.accepting with
      | true =>
          rw [starts?, haccepting] at hstarts
          cases hstarts
      | false =>
          simp only [step, haccepting]
          exact ⟨hc.stays hw, trivial⟩
  | cooling => exact ⟨hc.stays hw, trivial⟩
  | retreating id =>
      rcases Charge.advances_vacate hw hc with ⟨m, w', hvacate, hadvances⟩
      simp only [step, hvacate]
      exact ⟨hadvances, trivial⟩
  | returning slot =>
      rcases Charge.advances_return hw hc with ⟨w', hreturn, hadvances, _⟩
      simp only [step, hreturn]
      exact ⟨hadvances, trivial⟩
  | ended => exact ⟨hc.stays hw, trivial⟩
  | broken fault => exact ⟨hc.stays hw, hl⟩

theorem step_starts (hc : l.charge.Sound w) {id : MissileId} (hstarts : l.starts? c = some id) :
    (l.step c w).1.charge = .nothing ∧ (l.step c w).1.Sound ∧ (l.step c w).2 = w ∧
      l.charge = .missile id.seat id .nowhere := by
  cases l with
  | launching other =>
      cases haccepting : c.accepting with
      | false =>
          rw [starts?, haccepting] at hstarts
          cases hstarts
      | true =>
          rw [starts?, haccepting] at hstarts
          injection hstarts with hstarts
          subst hstarts
          have hseat : other.seat = ⟨.attacker, other.slot⟩ := hc.1
          have hstep : (launching other).step c w = (cooling, w) := by
            simp only [step, haccepting, if_true]
          rw [hstep]
          exact ⟨rfl, trivial, rfl, by rw [charge, hseat]⟩
  | idle => cases hstarts
  | drawing => cases hstarts
  | parked => cases hstarts
  | drawn slot => cases hstarts
  | armed slot => cases hstarts
  | loaded slot m => cases hstarts
  | cooling => cases hstarts
  | retreating id => cases hstarts
  | returning slot => cases hstarts
  | ended => cases hstarts
  | broken fault => cases hstarts

end AttackLauncher

/-!
## The defence's launcher
-/

namespace Attempt

def charge : Attempt -> Charge
  | equipped slot => .slot ⟨.defender, slot⟩
  | reserved id => .missile ⟨.defender, id.slot⟩ id .nowhere
  | watching watch => .missile ⟨.defender, watch.interceptor.slot⟩ watch.interceptor .nowhere
  | pausing watch => .missile ⟨.defender, watch.interceptor.slot⟩ watch.interceptor .nowhere
  | watched watch => .missile ⟨.defender, watch.interceptor.slot⟩ watch.interceptor .nowhere
  | aiming watch => .missile ⟨.defender, watch.interceptor.slot⟩ watch.interceptor .nowhere
  | launching id => .missile ⟨.defender, id.slot⟩ id .nowhere
  | retreating id => .missile ⟨.defender, id.slot⟩ id .nowhere
  | returning slot => .slot ⟨.defender, slot⟩
  | seeking => .nothing
  | queued => .nothing
  | ended _ => .nothing
  | broken _ => .nothing

def Sound : Attempt -> Prop
  | broken fault => fault.breaksContract = false
  | _ => True

variable {a : Attempt} {c : Conditions} {w : World}

theorem charge_take (answer : SlotAnswer) :
    (take answer).charge = .ofSeat? (answer.slot?.map (Seat.mk .defender)) := by
  cases answer <;> rfl

theorem sound_take (answer : SlotAnswer) : (take answer).Sound := by
  cases answer <;> trivial

theorem isHarmless_launchBounds? (s : Settings) : IsHarmless s.launchBounds? := by
  refine IsHarmless.bind ?_ fun row => s.field.isHarmless_leastInterior?.bind fun least =>
    s.field.isHarmless_greatestInterior?.bind fun greatest => isHarmless_ok _
  unfold Settings.launchRow?
  split
  · exact isHarmless_ok _
  · exact (isHarmless_mul? _ _).bind fun _ => (isHarmless_sub? _ _).bind fun _ =>
      isHarmless_sub? _ _

theorem isHarmless_clampLaunch? (s : Settings) (b : Settings.LaunchBounds) (x : Float32) :
    IsHarmless (s.clampLaunch? b x) := by
  unfold Settings.clampLaunch?
  simp only
  split
  · exact isHarmless_ok _
  · intro fault h
    injection h with h
    rw [← h]
    rfl

theorem isHarmless_launchPoint? (s : Settings) (watch : Watch) :
    IsHarmless (launchPoint? s watch) :=
  (isHarmless_launchBounds? s).bind fun _ => (isHarmless_clampLaunch? s _ _).bind fun _ =>
    isHarmless_ok _

theorem observe_cases (c : Conditions) (watch : Watch) (w : World) :
    (PredictorSettings.sampleRoom < w.settings.predictor.maxSamples ∧
        observe c watch w = broken .capacityOverflow) ∨
      (w.settings.predictor.maxSamples <= PredictorSettings.sampleRoom ∧
        observe c watch w = readTarget c watch w) := by
  unfold observe
  split
  · rename_i hlarge
    exact .inl ⟨hlarge, rfl⟩
  · rename_i hroom
    exact .inr ⟨Nat.le_of_not_lt hroom, rfl⟩

theorem charge_readTarget (watch : Watch) :
    (readTarget c watch w).charge = (watching watch).charge ∧ (readTarget c watch w).Sound := by
  unfold readTarget
  split
  · exact ⟨rfl, trivial⟩
  · split
    · exact ⟨rfl, trivial⟩
    · split
      · exact ⟨rfl, trivial⟩
      · split <;> exact ⟨rfl, trivial⟩

theorem claimTarget_advances (hw : w.Sound) {id : MissileId}
    (hc : (reserved id).charge.Sound w) :
    Charge.Advances w (reserved id).charge (claimTarget id w).1.charge (claimTarget id w).2 ∧
      (claimTarget id w).1.Sound := by
  have hside : id.side = .defender := congrArg Seat.side hc.1
  simp only [claimTarget]
  split
  · exact ⟨hc.stays hw, trivial⟩
  · rename_i claim grid fleet hclaim
    exact ⟨hc.advances (hw.claim hside hclaim), trivial⟩

theorem aim_advances (hw : w.Sound) {watch : Watch} (hc : (aiming watch).charge.Sound w) :
    Charge.Advances w (aiming watch).charge (aim watch w).1.charge (aim watch w).2 ∧
      (aim watch w).1.Sound := by
  rcases hc with ⟨hseat, htaken, m, hid, hoff⟩
  have hside : watch.interceptor.side = .defender := congrArg Seat.side hseat
  unfold aim
  cases hpoint : launchPoint? w.settings watch with
  | error fault =>
      exact ⟨Charge.advances_nothing hw.keeps_self, isHarmless_launchPoint? _ _ fault hpoint⟩
  | ok point =>
      simp only
      have hk := hw.change (some watch.interceptor.seat) watch.interceptor
        (fun m => m.launchFrom point w.settings.defender.speed w.settings.defender.angle)
        (.inl rfl)
      have hmoved := Fleet.find?_setArena_update w.fleet watch.interceptor watch.interceptor
        fun m => m.launchFrom point w.settings.defender.speed w.settings.defender.angle
      rw [hside, hseat] at hk
      rw [hside, if_pos rfl, hid] at hmoved
      exact ⟨⟨hk, ⟨hseat, htaken, _, hmoved, hoff⟩, fun _ h => .inl h⟩, trivial⟩

theorem step_advances (hquiet : w.lock.IsQuiet) (hw : w.Sound) (hc : a.charge.Sound w)
    (ha : a.Sound) (hstarts : a.starts? c = none) :
    Charge.Advances w a.charge (a.step c w).1.charge (a.step c w).2 ∧ (a.step c w).1.Sound := by
  cases a with
  | seeking =>
      simp only [step, charge_take]
      exact ⟨Charge.advances_grants (hw.grants_pool hw.pool.enter), sound_take _⟩
  | queued =>
      simp only [step, charge_take]
      exact ⟨Charge.advances_grants (hw.grants_pool hw.pool.wake), sound_take _⟩
  | equipped slot =>
      rcases Charge.advances_spawn (m := Missile.launchedAt .defender .origin (Single.ofInt 0)
        w.settings.defender.angle) hw hc rfl with ⟨id, w', hspawn, hid, hadvances⟩
      have hslot : id.slot = slot := congrArg Seat.slot hid
      simp only at hspawn
      simp only [step, reserve, hspawn, charge, hslot]
      exact ⟨hadvances, trivial⟩
  | reserved id =>
      exact Charge.advances_inGrid? hquiet hw hc rfl trivial fun held hw' hc' =>
        claimTarget_advances hw' hc'
  | watching watch =>
      simp only [step]
      rcases observe_cases c watch w with ⟨_, heq⟩ | ⟨_, heq⟩
      · rw [heq]
        exact ⟨Charge.advances_nothing hw.keeps_self, rfl⟩
      · rcases charge_readTarget (c := c) (w := w) watch with ⟨hsame, hsound⟩
        rw [heq, hsame]
        exact ⟨hc.stays hw, hsound⟩
  | pausing watch =>
      simp only [step]
      split
      · exact ⟨hc.stays hw, trivial⟩
      · exact ⟨hc.stays hw, trivial⟩
  | watched watch =>
      simp only [step]
      split
      · exact ⟨hc.stays hw, trivial⟩
      · exact ⟨hc.stays hw, trivial⟩
  | aiming watch => exact aim_advances hw hc
  | launching id =>
      cases haccepting : c.accepting with
      | true =>
          rw [starts?, haccepting] at hstarts
          cases hstarts
      | false =>
          simp only [step, haccepting]
          exact ⟨hc.stays hw, trivial⟩
  | retreating id =>
      rcases Charge.advances_vacate hw hc with ⟨m, w', hvacate, hadvances⟩
      simp only [step, hvacate]
      exact ⟨hadvances, trivial⟩
  | returning slot =>
      rcases Charge.advances_return hw hc with ⟨w', hreturn, hadvances, _⟩
      simp only [step, hreturn]
      exact ⟨hadvances, trivial⟩
  | ended launched => exact ⟨hc.stays hw, trivial⟩
  | broken fault => exact ⟨hc.stays hw, ha⟩

theorem step_starts (hc : a.charge.Sound w) {id : MissileId} (hstarts : a.starts? c = some id) :
    (a.step c w).1 = ended (some id) ∧ (a.step c w).2 = w ∧
      a.charge = .missile id.seat id .nowhere := by
  cases a with
  | launching other =>
      cases haccepting : c.accepting with
      | false =>
          rw [starts?, haccepting] at hstarts
          cases hstarts
      | true =>
          rw [starts?, haccepting] at hstarts
          injection hstarts with hstarts
          subst hstarts
          have hseat : other.seat = ⟨.defender, other.slot⟩ := hc.1
          have hstep : (launching other).step c w = (ended (some other), w) := by
            simp only [step, haccepting, if_true]
          rw [hstep]
          exact ⟨rfl, rfl, by rw [charge, hseat]⟩
  | seeking => cases hstarts
  | queued => cases hstarts
  | equipped slot => cases hstarts
  | reserved id => cases hstarts
  | watching watch => cases hstarts
  | pausing watch => cases hstarts
  | watched watch => cases hstarts
  | aiming watch => cases hstarts
  | retreating id => cases hstarts
  | returning slot => cases hstarts
  | ended launched => cases hstarts
  | broken fault => cases hstarts

end Attempt

namespace DefenceLauncher

def charge : DefenceLauncher -> Charge
  | attempting a => a.charge
  | idle => .nothing
  | pausing => .nothing
  | ended => .nothing
  | broken _ => .nothing

def Sound : DefenceLauncher -> Prop
  | attempting a => a.Sound
  | broken fault => fault.breaksContract = false
  | _ => True

variable {l : DefenceLauncher} {c : Conditions} {w : World}

theorem charge_afterAttempt (a : Attempt) : (afterAttempt a).charge = a.charge := by
  cases a <;> rfl

theorem sound_afterAttempt {a : Attempt} (h : a.Sound) : (afterAttempt a).Sound := by
  cases a with
  | ended launched => trivial
  | broken fault => exact h
  | seeking => exact h
  | queued => exact h
  | equipped slot => exact h
  | reserved id => exact h
  | watching watch => exact h
  | pausing watch => exact h
  | watched watch => exact h
  | aiming watch => exact h
  | launching id => exact h
  | retreating id => exact h
  | returning slot => exact h

theorem step_advances (hquiet : w.lock.IsQuiet) (hw : w.Sound) (hc : l.charge.Sound w)
    (hl : l.Sound) (hstarts : l.starts? c = none) :
    Charge.Advances w l.charge (l.step c w).1.charge (l.step c w).2 ∧ (l.step c w).1.Sound := by
  cases l with
  | idle =>
      simp only [step]
      split
      · exact ⟨hc.stays hw, trivial⟩
      · exact ⟨hc.stays hw, trivial⟩
  | attempting a =>
      rcases Attempt.step_advances hquiet hw hc hl hstarts with ⟨hadvances, hsound⟩
      simp only [step, charge_afterAttempt]
      exact ⟨hadvances, sound_afterAttempt hsound⟩
  | pausing => exact ⟨hc.stays hw, trivial⟩
  | ended => exact ⟨hc.stays hw, trivial⟩
  | broken fault => exact ⟨hc.stays hw, hl⟩

theorem step_starts (hc : l.charge.Sound w) {id : MissileId} (hstarts : l.starts? c = some id) :
    (l.step c w).1.charge = .nothing ∧ (l.step c w).1.Sound ∧ (l.step c w).2 = w ∧
      l.charge = .missile id.seat id .nowhere := by
  cases l with
  | attempting a =>
      rcases Attempt.step_starts hc hstarts with ⟨hended, hsame, hcharge⟩
      have hstep : (attempting a).step c w = (pausing, w) := by
        simp only [step, hended, hsame, afterAttempt]
      rw [hstep]
      exact ⟨rfl, trivial, rfl, hcharge⟩
  | idle => cases hstarts
  | pausing => cases hstarts
  | ended => cases hstarts
  | broken fault => cases hstarts

end DefenceLauncher
end AirDefense

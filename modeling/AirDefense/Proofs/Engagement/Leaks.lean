import AirDefense.Proofs.Engagement.Aims
import AirDefense.Proofs.Engagement.Attempts
import AirDefense.Proofs.Slots.Requests
import AirDefense.Proofs.Spawn.Launch

/-!
# Launchers leak nothing

A slot that a launcher has taken goes to the one flight that the launcher starts from it, or
back to where it came from.  There are few slots, and one that is lost is lost for good.
-/

namespace AirDefense

def Task.isArmed : Task -> Bool
  | attack (.armed _) => true
  | _ => false

namespace Engagement

/-- Whenever the task draws an attacker in these maneuvers, the draw comes to an end. -/
def DrawsEnd (i : Nat) : Engagement -> List Maneuver -> Prop
  | _, [] => True
  | e, m :: ms =>
      (e.tasks[i]?.any Task.isArmed = true ->
          (Draw.attacker e.world.settings.field e.world.settings.attacker).Ends e.world.stream) ∧
        DrawsEnd i (e.maneuver m) ms

instance decidableDrawsEnd (i : Nat) :
    (e : Engagement) -> (ms : List Maneuver) -> Decidable (DrawsEnd i e ms)
  | _, [] => inferInstanceAs (Decidable True)
  | e, m :: ms => @instDecidableAnd _ _ inferInstance (decidableDrawsEnd i (e.maneuver m) ms)

end Engagement

/-!
## Attackers
-/

namespace AttackLauncher

/-- What a launcher has dealt in that is done with a slot, and what it leaves behind. -/
inductive Settles (w : World) (slot : Nat) : List Dealing -> Prop where
  | launched {id : MissileId} {task : Nat} (hseat : id.seat = ⟨.attacker, slot⟩)
      (hlive : w.IsLive id) (htaken : w.IsTaken id.seat) :
      Settles w slot [.spawns id, .starts task id]
  | returned (hfree : slot ∈ w.admission.chain.free)
      (hvacant : ¬ w.IsOccupied ⟨.attacker, slot⟩) :
      Settles w slot [.returns ⟨.attacker, slot⟩]
  | undone {id : MissileId} (hseat : id.seat = ⟨.attacker, slot⟩)
      (hfree : slot ∈ w.admission.chain.free) (hvacant : ¬ w.IsOccupied ⟨.attacker, slot⟩) :
      Settles w slot [.spawns id, .vacates id, .returns ⟨.attacker, slot⟩]

/-- What a launcher has dealt in since it drew the slot, with so many steps to go at most. -/
inductive Past (slot : Nat) : Nat -> AttackLauncher -> List Dealing -> Prop where
  | drawn : Past slot 6 (drawn slot) []
  | armed : Past slot 5 (armed slot) []
  | loaded (m : Missile) : Past slot 4 (loaded slot m) []
  | launching {id : MissileId} (hseat : id.seat = ⟨.attacker, slot⟩) :
      Past slot 3 (launching id) [.spawns id]
  | retreating {id : MissileId} (hseat : id.seat = ⟨.attacker, slot⟩) :
      Past slot 2 (retreating id) [.spawns id]
  | calledOff : Past slot 1 (returning slot) []
  | abandoned {id : MissileId} (hseat : id.seat = ⟨.attacker, slot⟩) :
      Past slot 1 (returning slot) [.spawns id, .vacates id]

variable {l : AttackLauncher} {e : Engagement} {i slot n : Nat} {dealings : List Dealing}
  {c : Conditions} {dt : Float32}

theorem flies_step (hi : e.tasks[i]? = some (.attack l)) (hstarts : l.starts? c = none)
    (task : Nat) (id : MissileId) :
    (e.work i c dt (.attack l)).Flies task id ↔ e.Flies task id :=
  Engagement.flies_work_of_starts hi rfl rfl hstarts task id

def Proceeds (e : Engagement) (i : Nat) (c : Conditions) (dt : Float32) (slot n : Nat)
    (l : AttackLauncher) (dealings : List Dealing) : Prop :=
  exists done, e.Does (e.work i c dt (.attack l)) done ∧
    (Settles (l.step c e.world).2 slot (dealings ++ done.toList) ∨
      exists k, k < n ∧ Past slot k (l.step c e.world).1 (dealings ++ done.toList))

theorem proceeds_quietly (hi : e.tasks[i]? = some (.attack l)) (hstarts : l.starts? c = none)
    (hfleet : (l.step c e.world).2.fleet = e.world.fleet)
    (hsupplies : (l.step c e.world).2.supplies = e.world.supplies) {k : Nat} (hk : k < n)
    (hpast : Past slot k (l.step c e.world).1 dealings) :
    Proceeds e i c dt slot n l dealings := by
  have hfleet' : (e.work i c dt (.attack l)).world.fleet = e.world.fleet := hfleet
  refine ⟨none, Engagement.does_nothing (World.isTaken_of_supplies hsupplies)
    (World.isLive_of_fleet hfleet') ?_ (flies_step hi hstarts), .inr ⟨k, hk, ?_⟩⟩
  · rw [hfleet']
    exact .refl _
  · simpa using hpast

theorem proceeds_spawn (h : e.Sound) {m : Missile}
    (hi : e.tasks[i]? = some (.attack (loaded slot m))) :
    Proceeds e i c dt slot 4 (loaded slot m) [] := by
  have hmem := List.mem_of_getElem? hi
  rcases Charge.advances_spawn h.world (h.charge _ hmem) (h.task _ hmem) with
    ⟨id, w', hspawn, hid, _⟩
  simp only at hspawn
  have hstep : (loaded slot m).step c e.world = (.launching id, w') := by
    simp only [step, hspawn]
  have hworld : (e.work i c dt (.attack (loaded slot m))).world = w' := congrArg Prod.snd hstep
  have hspawn' : e.world.spawn? .attacker slot m =
      .ok (id, (e.work i c dt (.attack (loaded slot m))).world) := hworld ▸ hspawn
  refine ⟨some (.spawns id), Engagement.does_spawn? h.world hspawn'
    (fun hside => absurd hside (by decide)) (flies_step hi rfl), .inr ⟨3, by omega, ?_⟩⟩
  rw [hstep]
  exact .launching hid

theorem proceeds_launch (h : e.Sound) {id : MissileId}
    (hi : e.tasks[i]? = some (.attack (launching id))) (hseat : id.seat = ⟨.attacker, slot⟩) :
    Proceeds e i c dt slot 3 (launching id) [.spawns id] := by
  cases haccepting : c.accepting with
  | false =>
      have hstep : (launching id).step c e.world = (.retreating id, e.world) := by
        simp only [step, haccepting, Bool.false_eq_true, if_false]
      exact proceeds_quietly hi (by simp [starts?, haccepting]) (by rw [hstep]) (by rw [hstep])
        (k := 2) (by omega) (by rw [hstep]; exact .retreating hseat)
  | true =>
      have hstep : (launching id).step c e.world = (.cooling, e.world) := by
        simp only [step, haccepting, if_true]
      have hstarts : (Task.attack (launching id)).starts? c = some id := by
        simp only [Task.starts?, starts?, haccepting, if_true]
      rcases h.charge _ (List.mem_of_getElem? hi) with ⟨_, htaken, m, hid, _⟩
      refine ⟨some (.starts e.tasks.length id), Engagement.does_starts (congrArg Prod.snd hstep)
        (fun hflies => ?_) (fun task other => ?_), .inl ?_⟩
      · rcases hflies with ⟨u, f, hu, _⟩
        exact Nat.lt_irrefl _ (List.getElem?_eq_some_iff.mp hu).1
      · rw [Engagement.flies_work hi rfl rfl, hstarts, Option.some.injEq, and_comm,
          eq_comm (a := id)]
      · rw [hstep]
        have hslot : id.slot = slot := congrArg Seat.slot hseat
        refine .launched hseat (by rw [World.IsLive, hid]; rfl) ?_
        rw [hseat, ← hslot]
        exact htaken

theorem proceeds_retreat (h : e.Sound) {id : MissileId}
    (hi : e.tasks[i]? = some (.attack (retreating id))) (hseat : id.seat = ⟨.attacker, slot⟩) :
    Proceeds e i c dt slot 2 (retreating id) [.spawns id] := by
  rcases Charge.advances_vacate h.world (h.charge _ (List.mem_of_getElem? hi)) with
    ⟨m, w', hvacate, _⟩
  have hstep : (retreating id).step c e.world = (.returning id.slot, w') := by
    simp only [step, hvacate]
  have hworld : (e.work i c dt (.attack (retreating id))).world = w' := congrArg Prod.snd hstep
  refine ⟨some (.vacates id), Engagement.does_vacate? h.world (hworld ▸ hvacate)
    (flies_step hi rfl), .inr ⟨1, by omega, ?_⟩⟩
  rw [hstep, show id.slot = slot from congrArg Seat.slot hseat]
  exact .abandoned hseat

theorem does_return (h : e.Sound) (hi : e.tasks[i]? = some (.attack (returning slot)))
    (c : Conditions) (dt : Float32) :
    e.Does (e.work i c dt (.attack (returning slot))) (some (.returns ⟨.attacker, slot⟩)) ∧
      slot ∈ ((returning slot).step c e.world).2.admission.chain.free ∧
      ¬ ((returning slot).step c e.world).2.IsOccupied ⟨.attacker, slot⟩ := by
  have hc := h.charge _ (List.mem_of_getElem? hi)
  rcases h.world.admission.release_leaves hc.1 with ⟨q, hq, _, hleaves⟩
  have hreturn : e.world.returnSlot? .attacker slot = .ok { e.world with admission := q } :=
    bind_eq_ok.mpr ⟨q, hq, rfl⟩
  have hstep : (returning slot).step c e.world = (.ended, { e.world with admission := q }) := by
    simp only [step, hreturn]
  have hworld : (e.work i c dt (.attack (returning slot))).world =
      { e.world with admission := q } := congrArg Prod.snd hstep
  refine ⟨Engagement.does_returnSlot? h.world hc.1 (hworld ▸ hreturn) (flies_step hi rfl), ?_, ?_⟩
  · rw [hstep, hleaves.free_eq]
    exact List.mem_cons_self ..
  · rw [hstep]
    exact hc.2

theorem Past.step (h : e.Sound) (hi : e.tasks[i]? = some (.attack l))
    (hpast : Past slot n l dealings)
    (hdraw : forall stream, (Draw.attacker e.world.settings.field
      e.world.settings.attacker).Ends stream -> exists m, (Draw.attacker
        e.world.settings.field e.world.settings.attacker stream).1 = .ok m)
    (hends : e.tasks[i]?.any Task.isArmed = true -> (Draw.attacker
      e.world.settings.field e.world.settings.attacker).Ends e.world.stream)
    (c : Conditions) (dt : Float32) :
    Proceeds e i c dt slot n l dealings := by
  cases hpast with
  | drawn =>
      cases hrunning : c.running with
      | true =>
          exact proceeds_quietly hi rfl rfl rfl (k := 5) (by omega) (by
            simp only [AttackLauncher.step, hrunning, if_true]
            exact .armed)
      | false =>
          exact proceeds_quietly hi rfl rfl rfl (k := 1) (by omega) (by
            simp only [AttackLauncher.step, hrunning, Bool.false_eq_true, if_false]
            exact .calledOff)
  | armed =>
      rcases hdraw _ (hends (by rw [hi]; rfl)) with ⟨m, hm⟩
      refine proceeds_quietly hi rfl ?_ ?_ (k := 4) (by omega) ?_
      · simp only [AttackLauncher.step, World.drawAttacker, hm]
      · simp only [AttackLauncher.step, World.drawAttacker, hm]
        rfl
      · rw [step_armed_ok hm]
        exact .loaded m
  | loaded m => exact proceeds_spawn h hi
  | launching hseat => exact proceeds_launch h hi hseat
  | retreating hseat => exact proceeds_retreat h hi hseat
  | calledOff =>
      rcases does_return h hi c dt with ⟨hdone, hfree, hvacant⟩
      exact ⟨_, hdone, .inl (.returned hfree hvacant)⟩
  | abandoned hseat =>
      rcases does_return h hi c dt with ⟨hdone, hfree, hvacant⟩
      exact ⟨_, hdone, .inl (.undone hseat hfree hvacant)⟩

theorem Past.pos (h : Past slot n l dealings) : 0 < n := by
  cases h <;> decide

/-- A launcher that takes all its steps comes to be done with the slot. -/
theorem Past.settles {s : Settings}
    (hdraw : forall stream, (Draw.attacker s.field s.attacker).Ends stream ->
      exists m, (Draw.attacker s.field s.attacker stream).1 = .ok m)
    (h : e.Sound) (hs : e.world.settings = s) (hi : e.tasks[i]? = some (.attack l))
    (hpast : Past slot n l dealings) (ms : List Maneuver) (hends : Engagement.DrawsEnd i e ms)
    (hsteps : n <= ms.countP fun m => m.task? = some i) :
    exists before after more, ms = before ++ after ∧ Engagement.Deals i e before more ∧
      Settles (e.maneuvers before).world slot (dealings ++ more) := by
  induction ms generalizing e n l dealings with
  | nil => exact absurd hpast.pos (Nat.not_lt_of_le hsteps)
  | cons m rest ih =>
      have h' := h.maneuver m
      have hs' : (e.maneuver m).world.settings = s := (h.maneuver_drives m).settings_eq.trans hs
      by_cases hm : m.task? = some i
      · rcases Engagement.maneuver_own hi hm with ⟨accepting, now, dt, _, hwork⟩
        rcases hpast.step h hi (by rw [hs]; exact hdraw) hends.1
            { running := e.running, accepting, now } dt with
          ⟨done, hdone, hsettles | ⟨k, hk, hpast'⟩⟩
        · refine ⟨[m], rest, done.toList ++ [], rfl, .step hm (hwork ▸ hdone) (.nothing _), ?_⟩
          rw [List.append_nil]
          show Settles (e.maneuver m).world slot _
          rw [hwork]
          exact hsettles
        · have hi' := Engagement.task_work hi { running := e.running, accepting, now } dt
          rw [← hwork] at hi'
          rw [List.countP_cons_of_pos (by simpa using hm)] at hsteps
          rcases ih h' hs' hi' hpast' hends.2 (by omega) with
            ⟨before, after, more, heq, hdeals, hsettles⟩
          refine ⟨m :: before, after, done.toList ++ more, by rw [heq]; rfl,
            .step hm (hwork ▸ hdone) hdeals, ?_⟩
          rw [← List.append_assoc]
          exact hsettles
      · rw [List.countP_cons_of_neg (by simpa using hm)] at hsteps
        rcases ih h' hs' (h.task_of_others hi hm) hpast hends.2 hsteps with
          ⟨before, after, more, heq, hdeals, hsettles⟩
        exact ⟨m :: before, after, more, by rw [heq]; rfl, .others hm hdeals, hsettles⟩

end AttackLauncher

namespace Engagement

/--
An attempt of the defence breaks off only where more samples are allowed than there can be
room for.  Let one start anywhere in a run, and let no other launcher of the defence take a
step before it ends.  If it ends with an interceptor, it has started one flight of it, and the
interceptor is in its arena, has the claimed attacker for its target and its slot in use.  If
it ends without, it has started none.  An interceptor that it reserved is gone then, its slot
was given back once, and an attacker that was claimed, if it is still active, is unclaimed.

If the greatest speed is finite, and a launcher of attackers has drawn a slot, then within six
steps of its own it has started one flight from it, or has given it back once, with nothing in
it, unless the stream has no words for an attacker.  What a task deals in is settled by the
run.
-/
theorem launchers_leak_nothing {s : Settings} {w : World} (hvalid : s.validate = .ok (.ok ()))
    (hw : World.ofSettings? s = .ok w) (past : List Maneuver) (i : Nat) (ms : List Maneuver) :
    let e := (start w).maneuvers past
    (forall l fault, .defence l ∈ e.tasks -> l.fault? = some fault ->
        fault = .capacityOverflow ∧ PredictorSettings.sampleRoom < s.predictor.maxSamples) ∧
      (forall launched, e.tasks[i]? = some (.defence (.attempting .seeking)) ->
        Returns i launched e ms -> exists dealings, Deals i e ms dealings ∧
          Attempt.Settles (e.maneuvers ms).world launched dealings) ∧
      (s.InRange -> s.attacker.maxSpeed.isInf = false -> DrawsEnd i e ms -> forall slot,
        e.tasks[i]? = some (.attack (.drawn slot)) ->
          6 <= (ms.countP fun m => m.task? = some i) ->
            exists before after dealings, ms = before ++ after ∧ Deals i e before dealings ∧
              AttackLauncher.Settles (e.maneuvers before).world slot dealings) ∧
      (forall dealings dealings', Deals i e ms dealings -> Deals i e ms dealings' ->
        dealings = dealings') := by
  intro e
  have hclear : e.IsClear s := (start_isClear hvalid hw).maneuvers past
  refine ⟨maneuvers_isWhole hvalid hw past, ?_, ?_, fun _ _ => Deals.unique⟩
  · intro launched hi hreturns
    exact hreturns.settles hclear.sound hi rfl .seeking
  · intro hrange hfinite hends slot hi hsteps
    exact AttackLauncher.Past.settles
      (fun stream => Settings.exists_attacker hrange hvalid hfinite) hclear.sound
      hclear.settings_eq hi .drawn ms hends hsteps

def bothAtWork : List Maneuver :=
  (firstFlight ++ ([.hire .defender, .work 2 true 0 0] ++ List.replicate 3 (.work 0 true 0 0) ++
    [.request, .work 0 true 0 0] : List Action)).map .act

def engaged : List Maneuver :=
  (List.replicate 3 (.work 2 true 0 0) ++ [.mark ⟨.attacker, 0, 1⟩] ++
    List.replicate 4 (.work 2 true 0 0) : List Action).map .act

def calledOff : List Maneuver :=
  (List.replicate 4 (.work 2 true 0 0) ++ List.replicate 3 (.work 0 true 0 0) ++ [.stop] ++
    List.replicate 3 (.work 0 false 0 0) ++ List.replicate 4 (.work 2 true 0 0) :
      List Action).map .act

theorem launchers_leak_nothing_called_off :
    narrow.validate = .ok (.ok ()) ∧ exists w, World.ofSettings? narrow = .ok w ∧
      let e := (start w).maneuvers bothAtWork
      let d : MissileId := ⟨.defender, 0, 1⟩
      (Returns 2 (some d) e engaged ∧ exists dealings, Deals 2 e engaged dealings ∧
          Attempt.Settles (e.maneuvers engaged).world (some d) dealings) ∧
        (Returns 2 none e calledOff ∧ exists dealings, Deals 2 e calledOff dealings ∧
          Attempt.Settles (e.maneuvers calledOff).world none dealings) ∧
        exists before after dealings, calledOff = before ++ after ∧ Deals 0 e before dealings ∧
          AttackLauncher.Settles (e.maneuvers before).world 1 dealings := by
  have hvalid : narrow.validate = .ok (.ok ()) := by decide +kernel
  have hrange : narrow.InRange :=
    { field :=
        { width := by decide
          height := by decide
          wall := by decide
          goal := by decide
          radius := by decide }
      defender := DefenderSettings.inRange_default }
  have hviewed : ((World.ofSettings? narrow).toOption.map fun w =>
      let e := (start w).maneuvers bothAtWork
      ((e.tasks[0]?, e.tasks[2]?), decide (Returns 2 (some ⟨.defender, 0, 1⟩) e engaged),
        decide (Returns 2 none e calledOff), decide (DrawsEnd 0 e calledOff))) =
      some ((some (.attack (.drawn 1)), some (.defence (.attempting .seeking))),
        true, true, true) := by
    decide +kernel
  rcases World.exists_ofSettings? hviewed with ⟨w, hw, hview⟩
  simp only [Prod.mk.injEq, decide_eq_true_eq] at hview
  rcases hview with ⟨⟨hdrawn, hseeking⟩, hengaged, hcalledOff, hends⟩
  refine ⟨hvalid, w, hw, ⟨hengaged, ?_⟩, ⟨hcalledOff, ?_⟩, ?_⟩
  · exact (launchers_leak_nothing hvalid hw bothAtWork 2 engaged).2.1 _ hseeking hengaged
  · exact (launchers_leak_nothing hvalid hw bothAtWork 2 calledOff).2.1 _ hseeking hcalledOff
  · exact (launchers_leak_nothing hvalid hw bothAtWork 0 calledOff).2.2.1 hrange
      (by decide +kernel) hends 1 hdrawn (by decide +kernel)

def endless : Settings :=
  { narrow with attacker := Settings.endless.attacker }

def lostLaunch : List Maneuver :=
  ([.hire .attacker, .work 0 true 0 0, .work 0 true 0 0, .request] ++
    List.replicate 3 (.work 0 true 0 0) : List Action).map .act

/-- The launcher that has drawn the slot is broken, no flight was started, and the slot is lost. -/
theorem launcher_leaks_slot :
    endless.validate = .ok (.ok ()) ∧ exists w, World.ofSettings? endless = .ok w ∧
      let e := (start w).maneuvers lostLaunch
      ((start w).maneuvers (lostLaunch.take 5)).tasks = [.attack (.drawn 0)] ∧
        e.tasks = [.attack (.broken .drawToNonFinite)] ∧
        e.world.IsTaken ⟨.attacker, 0⟩ ∧ 0 ∉ e.world.admission.chain.free := by
  have hvalid : endless.validate = .ok (.ok ()) := by decide +kernel
  have hviewed : ((World.ofSettings? endless).toOption.map fun w =>
      let e := (start w).maneuvers lostLaunch
      (((start w).maneuvers (lostLaunch.take 5)).tasks, e.tasks,
        decide (e.world.IsTaken ⟨.attacker, 0⟩), decide (0 ∉ e.world.admission.chain.free))) =
      some ([.attack (.drawn 0)], [.attack (.broken .drawToNonFinite)], true, true) := by
    decide +kernel
  rcases World.exists_ofSettings? hviewed with ⟨w, hw, hview⟩
  simp only [Prod.mk.injEq, decide_eq_true_eq] at hview
  exact ⟨hvalid, w, hw, hview⟩

end Engagement
end AirDefense

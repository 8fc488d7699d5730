import AirDefense.Proofs.Engagement.Dealings
import AirDefense.Proofs.Engagement.Exclusivity
import AirDefense.Proofs.Engagement.Reservations

/-!
# What attempts deal in

An attempt of the defence takes a slot, reserves an interceptor in it and claims a target.
Either it hands all of this on to the flight that it starts, or it gives all of it back.
-/

namespace AirDefense

namespace Engagement

variable {e : Engagement} {i : Nat} {t : Task}

theorem Sound.task_of_others (h : e.Sound) (hi : e.tasks[i]? = some t) {m : Maneuver}
    (hm : m.task? ≠ some i) : (e.maneuver m).tasks[i]? = some t := by
  cases m with
  | act a =>
      rcases h.act_cases hi a with ⟨accepting, now, dt, ha, _⟩ | ⟨_, htask, _⟩
      · rw [ha] at hm
        exact absurd rfl hm
      · exact htask
  | steer id point speed angle => exact hi

theorem maneuver_own (hi : e.tasks[i]? = some t) {m : Maneuver} (hm : m.task? = some i) :
    exists accepting now dt, m = .act (.work i accepting now dt) ∧
      e.maneuver m = e.work i { running := e.running, accepting, now } dt t := by
  cases m with
  | act a =>
      cases a with
      | work j accepting now dt =>
          injection hm with hm
          subst hm
          refine ⟨accepting, now, dt, rfl, ?_⟩
          simp only [maneuver, act, hi]
      | hire side | watch | look j | request | mark id | stop | closeAdmission | closePool =>
          cases hm
  | steer id point speed angle => cases hm

theorem task_work (hi : e.tasks[i]? = some t) (c : Conditions) (dt : Float32) :
    (e.work i c dt t).tasks[i]? = some (t.step c e.world).1 := by
  rw [tasks_work_of_lt (List.getElem?_eq_some_iff.mp hi).1, if_pos rfl]

theorem flies_work_of_starts {c : Conditions} {dt : Float32} (hi : e.tasks[i]? = some t)
    (ht : t.flight? = none) (ht' : (t.step c e.world).1.flight? = none)
    (hstarts : t.starts? c = none) (task : Nat) (id : MissileId) :
    (e.work i c dt t).Flies task id ↔ e.Flies task id := by
  rw [flies_work hi ht ht', hstarts]
  simp

end Engagement

/-!
## How an attempt ends
-/

def Attempt.answer? : Attempt -> Option (Option MissileId)
  | ended launched => some launched
  | _ => none

/-- What an attempt has dealt in, and what it leaves behind, when it ends with an answer. -/
inductive Attempt.Settles (w : World) : Option MissileId -> List Dealing -> Prop where
  | launched {id target : MissileId} {task : Nat}
      (hpursues : w.fleet.defenders.Pursues id target) (htaken : w.IsTaken id.seat) :
      Settles w (some id) [.takes id.seat, .spawns id, .claims id target, .starts task id]
  | refused : Settles w none []
  | undone {id : MissileId} {target? : Option MissileId} (hside : id.side = .defender)
      (hgone : ¬ w.IsLive id) (hfree : ¬ w.IsTaken id.seat)
      (hopen : forall target, target? = some target ->
        w.fleet.attackers.isActive target = true -> w.IsUnclaimed target) :
      Settles w none ([.takes id.seat, .spawns id] ++ (target?.map (.claims id)).toList ++
        [.vacates id, .returns id.seat])

namespace Attempt

def pursuer? : Attempt -> Option MissileId
  | watching watch => some watch.interceptor
  | pausing watch => some watch.interceptor
  | watched watch => some watch.interceptor
  | aiming watch => some watch.interceptor
  | launching id => some id
  | _ => none

/-- What an attempt has dealt in so far. -/
inductive Past (w : World) : Attempt -> List Dealing -> Prop where
  | seeking : Past w seeking []
  | queued : Past w queued []
  | equipped (slot : Nat) : Past w (equipped slot) [.takes ⟨.defender, slot⟩]
  | reserved (id : MissileId) : Past w (reserved id) [.takes id.seat, .spawns id]
  | claimed {a : Attempt} {id target : MissileId} (ha : a.pursuer? = some id)
      (hpursues : w.fleet.defenders.Pursues id target) (hreserves : w.Reserves id target) :
      Past w a [.takes id.seat, .spawns id, .claims id target]
  | retreating {id : MissileId} (target? : Option MissileId)
      (hreserves : forall target, target? = some target -> w.Reserves id target) :
      Past w (retreating id) ([.takes id.seat, .spawns id] ++ (target?.map (.claims id)).toList)
  | returning {id : MissileId} {target? : Option MissileId} {slot : Nat}
      (hseat : id.seat = ⟨.defender, slot⟩) (hgone : ¬ w.IsLive id)
      (hreserves : forall target, target? = some target -> w.Reserves id target) :
      Past w (returning slot) ([.takes id.seat, .spawns id] ++
        (target?.map (.claims id)).toList ++ [.vacates id])
  | ended {launched : Option MissileId} {dealings : List Dealing}
      (hsettles : Settles w launched dealings) : Past w (ended launched) dealings

variable {a : Attempt} {w w' : World} {id : MissileId} {dealings : List Dealing}

theorem Past.settles (h : a.Past w dealings) {launched : Option MissileId}
    (ha : a = .ended launched) : Settles w launched dealings := by
  cases h with
  | ended hsettles =>
      cases ha
      exact hsettles
  | claimed hpursuer =>
      subst ha
      cases hpursuer
  | seeking | queued | equipped slot | reserved id | retreating target? hreserves
  | returning hseat hgone hreserves => cases ha

theorem charge_of_pursuer? (h : a.pursuer? = some id) :
    a.charge = .missile ⟨.defender, id.slot⟩ id .nowhere := by
  cases a with
  | watching watch | pausing watch | watched watch | aiming watch | launching other =>
      injection h with h
      rw [← h]
      rfl
  | seeking | queued | equipped slot | reserved other | retreating other | returning slot
  | ended launched | broken fault => cases h

theorem spec_of_charge {place : Whereabouts} {slot : Nat}
    (h : (Charge.missile ⟨.defender, slot⟩ id place).Sound w) :
    id.seat = ⟨.defender, slot⟩ ∧ id.side = .defender ∧ w.IsTaken id.seat ∧
      (w.fleet.defenders.find? id).isSome = true := by
  rcases h with ⟨hseat, htaken, m, hid, _⟩
  have hside : id.side = .defender := congrArg Seat.side hseat
  rw [Fleet.find?, hside] at hid
  exact ⟨hseat, hside, hseat ▸ htaken,
    by rw [show w.fleet.defenders.find? id = some m from hid]; rfl⟩

/-- What others do between two steps changes nothing about the past. -/
theorem Past.others (h : a.Past w dealings) (hover : a.isOver = false)
    (hhonours : w.Honours w') (hc : a.charge.Sound w') : a.Past w' dealings := by
  cases h with
  | seeking => exact .seeking
  | queued => exact .queued
  | equipped slot => exact .equipped slot
  | reserved id => exact .reserved id
  | claimed ha hpursues hreserves =>
      rw [charge_of_pursuer? ha] at hc
      exact .claimed ha (hhonours.pursues hpursues (spec_of_charge hc).2.2.2)
        (hhonours.reserves hreserves)
  | retreating target? hreserves =>
      exact .retreating target? fun target htarget => hhonours.reserves (hreserves target htarget)
  | @returning id target? slot hseat hgone hreserves =>
      have hvacant : ¬ w'.IsOccupied id.seat := hseat ▸ hc.2
      refine .returning hseat ?_ fun target htarget => hhonours.reserves (hreserves target htarget)
      simp [World.IsLive, World.find?_eq_none_of_vacant hvacant]
  | ended hsettles => cases hover

/-!
## The steps of an attempt
-/

variable {e : Engagement} {i : Nat} {c : Conditions} {dt : Float32}

theorem past_take (answer : SlotAnswer) : (take answer).Past w
    (((answer.slot?.map (Seat.mk .defender)).map Dealing.takes).toList) := by
  cases answer with
  | granted slot => exact .equipped slot
  | refused => exact .ended .refused
  | parked => exact .queued

theorem pursuer?_readTarget (watch : Watch) :
    (readTarget c watch w).pursuer? = some watch.interceptor := by
  unfold readTarget
  split
  · rfl
  · split
    · rfl
    · split
      · rfl
      · split <;> rfl

/-- A step does one thing at most, and it joins what was done before. -/
def Proceeds (e : Engagement) (i : Nat) (c : Conditions) (dt : Float32) (a : Attempt)
    (dealings : List Dealing) : Prop :=
  exists done, e.Does (e.work i c dt (.defence (.attempting a))) done ∧
    (a.step c e.world).1.Past (a.step c e.world).2 (dealings ++ done.toList)

theorem flies_step (hi : e.tasks[i]? = some (.defence (.attempting a)))
    (hstarts : a.starts? c = none) (task : Nat) (id : MissileId) :
    (e.work i c dt (.defence (.attempting a))).Flies task id ↔ e.Flies task id :=
  Engagement.flies_work_of_starts hi rfl rfl hstarts task id

theorem proceeds_quietly (hi : e.tasks[i]? = some (.defence (.attempting a)))
    (hstarts : a.starts? c = none) (hworld : (a.step c e.world).2 = e.world)
    (hpast : (a.step c e.world).1.Past e.world dealings) : Proceeds e i c dt a dealings := by
  have hsame : (e.work i c dt (.defence (.attempting a))).world = e.world := hworld
  refine ⟨none, Engagement.does_nothing (fun seat => by rw [hsame]) (fun id => by rw [hsame]) ?_
    (flies_step hi hstarts), ?_⟩
  · rw [hsame]
    exact .refl _
  · rw [hworld]
    simpa using hpast

theorem proceeds_take (hi : e.tasks[i]? = some (.defence (.attempting a)))
    (hstarts : a.starts? c = none) {answer : SlotAnswer} {p : SlotPool}
    (hstep : a.step c e.world = (take answer, { e.world with pool := p }))
    (hgrants : e.world.Grants (answer.slot?.map (Seat.mk .defender)) { e.world with pool := p }) :
    Proceeds e i c dt a [] := by
  have hworld : (e.work i c dt (.defence (.attempting a))).world = { e.world with pool := p } :=
    congrArg Prod.snd hstep
  refine ⟨_, Engagement.does_takes (hworld ▸ hgrants.takes) (hworld ▸ rfl) (flies_step hi hstarts),
    ?_⟩
  rw [hstep]
  exact past_take answer

theorem proceeds_reserve (h : e.Sound) {slot : Nat}
    (hi : e.tasks[i]? = some (.defence (.attempting (equipped slot)))) :
    Proceeds e i c dt (equipped slot) [.takes ⟨.defender, slot⟩] := by
  rcases Charge.advances_spawn (m := Missile.launchedAt .defender .origin (Single.ofInt 0)
    e.world.settings.defender.angle) h.world (h.charge _ (List.mem_of_getElem? hi)) rfl with
    ⟨id, w', hspawn, hid, _⟩
  simp only at hspawn
  have hstep : (equipped slot).step c e.world = (.reserved id, w') := by
    simp only [step, reserve, hspawn]
  have hworld : (e.work i c dt (.defence (.attempting (equipped slot)))).world = w' :=
    congrArg Prod.snd hstep
  refine ⟨some (.spawns id), Engagement.does_spawn? h.world (hworld ▸ hspawn) (fun _ => rfl)
    (flies_step hi rfl), ?_⟩
  rw [hstep, ← hid]
  exact .reserved id

theorem proceeds_claim (h : e.Sound) {id : MissileId}
    (hi : e.tasks[i]? = some (.defence (.attempting (reserved id)))) :
    Proceeds e i c dt (reserved id) [.takes id.seat, .spawns id] := by
  have hcharge := spec_of_charge (h.charge _ (List.mem_of_getElem? hi))
  rcases step_reserved (c := c) h.quiet id with ⟨_, hstep⟩ | ⟨_, hstep⟩
  · exact proceeds_quietly hi rfl (congrArg Prod.snd hstep) (by rw [hstep]; exact .reserved id)
  · rw [claimTarget_eq] at hstep
    cases htake : Claim.take e.world.grid e.world.fleet id with
    | mk claim? rest =>
        rcases rest with ⟨g, f⟩
        rw [htake] at hstep
        cases claim? with
        | none =>
            cases (Claim.takes_iff hcharge.2.2.2).mpr htake
            exact proceeds_quietly hi rfl (congrArg Prod.snd hstep) (by
              rw [hstep]
              exact .retreating none fun _ => nofun)
        | some claim =>
            have hclaims := World.claims_take h.world hcharge.2.2.2 htake
            have hworld : (e.work i c dt (.defence (.attempting (reserved id)))).world =
                { e.world with grid := g, fleet := f } := congrArg Prod.snd hstep
            refine ⟨some (.claims id claim.target), Engagement.does_claims (hclaims.free id)
              (hworld ▸ hclaims.begins) (hworld ▸ hclaims.pursues) (fun seat => ?_) (fun other => ?_)
              (flies_step hi rfl), ?_⟩
            · rw [hworld]
              exact World.isTaken_of_supplies (w := e.world) rfl seat
            · rw [World.IsLive, World.IsLive, hworld, hclaims.live]
            · rw [hstep]
              exact .claimed rfl hclaims.pursues hclaims.reserves

theorem proceeds_aim (h : e.Sound) {watch : Watch} {target : MissileId}
    (hi : e.tasks[i]? = some (.defence (.attempting (aiming watch))))
    (hpursues : e.world.fleet.defenders.Pursues watch.interceptor target)
    (hreserves : e.world.Reserves watch.interceptor target) :
    (exists fault, ((aiming watch).step c e.world).1 = broken fault) ∨
      Proceeds e i c dt (aiming watch)
        [.takes watch.interceptor.seat, .spawns watch.interceptor,
          .claims watch.interceptor target] := by
  cases hpoint : launchPoint? e.world.settings watch with
  | error fault => exact .inl ⟨fault, by simp only [step, aim, hpoint]⟩
  | ok point =>
      have hstep : exists change, (forall m, (change m : Missile).target = m.target) ∧
          (aiming watch).step c e.world = (launching watch.interceptor,
            e.world.setArena .defender
              (e.world.fleet.defenders.update watch.interceptor change)) :=
        ⟨fun m => m.launchFrom point e.world.settings.defender.speed
            e.world.settings.defender.angle, fun _ => rfl, by simp only [step, aim, hpoint]⟩
      rcases hstep with ⟨change, htarget, hstep⟩
      have hworld : (e.work i c dt (.defence (.attempting (aiming watch)))).world =
          e.world.setArena .defender
            (e.world.fleet.defenders.update watch.interceptor change) := congrArg Prod.snd hstep
      have hhonours : e.world.Honours (e.world.setArena .defender
          (e.world.fleet.defenders.update watch.interceptor change)) :=
        World.Handles.honours (.change .defender watch.interceptor htarget)
      have hlive : forall other, (e.world.setArena .defender
          (e.world.fleet.defenders.update watch.interceptor change)).IsLive other ↔
            e.world.IsLive other := World.isLive_update change
      refine .inr ⟨none, Engagement.does_nothing (fun seat => ?_) (hworld ▸ hlive)
        (hworld ▸ hhonours.beginsNone) (flies_step hi rfl), ?_⟩
      · rw [hworld]
        exact World.isTaken_of_supplies (w := e.world) rfl seat
      · rw [hstep]
        refine .claimed rfl (hhonours.pursues hpursues ?_) (hhonours.reserves hreserves)
        have hcharge := spec_of_charge (h.charge _ (List.mem_of_getElem? hi))
        have hstill := (hlive watch.interceptor).mpr
        rw [World.IsLive, World.IsLive, Fleet.find?, Fleet.find?, hcharge.2.1] at hstill
        exact hstill hcharge.2.2.2

theorem proceeds_launch (h : e.Sound) {id target : MissileId}
    (hi : e.tasks[i]? = some (.defence (.attempting (launching id))))
    (hpursues : e.world.fleet.defenders.Pursues id target)
    (hreserves : e.world.Reserves id target) :
    Proceeds e i c dt (launching id) [.takes id.seat, .spawns id, .claims id target] := by
  have hcharge := spec_of_charge (h.charge _ (List.mem_of_getElem? hi))
  cases haccepting : c.accepting with
  | false =>
      have hstep : (launching id).step c e.world = (.retreating id, e.world) := by
        simp only [step, haccepting, Bool.false_eq_true, if_false]
      refine proceeds_quietly hi (by simp [starts?, haccepting]) (congrArg Prod.snd hstep) ?_
      rw [hstep]
      refine .retreating (some target) fun other hother => ?_
      injection hother with hother
      exact hother ▸ hreserves
  | true =>
      have hstep : (launching id).step c e.world = (.ended (some id), e.world) := by
        simp only [step, haccepting, if_true]
      have hstarts : (Task.defence (.attempting (launching id))).starts? c = some id := by
        simp only [Task.starts?, DefenceLauncher.starts?, starts?, haccepting, if_true]
      refine ⟨some (.starts e.tasks.length id), Engagement.does_starts (congrArg Prod.snd hstep)
        (fun hflies => ?_) (fun task other => ?_), ?_⟩
      · rcases hflies with ⟨u, f, hu, _⟩
        exact Nat.lt_irrefl _ (List.getElem?_eq_some_iff.mp hu).1
      · rw [Engagement.flies_work hi rfl rfl, hstarts, Option.some.injEq, and_comm,
          eq_comm (a := id)]
      · rw [hstep]
        exact .ended (.launched hpursues hcharge.2.2.1)

theorem proceeds_retreat (h : e.Sound) {id : MissileId} {target? : Option MissileId}
    (hi : e.tasks[i]? = some (.defence (.attempting (retreating id))))
    (hreserves : forall target, target? = some target -> e.world.Reserves id target) :
    Proceeds e i c dt (retreating id)
      ([.takes id.seat, .spawns id] ++ (target?.map (.claims id)).toList) := by
  have hc := h.charge _ (List.mem_of_getElem? hi)
  have hcharge := spec_of_charge hc
  rcases Charge.advances_vacate h.world hc with ⟨m, w', hvacate, _⟩
  have hstep : (retreating id).step c e.world = (.returning id.slot, w') := by
    simp only [step, hvacate]
  have hworld : (e.work i c dt (.defence (.attempting (retreating id)))).world = w' :=
    congrArg Prod.snd hstep
  have hhonours := (World.handles_vacate? hvacate).honours
  refine ⟨some (.vacates id), Engagement.does_vacate? h.world (hworld ▸ hvacate)
    (flies_step hi rfl), ?_⟩
  rw [hstep]
  refine .returning hcharge.1 (fun hlive => ?_) fun target htarget =>
    hhonours.reserves (hreserves target htarget)
  exact (((World.isLive_vacate? h.world hvacate).2 id).mp hlive).2 rfl

theorem proceeds_return (h : e.Sound) {id : MissileId} {target? : Option MissileId} {slot : Nat}
    (hi : e.tasks[i]? = some (.defence (.attempting (returning slot))))
    (hseat : id.seat = ⟨.defender, slot⟩) (hgone : ¬ e.world.IsLive id)
    (hreserves : forall target, target? = some target -> e.world.Reserves id target) :
    Proceeds e i c dt (returning slot) ([.takes id.seat, .spawns id] ++
      (target?.map (.claims id)).toList ++ [.vacates id]) := by
  have hside : id.side = .defender := congrArg Seat.side hseat
  have hc := h.charge _ (List.mem_of_getElem? hi)
  rcases Charge.advances_return h.world hc with ⟨w', hreturn, _, hfree⟩
  have hstep : (returning slot).step c e.world = (.ended none, w') := by
    simp only at hreturn
    simp only [step, hreturn]
  have hworld : (e.work i c dt (.defence (.attempting (returning slot)))).world = w' :=
    congrArg Prod.snd hstep
  have hfleet := World.fleet_of_returnSlot? hreturn
  have hhonours := (World.handles_returnSlot? hreturn).honours
  refine ⟨some (.returns ⟨.defender, slot⟩), Engagement.does_returnSlot? h.world hc.1
    (hworld ▸ hreturn) (flies_step hi rfl), ?_⟩
  have hgone' : ¬ w'.IsLive id := fun hlive => hgone ((World.isLive_of_fleet hfleet id).mp hlive)
  have hfind : w'.fleet.defenders.find? id = none := by
    rw [World.IsLive, Fleet.find?, hside, Bool.not_eq_true, Option.isSome_eq_false_iff,
      Option.isNone_iff_eq_none] at hgone'
    exact hgone'
  rw [hstep, ← hseat, Option.toList_some, List.append_assoc]
  exact .ended (.undone hside hgone' (hseat ▸ hfree) fun target htarget hactive =>
    (hhonours.reserves (hreserves target htarget)).unclaimed hfind hactive)

/-- An attempt that goes on breaks off in two places only, where it observes and where it aims. -/
theorem Past.step (h : e.Sound) (hi : e.tasks[i]? = some (.defence (.attempting a)))
    (hpast : a.Past e.world dealings) (c : Conditions) (dt : Float32) :
    (exists fault, (a.step c e.world).1 = broken fault) ∨ Proceeds e i c dt a dealings := by
  cases hpast with
  | seeking => exact .inr (proceeds_take hi rfl rfl (h.world.grants_pool h.world.pool.enter))
  | queued => exact .inr (proceeds_take hi rfl rfl (h.world.grants_pool h.world.pool.wake))
  | equipped slot => exact .inr (proceeds_reserve h hi)
  | reserved id => exact .inr (proceeds_claim h hi)
  | retreating target? hreserves => exact .inr (proceeds_retreat h hi hreserves)
  | returning hseat hgone hreserves => exact .inr (proceeds_return h hi hseat hgone hreserves)
  | ended hsettles => exact .inr (proceeds_quietly hi rfl rfl (.ended hsettles))
  | @claimed _ id target ha hpursues hreserves =>
      cases a with
      | watching watch =>
          injection ha with ha
          subst ha
          rcases observe_cases c watch e.world with ⟨_, heq⟩ | ⟨_, heq⟩
          · exact .inl ⟨_, heq⟩
          · refine .inr (proceeds_quietly hi rfl rfl ?_)
            simp only [step, heq]
            exact .claimed (pursuer?_readTarget watch) hpursues hreserves
      | pausing watch =>
          injection ha with ha
          subst ha
          refine .inr (proceeds_quietly hi rfl rfl ?_)
          simp only [step]
          split <;> exact .claimed rfl hpursues hreserves
      | watched watch =>
          injection ha with ha
          subst ha
          refine .inr (proceeds_quietly hi rfl rfl ?_)
          simp only [step]
          split
          · exact .claimed rfl hpursues hreserves
          · refine .retreating (some target) fun other hother => ?_
            injection hother with hother
            exact hother ▸ hreserves
      | aiming watch =>
          injection ha with ha
          subst ha
          exact proceeds_aim h hi hpursues hreserves
      | launching other =>
          injection ha with ha
          subst ha
          exact .inr (proceeds_launch h hi hpursues hreserves)
      | seeking | queued | equipped slot | reserved other | retreating other | returning slot
      | ended launched | broken fault => cases ha

end Attempt

/-!
## The call of an attempt
-/

namespace Engagement

def attempt? (e : Engagement) (i : Nat) : Option Attempt :=
  match e.tasks[i]? with
  | some (.defence (.attempting a)) => some a
  | _ => none

def isDefence (e : Engagement) (m : Maneuver) : Bool :=
  match m.task?.bind (e.tasks[·]?) with
  | some (.defence _) => true
  | _ => false

def answer? (e : Engagement) (i : Nat) : Maneuver -> Option (Option MissileId)
  | .act (.work j accepting now _) =>
      if j = i then
        (e.attempt? i).bind fun a =>
          (a.step { running := e.running, accepting, now } e.world).1.answer?
      else none
  | _ => none

/--
An attempt of the task `i` goes on along a run and ends, with an answer, with the last
maneuver.  Meanwhile no other launcher of the defence takes a step.
-/
inductive Returns (i : Nat) (launched : Option MissileId) :
    Engagement -> List Maneuver -> Prop where
  | others {e : Engagement} {m : Maneuver} {rest : List Maneuver} (hm : m.task? ≠ some i)
      (hdefence : e.isDefence m = false) (hrest : Returns i launched (e.maneuver m) rest) :
      Returns i launched e (m :: rest)
  | goesOn {e : Engagement} {m : Maneuver} {rest : List Maneuver} (hm : m.task? = some i)
      (hnext : ((e.maneuver m).attempt? i).isSome = true)
      (hrest : Returns i launched (e.maneuver m) rest) : Returns i launched e (m :: rest)
  | ends {e : Engagement} {m : Maneuver} (hends : e.answer? i m = some launched) :
      Returns i launched e [m]

variable {e : Engagement} {i : Nat} {launched : Option MissileId} {ms : List Maneuver}

theorem returns_cons {m : Maneuver} {rest : List Maneuver} :
    Returns i launched e (m :: rest) ↔
      (rest = [] ∧ e.answer? i m = some launched) ∨
        (m.task? = some i ∧ ((e.maneuver m).attempt? i).isSome = true ∧
          Returns i launched (e.maneuver m) rest) ∨
        (m.task? ≠ some i ∧ e.isDefence m = false ∧ Returns i launched (e.maneuver m) rest) := by
  constructor
  · intro h
    cases h with
    | others hm hdefence hrest => exact .inr (.inr ⟨hm, hdefence, hrest⟩)
    | goesOn hm hnext hrest => exact .inr (.inl ⟨hm, hnext, hrest⟩)
    | ends hends => exact .inl ⟨rfl, hends⟩
  · rintro (⟨rfl, hends⟩ | ⟨hm, hnext, hrest⟩ | ⟨hm, hdefence, hrest⟩)
    · exact .ends hends
    · exact .goesOn hm hnext hrest
    · exact .others hm hdefence hrest

instance decidableReturns (i : Nat) (launched : Option MissileId) :
    (ms : List Maneuver) -> (e : Engagement) -> Decidable (Returns i launched e ms)
  | [], _ => isFalse nofun
  | m :: rest, e =>
      have := decidableReturns i launched rest (e.maneuver m)
      decidable_of_iff _ returns_cons.symm

theorem attempt?_eq_some {a : Attempt} :
    e.attempt? i = some a ↔ e.tasks[i]? = some (.defence (.attempting a)) := by
  unfold attempt?
  constructor
  · intro h
    split at h
    · injection h with h
      subst h
      assumption
    · cases h
  · intro h
    rw [h]

theorem answer?_eq_some {m : Maneuver} (h : e.answer? i m = some launched) :
    exists accepting now dt a, m = .act (.work i accepting now dt) ∧ e.attempt? i = some a ∧
      (a.step { running := e.running, accepting, now } e.world).1 = .ended launched := by
  unfold answer? at h
  split at h
  · rename_i j accepting now dt
    split at h
    · rename_i hj
      rcases Option.bind_eq_some_iff.mp h with ⟨a, ha, hanswer⟩
      refine ⟨accepting, now, dt, a, by rw [hj], ha, ?_⟩
      unfold Attempt.answer? at hanswer
      split at hanswer
      · cases hanswer
        assumption
      · cases hanswer
    · cases h
  · cases h

theorem eq_of_afterAttempt {a b : Attempt}
    (h : DefenceLauncher.afterAttempt a = .attempting b) : a = b ∧ a.isOver = false := by
  cases a <;> cases h <;> exact ⟨rfl, rfl⟩

theorem claims_nothing_of_isDefence {m : Maneuver} (hm : e.isDefence m = false) {a : Action}
    {t : Task} (ha : m = .act a) (hworker : e.worker a = some t) : t.claimant? = none := by
  subst ha
  cases a with
  | work j accepting now dt =>
      rw [Option.eq_none_iff_forall_ne_some]
      intro id hid
      rw [Task.eq_of_claimant? hid] at hworker
      rw [worker] at hworker
      simp [isDefence, Maneuver.task?, hworker] at hm
  | hire side | watch | look j | request | mark id | stop | closeAdmission | closePool =>
      cases hworker

theorem task_work_attempting {a : Attempt} (hi : e.tasks[i]? = some (.defence (.attempting a)))
    (c : Conditions) (dt : Float32) :
    (e.work i c dt (.defence (.attempting a))).tasks[i]? =
      some (.defence (.afterAttempt (a.step c e.world).1)) :=
  task_work hi c dt

/-- Along its call an attempt adds to what it has dealt in, and then it is settled. -/
theorem Returns.settles (hreturns : Returns i launched e ms) (h : e.Sound) {a : Attempt}
    {past : List Dealing} (hi : e.tasks[i]? = some (.defence (.attempting a)))
    (hover : a.isOver = false) (hpast : a.Past e.world past) :
    exists dealings, Deals i e ms dealings ∧
      Attempt.Settles (e.maneuvers ms).world launched (past ++ dealings) := by
  induction hreturns generalizing a past with
  | @others e m rest hm hdefence hrest ih =>
      have hi' := h.task_of_others hi hm
      have h' := h.maneuver m
      have hhonours := h.maneuver_honours fun _ _ => claims_nothing_of_isDefence hdefence
      have hcharge := h'.charge _ (List.mem_of_getElem? hi')
      rcases ih h' hi' hover (hpast.others hover hhonours hcharge) with ⟨dealings, hdeals, hsettles⟩
      exact ⟨dealings, .others hm hdeals, hsettles⟩
  | @goesOn e m rest hm hnext hrest ih =>
      rcases Option.isSome_iff_exists.mp hnext with ⟨b, hb⟩
      rcases maneuver_own hi hm with ⟨accepting, now, dt, _, hwork⟩
      rw [attempt?_eq_some, hwork, task_work_attempting hi, Option.some.injEq,
        Task.defence.injEq] at hb
      rcases eq_of_afterAttempt hb with ⟨hnow, hover'⟩
      have hproceeds := (hpast.step h hi { running := e.running, accepting, now } dt).resolve_left
        (by
          rintro ⟨fault, hbroken⟩
          rw [hbroken] at hover'
          cases hover')
      rcases hproceeds with ⟨done, hdone, hpast'⟩
      have hi' := task_work_attempting hi { running := e.running, accepting, now } dt
      rw [hb] at hi'
      rw [hnow] at hover' hpast'
      have hpast'' : b.Past (e.maneuver m).world (past ++ done.toList) := by
        rw [hwork]
        exact hpast'
      rcases ih (h.maneuver m) (hwork ▸ hi') hover' hpast'' with ⟨dealings, hdeals, hsettles⟩
      exact ⟨done.toList ++ dealings, .step hm (hwork ▸ hdone) hdeals, by
        rwa [← List.append_assoc]⟩
  | @ends e m hends =>
      rcases answer?_eq_some hends with ⟨accepting, now, dt, b, rfl, hb, hended⟩
      rcases Option.some.inj (hb.symm.trans (attempt?_eq_some.mpr hi)) with rfl
      have hwork : e.maneuver (.act (.work i accepting now dt)) =
          e.work i { running := e.running, accepting, now } dt (.defence (.attempting b)) := by
        simp only [maneuver, act, hi]
      have hproceeds := (hpast.step h hi { running := e.running, accepting, now } dt).resolve_left
        (by
          rintro ⟨fault, hbroken⟩
          rw [hbroken] at hended
          cases hended)
      rcases hproceeds with ⟨done, hdone, hpast'⟩
      refine ⟨done.toList ++ [], .step rfl (hwork ▸ hdone) (.nothing _), ?_⟩
      rw [List.append_nil]
      show Attempt.Settles (e.maneuver (.act (.work i accepting now dt))).world launched _
      rw [hwork]
      exact hpast'.settles hended

end Engagement
end AirDefense

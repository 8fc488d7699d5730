import AirDefense.Proofs.Engagement.Interleaving

/-!
# Contracts in a run

No call of a run breaks the contract of what it calls.  What is more, each missile
that flies is taken out of its arena once, and then its slot is given back once.
-/

namespace AirDefense

instance (w : World) (seat : Seat) : Decidable (w.IsTaken seat) :=
  match seat with
  | ⟨.attacker, slot⟩ => inferInstanceAs (Decidable (w.admission.chain.IsInUse slot))
  | ⟨.defender, slot⟩ => inferInstanceAs (Decidable (w.pool.IsTaken slot))

/-- What ends a missile. -/
inductive Deed where
  | vacated
  | returned
deriving DecidableEq, Repr

def World.deeds (id : MissileId) (w w' : World) : List Deed :=
  (if (w.fleet.find? id).isSome && (w'.fleet.find? id).isNone then [.vacated] else []) ++
    if w.IsTaken id.seat ∧ ¬ w'.IsTaken id.seat then [.returned] else []

/-- The missile of a flight that is not over. -/
def Task.aloft? : Task -> Option MissileId
  | .checking f => some f.id
  | .flying f => some f.id
  | .pausing f => some f.id
  | .landed _ => none
  | .attack _ => none
  | .defence _ => none

/-- What has been done to the missile of a flight with this charge. -/
def Charge.done : Charge -> List Deed
  | missile _ _ _ => []
  | slot _ => [.vacated]
  | nothing => [.vacated, .returned]

def Task.done (t : Task) : List Deed :=
  match t.flight? with
  | none => []
  | some _ => t.charge.done

theorem Task.done_launcher {t : Task} (h : t.flight? = none) : t.done = [] := by
  rw [done, h]

theorem Task.done_flight {t : Task} {f : Flight} (h : t.flight? = some f) :
    t.done = t.charge.done := by
  rw [done, h]

theorem Task.aloft?_launcher {t : Task} (h : t.flight? = none) : t.aloft? = none := by
  cases t with
  | attack l => rfl
  | defence l => rfl
  | checking f => cases h
  | flying f => cases h
  | pausing f => cases h
  | landed f => cases h

theorem Task.aloft?_flight {t : Task} {f : Flight} (h : t.flight? = some f) :
    t = .landed f ∨ t.aloft? = some f.id := by
  cases t with
  | attack l => cases h
  | defence l => cases h
  | checking g =>
      injection h with h
      exact .inr (by rw [h, aloft?])
  | flying g =>
      injection h with h
      exact .inr (by rw [h, aloft?])
  | pausing g =>
      injection h with h
      exact .inr (by rw [h, aloft?])
  | landed g =>
      injection h with h
      exact .inl (by rw [h])

theorem Task.flight?_of_aloft {t : Task} {id : MissileId} (h : t.aloft? = some id) :
    exists f, t.flight? = some f ∧ f.id = id ∧ t ≠ .landed f := by
  cases t with
  | attack l | defence l | landed f => cases h
  | checking f | flying f | pausing f =>
      injection h with h
      exact ⟨f, rfl, h, nofun⟩

/-!
## The deeds of one action
-/

namespace Charge

variable {w w' : World} {c c' : Charge} {id : MissileId}

theorem done_append_deeds (hc : c.Sound w) (hc' : c'.Sound w') (hfollows : Follows w' c c')
    (hseat : (exists place, c = missile id.seat id place) ∨ c = slot id.seat) :
    c.done ++ World.deeds id w w' = c'.done := by
  rcases hseat with ⟨place, heq⟩ | heq
  · subst heq
    rcases hc with ⟨_, htaken, m, hid, _⟩
    cases c' with
    | missile seat' id' place' =>
        rcases hfollows with ⟨hseat, hsame⟩
        subst hseat hsame
        rcases hc' with ⟨_, htaken', m', hid', _⟩
        simp [done, World.deeds, hid', htaken']
    | slot seat' =>
        have hseat : seat' = id.seat := hfollows
        subst hseat
        have hid' := World.find?_eq_none_of_vacant hc'.2
        simp [done, World.deeds, hid, hid', hc'.1]
    | nothing => cases hfollows
  · subst heq
    have hid := World.find?_eq_none_of_vacant hc.2
    cases c' with
    | missile seat' id' place' => cases hfollows
    | slot seat' =>
        have hseat : seat' = id.seat := hfollows
        subst hseat
        simp [done, World.deeds, hid, hc'.1]
    | nothing =>
        have hfree : ¬ w'.IsTaken id.seat := hfollows
        simp [done, World.deeds, hid, hc.1, hfree]

end Charge

theorem Flight.charge_cases {f : Flight} (hf : f.Sound) (hphase : f.phase ≠ .cleared) :
    (exists place, f.charge = .missile f.id.seat f.id place) ∨ f.charge = .slot f.id.seat := by
  unfold Flight.charge
  cases hstage : f.stage with
  | ready =>
      cases hready : f.phase with
      | spawned => exact .inl ⟨_, rfl⟩
      | moving => exact .inl ⟨_, rfl⟩
      | collided => exact .inl ⟨_, rfl⟩
      | externallyDeleted => exact .inl ⟨_, rfl⟩
      | cleared => exact absurd hready hphase
  | moved leg => exact .inl ⟨_, rfl⟩
  | ending => exact .inl ⟨_, rfl⟩
  | clearing cell => exact .inl ⟨_, rfl⟩
  | vacating => exact .inl ⟨_, rfl⟩
  | returning => exact .inr rfl
  | broken fault =>
      have hbroken := hf.unbroken
      simp only [Flight.fault?, hstage] at hbroken
      cases hbroken

theorem Task.charge_cases {t : Task} {id : MissileId} (ht : t.Sound) (haloft : t.aloft? = some id) :
    (exists place, t.charge = .missile id.seat id place) ∨ t.charge = .slot id.seat := by
  cases t with
  | attack l => cases haloft
  | defence l => cases haloft
  | landed f => cases haloft
  | checking f =>
      injection haloft with haloft
      exact haloft ▸ Flight.charge_cases ht.1 ht.2
  | flying f =>
      injection haloft with haloft
      exact haloft ▸ Flight.charge_cases ht.1 ht.2
  | pausing f =>
      injection haloft with haloft
      exact haloft ▸ Flight.charge_cases ht.1 ht.2

namespace Engagement

variable {e : Engagement}

def deedsIn (e : Engagement) (i : Nat) (a : Action) : List Deed :=
  match (e.tasks[i]?).bind Task.aloft? with
  | none => []
  | some id => World.deeds id e.world (e.act a).world

/-- What a run does to the missile of a flight before the flight is over. -/
def deeds (i : Nat) : Engagement -> List Action -> List Deed
  | _, [] => []
  | e, a :: rest => e.deedsIn i a ++ deeds i (e.act a) rest

/-- What has been done to the missile of a flight. -/
def done (e : Engagement) (i : Nat) : List Deed :=
  match e.tasks[i]? with
  | none => []
  | some t => t.done

theorem Sound.evolves (h : e.Sound) {i : Nat} {t : Task} (hi : e.tasks[i]? = some t)
    (a : Action) :
    exists t', (e.act a).tasks[i]? = some t' ∧ t.Evolves (e.act a).world t' := by
  have hmem := List.mem_of_getElem? hi
  rcases h.act_cases hi a with ⟨accepting, now, dt, _, htask, hworld⟩ | ⟨_, htask, _⟩
  · refine ⟨_, htask, ?_⟩
    rw [hworld]
    exact Task.step_evolves h.quiet h.world (h.charge t hmem) (h.task t hmem)
  · exact ⟨t, htask, .refl _ t⟩

theorem Sound.flight_run (h : e.Sound) {i : Nat} {t : Task} {f : Flight}
    (hi : e.tasks[i]? = some t) (hf : t.flight? = some f) (actions : List Action) :
    exists t' r, (e.run actions).tasks[i]? = some t' ∧ t'.flight? = some r ∧ r.id = f.id := by
  refine h.run_of (P := fun r => exists t' g, r.tasks[i]? = some t' ∧ t'.flight? = some g ∧
    g.id = f.id) ?_ ⟨t, f, hi, hf, rfl⟩ actions
  rintro r hr ⟨t', g, ht', hg, hid⟩ a
  rcases hr.evolves ht' a with ⟨t'', ht'', hevolves⟩
  rcases hevolves.flight g hg with ⟨k, hk, hsame, _⟩
  exact ⟨t'', k, ht'', hk, hsame.trans hid⟩

theorem done_launcher (side : Side) : (launcher side).done = [] := by
  cases side <;> rfl

theorem done_of_new {i : Nat} {t : Task} {a : Action} (hi : e.tasks[i]? = none)
    (ht : (e.act a).tasks[i]? = some t) : t.done = [] := by
  have hle : e.tasks.length <= i := List.getElem?_eq_none_iff.mp hi
  cases a with
  | hire side =>
      simp only [act, List.getElem?_append_right hle, List.getElem?_singleton] at ht
      split at ht
      · injection ht with ht
        rw [← ht]
        exact done_launcher side
      · cases ht
  | work j accepting now dt =>
      cases hj : e.tasks[j]? with
      | none =>
          simp only [act, hj, hi] at ht
          cases ht
      | some u =>
          simp only [act, hj, work] at ht
          rw [List.getElem?_append_right (by rw [List.length_set]; exact hle)] at ht
          rcases List.mem_map.mp (List.mem_of_getElem? ht) with ⟨id, _, hbegin⟩
          rw [← hbegin]
          rfl
  | look j =>
      cases hj : e.observers[j]? with
      | none =>
          simp only [act, hj, hi] at ht
          cases ht
      | some p =>
          simp only [act, hj, hi] at ht
          cases ht
  | watch | request | mark id | stop | closeAdmission | closePool =>
      simp only [act, hi] at ht
      cases ht

/-- Each action adds to what has been done just what it does. -/
theorem Sound.done_act (h : e.Sound) (i : Nat) (a : Action) :
    e.done i ++ e.deedsIn i a = (e.act a).done i := by
  cases hi : e.tasks[i]? with
  | none =>
      have hnew : (e.act a).done i = [] := by
        unfold done
        cases ht : (e.act a).tasks[i]? with
        | none => rfl
        | some t => exact done_of_new hi ht
      rw [hnew, done, deedsIn, hi]
      rfl
  | some t =>
      have hmem := List.mem_of_getElem? hi
      rcases h.evolves hi a with ⟨t', ht', hevolves⟩
      have hmem' := List.mem_of_getElem? ht'
      simp only [done, deedsIn, hi, ht', Option.bind_some]
      cases hf : t.flight? with
      | none =>
          rw [Task.done_launcher hf, Task.done_launcher (hevolves.launcher hf),
            Task.aloft?_launcher hf]
          rfl
      | some f =>
          rcases hevolves.flight f hf with ⟨r, hr, _, hfollows⟩
          rw [Task.done_flight hf, Task.done_flight hr]
          rcases Task.aloft?_flight hf with hlanded | haloft
          · subst hlanded
            simp only [Task.aloft?, List.append_nil]
            cases hcharge : t'.charge with
            | nothing => rfl
            | slot seat =>
                rw [hcharge] at hfollows
                cases hfollows
            | missile seat id place =>
                rw [hcharge] at hfollows
                cases hfollows
          · rw [haloft]
            exact Charge.done_append_deeds (h.charge t hmem) ((h.act a).charge t' hmem') hfollows
              (Task.charge_cases (h.task t hmem) haloft)

theorem Sound.done_run (h : e.Sound) (i : Nat) (actions : List Action) :
    e.done i ++ deeds i e actions = (e.run actions).done i := by
  induction actions generalizing e with
  | nil => exact List.append_nil _
  | cons a rest ih =>
      rw [deeds, ← List.append_assoc, h.done_act]
      exact ih (h.act a)

/-- Between two actions either all is done to a missile, or it is still somebody's. -/
theorem Sound.deeds_cases {w : World} (h : (start w).Sound) (actions : List Action) {i : Nat}
    {t : Task} {f : Flight} (hi : ((start w).run actions).tasks[i]? = some t)
    (hf : t.flight? = some f) :
    (t = .landed f ∧ deeds i (start w) actions = [.vacated, .returned]) ∨
      (t.aloft? = some f.id ∧ ((start w).run actions).world.IsTaken f.id.seat ∧
        ((deeds i (start w) actions = [] ∧
            (((start w).run actions).world.fleet.find? f.id).isSome = true) ∨
          (deeds i (start w) actions = [.vacated] ∧
            ¬ ((start w).run actions).world.IsOccupied f.id.seat))) := by
  have hsound := h.run actions
  have hmem := List.mem_of_getElem? hi
  have hcharge := hsound.charge t hmem
  have hdeeds : deeds i (start w) actions = t.charge.done := by
    have hrun := h.done_run i actions
    simp only [done, hi] at hrun
    rw [← Task.done_flight hf, ← hrun]
    rfl
  rw [hdeeds]
  rcases Task.aloft?_flight hf with hlanded | haloft
  · refine .inl ⟨hlanded, ?_⟩
    rw [hlanded]
    rfl
  · rcases Task.charge_cases (hsound.task t hmem) haloft with ⟨place, heq⟩ | heq
    · rw [heq] at hcharge ⊢
      rcases hcharge with ⟨_, htaken, m, hid, _⟩
      exact .inr ⟨haloft, htaken, .inl ⟨rfl, by rw [hid]; rfl⟩⟩
    · rw [heq] at hcharge ⊢
      exact .inr ⟨haloft, hcharge.1, .inr ⟨rfl, hcharge.2⟩⟩

end Engagement

/-!
## No contract is broken
-/

theorem AttackLauncher.Sound.harmless {l : AttackLauncher} (h : l.Sound) {fault : Fault}
    (hfault : (Task.attack l).fault? = some fault) : fault.breaksContract = false := by
  cases l with
  | broken other =>
      injection hfault with hfault
      exact hfault ▸ h
  | idle => cases hfault
  | drawing => cases hfault
  | parked => cases hfault
  | drawn slot => cases hfault
  | armed slot => cases hfault
  | loaded slot m => cases hfault
  | launching id => cases hfault
  | cooling => cases hfault
  | retreating id => cases hfault
  | returning slot => cases hfault
  | ended => cases hfault

theorem DefenceLauncher.Sound.harmless {l : DefenceLauncher} (h : l.Sound) {fault : Fault}
    (hfault : (Task.defence l).fault? = some fault) : fault.breaksContract = false := by
  cases l with
  | broken other =>
      injection hfault with hfault
      exact hfault ▸ h
  | idle => cases hfault
  | attempting a => cases hfault
  | pausing => cases hfault
  | ended => cases hfault

namespace Task

theorem Sound.unbroken {t : Task} (h : t.Sound) {f : Flight} (hf : t.flight? = some f) :
    f.fault? = none := by
  cases t with
  | attack l => cases hf
  | defence l => cases hf
  | checking g =>
      injection hf with hf
      exact hf ▸ h.1.unbroken
  | flying g =>
      injection hf with hf
      exact hf ▸ h.1.unbroken
  | pausing g =>
      injection hf with hf
      exact hf ▸ h.1.unbroken
  | landed g =>
      injection hf with hf
      exact hf ▸ h.1.unbroken

theorem Sound.harmless {t : Task} (h : t.Sound) {fault : Fault}
    (hfault : t.fault? = some fault) : fault.breaksContract = false := by
  cases t with
  | attack l => exact AttackLauncher.Sound.harmless h hfault
  | defence l => exact DefenceLauncher.Sound.harmless h hfault
  | checking f => cases hfault
  | flying f => cases hfault
  | pausing f => cases hfault
  | landed f =>
      have hunbroken := h.unbroken (f := f) rfl
      rw [fault?, hunbroken] at hfault
      cases hfault

end Task

namespace Engagement

/--
In every order of actions no task breaks a contract, no flight breaks off, and the lock
is given up only by who holds it.  A slot with a missile is taken.  The missile of a
flight is taken out of its arena once, then its slot is given back once, and by then
the flight is over; until then the slot is taken.
-/
theorem no_contract_is_broken {s : Settings} {w : World} (hvalid : s.validate = .ok (.ok ()))
    (hw : World.ofSettings? s = .ok w) (actions : List Action) :
    let e := (start w).run actions
    (forall t fault, t ∈ e.tasks -> t.fault? = some fault -> fault.breaksContract = false) ∧
      (forall t f, t ∈ e.tasks -> t.flight? = some f -> f.fault? = none) ∧
      (forall snapshot, .releasing snapshot ∈ e.observers ->
        exists l, e.world.lock.release? .high = .ok l) ∧
      (forall t held, e.world.lock.enter t = (none, held) ->
        exists l, held.release? t = .ok l) ∧
      (forall seat, e.world.IsOccupied seat -> e.world.IsTaken seat) ∧
      (forall (i : Nat) t f, e.tasks[i]? = some t -> t.flight? = some f ->
        (t = .landed f ∧ deeds i (start w) actions = [.vacated, .returned]) ∨
          (t.aloft? = some f.id ∧ e.world.IsTaken f.id.seat ∧
            ((deeds i (start w) actions = [] ∧
                (e.world.fleet.find? f.id).isSome = true) ∨
              (deeds i (start w) actions = [.vacated] ∧
                ¬ e.world.IsOccupied f.id.seat)))) := by
  intro e
  have hstart := start_sound hvalid hw
  have h : e.Sound := hstart.run actions
  refine ⟨fun t fault ht => (h.task t ht).harmless, fun t f ht => (h.task t ht).unbroken,
    fun snapshot hobserver => ?_, fun t held henter => ⟨_, h.quiet.release?_of_enter henter t⟩,
    h.world.taken, fun i t f hi hf => hstart.deeds_cases actions hi hf⟩
  exact ⟨_, FieldLock.release?_idle (h.held hobserver rfl) (h.quiet.nextTier .high)⟩

def firstLanding : List Action :=
  firstFlight ++ .mark ⟨.attacker, 0, 1⟩ :: List.replicate 7 (.work 1 true 0 0)

theorem no_contract_is_broken_first_landing :
    narrow.validate = .ok (.ok ()) ∧ exists w, World.ofSettings? narrow = .ok w ∧
      exists f, ((start w).run firstLanding).tasks[1]? = some (.landed f) ∧
        f.fault? = none ∧ deeds 1 (start w) firstLanding = [.vacated, .returned] := by
  have hvalid : narrow.validate = .ok (.ok ()) := by decide +kernel
  have hlanded : ((World.ofSettings? narrow).toOption.bind fun w =>
      ((start w).run firstLanding).tasks[1]?.map fun t =>
        (t.flight?.isSome, t.aloft?)) = some (true, none) := by
    decide +kernel
  cases hw : World.ofSettings? narrow with
  | error fault =>
      rw [hw] at hlanded
      cases hlanded
  | ok w =>
      simp only [hw, Except.toOption, Option.bind_some] at hlanded
      rcases Option.map_eq_some_iff.mp hlanded with ⟨t, ht, hover⟩
      injection hover with hflight hover
      rcases Option.isSome_iff_exists.mp hflight with ⟨f, hf⟩
      rcases no_contract_is_broken hvalid hw firstLanding with ⟨_, hunbroken, _, _, _, hdeeds⟩
      have hsafe := hunbroken t f (List.mem_of_getElem? ht) hf
      rcases hdeeds 1 t f ht hf with ⟨heq, hdone⟩ | ⟨haloft, _⟩
      · rw [heq] at ht
        exact ⟨hvalid, w, rfl, f, ht, hsafe, hdone⟩
      · rw [hover] at haloft
        cases haloft

end Engagement
end AirDefense

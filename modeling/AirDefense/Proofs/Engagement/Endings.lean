import AirDefense.Proofs.Engagement.Contracts

/-!
# Flights that are called off

A flight whose missile was asked to stop moves it no more: at its next step it finds
out and begins to clear up.  The same holds of a flight that has collided.  Neither
can be undone, by the flight itself or by others.
-/

namespace AirDefense

namespace Flight

def isGrounded (f : Flight) : Bool :=
  match f.stage with
  | .ready =>
      match f.phase with
      | .spawned => false
      | .moving => false
      | .collided => true
      | .externallyDeleted => true
      | .cleared => true
  | .moved _ => false
  | .ending => true
  | .clearing _ => true
  | .vacating => true
  | .returning => true
  | .broken _ => true

/-- The flight is grounded, or finds out that it is as soon as it takes a step. -/
def IsCalledOff (f : Flight) (w : World) : Prop :=
  f.isGrounded = true ∨ exists m, w.fleet.find? f.id = some m ∧ m.deleted = true

structure WindsUp (f : Flight) (w : World) (r : Flight × World) : Prop where
  calledOff : r.1.IsCalledOff r.2
  id_eq : r.1.id = f.id
  occupant : forall p id, r.2.grid.occupant? p = some id -> w.grid.occupant? p = some id
  through : r.1.stage = .ready -> r.1.phase = .cleared

variable {f : Flight} {w : World}

theorem windsUp_of_grid {r : Flight} {w' : World} (hgrounded : r.isGrounded = true)
    (hid : r.id = f.id) (hstage : r.stage ≠ .ready) (hgrid : w'.grid = w.grid) :
    f.WindsUp w (r, w') :=
  { calledOff := .inl hgrounded
    id_eq := hid
    occupant := fun _ _ hp => hgrid ▸ hp
    through := fun hready => absurd hready hstage }

theorem windsUp_clear {r : Flight} {w' : World} (cell : Position)
    (hgrounded : r.isGrounded = true) (hid : r.id = f.id) (hstage : r.stage ≠ .ready)
    (hgrid : w'.grid = (w.grid.clear cell f.id).2) : f.WindsUp w (r, w') :=
  { calledOff := .inl hgrounded
    id_eq := hid
    occupant := by
      intro p id hp
      rw [hgrid, Grid.occupant?_clear] at hp
      split at hp
      · cases hp
      · exact hp
    through := fun hready => absurd hready hstage }

theorem windsUp_lookUp : f.WindsUp w (f.lookUp w) := by
  unfold lookUp
  split
  · exact windsUp_of_grid rfl rfl (fun hready => by cases hready) rfl
  · exact windsUp_of_grid rfl rfl (fun hready => by cases hready) rfl

theorem depart_of_deleted {m : Missile} (hid : w.fleet.find? f.id = some m)
    (hdeleted : m.deleted = true) : f.depart w = (f.stop, w) := by
  have hstay : (w.fleet.arena f.id.side).advance f.id f.dt = none := by
    unfold Fleet.find? at hid
    simp only [Arena.advance, hid, hdeleted, if_true]
  simp only [depart, hstay]

theorem enterCell_of_deleted {m : Missile} (leg : Leg) (hid : w.fleet.find? f.id = some m)
    (hdeleted : m.deleted = true) :
    f.enterCell leg w = (f.stop, { w with grid := (w.grid.clear leg.origin f.id).2 }) := by
  have hinactive : w.fleet.isActive f.id = false := by
    rw [← Bool.not_eq_true, Fleet.isActive_iff]
    rintro ⟨m', hid', hdeleted'⟩
    rw [hid] at hid'
    injection hid' with hid'
    rw [hid', hdeleted'] at hdeleted
    cases hdeleted
  simp only [enterCell, hinactive, Bool.not_false, if_true]

/-- A grounded flight that waits for the grid goes on waiting, or clears its cell. -/
theorem windsUp_clearing {cell : Position} (hstage : f.stage = .clearing cell) :
    f.WindsUp w ((w.inGrid? .middle (f.clearCell cell)).getD (f, w)) := by
  have hgrounded : f.isGrounded = true := by simp only [isGrounded, hstage]
  rcases World.inGrid?_enter (w := w) (f.clearCell cell) .middle with
    ⟨_, hwait⟩ | ⟨_, held, lock, hsection⟩
  · rw [hwait]
    exact windsUp_of_grid hgrounded rfl (by simp [hstage]) rfl
  · rw [hsection]
    exact windsUp_clear cell rfl rfl (fun hready => by cases hready) rfl

theorem IsCalledOff.deleted (h : f.IsCalledOff w) (hgrounded : f.isGrounded = false) :
    exists m, w.fleet.find? f.id = some m ∧ m.deleted = true := by
  rcases h with hyes | hdeleted
  · rw [hgrounded] at hyes
    cases hyes
  · exact hdeleted

theorem IsCalledOff.step (h : f.IsCalledOff w) : f.WindsUp w (f.step w) := by
  cases hstage : f.stage with
  | ready =>
      cases hphase : f.phase with
      | spawned | moving =>
          rcases h.deleted (by simp only [isGrounded, hstage, hphase]) with ⟨m, hid, hm⟩
          simp only [Flight.step, hstage, hphase, depart_of_deleted hid hm]
          exact windsUp_of_grid rfl rfl (fun hready => by cases hready) rfl
      | collided | externallyDeleted =>
          simp only [Flight.step, hstage, hphase]
          exact windsUp_lookUp
      | cleared =>
          simp only [Flight.step, hstage, hphase]
          exact ⟨h, rfl, fun _ _ hp => hp, fun _ => hphase⟩
  | moved leg =>
      rcases h.deleted (by simp only [isGrounded, hstage]) with ⟨m, hid, hm⟩
      simp only [Flight.step, hstage]
      rcases World.inGrid?_enter (w := w) (f.enterCell leg) .middle with
        ⟨_, hwait⟩ | ⟨_, held, lock, hsection⟩
      · rw [hwait]
        exact ⟨h, rfl, fun _ _ hp => hp, fun hready => by
          rw [show f.stage = .ready from hready] at hstage
          cases hstage⟩
      · have henter := enterCell_of_deleted (w := { w with lock := held }) leg hid hm
        rw [hsection, henter]
        exact windsUp_clear leg.origin rfl rfl (fun hready => by cases hready) rfl
  | ending =>
      simp only [Flight.step, hstage]
      exact windsUp_lookUp
  | clearing cell =>
      simp only [Flight.step, hstage]
      exact windsUp_clearing hstage
  | vacating =>
      simp only [Flight.step, hstage, vacate]
      split
      · rename_i m w' hvacate
        exact windsUp_of_grid rfl rfl (fun hready => by cases hready)
            (World.grid_of_vacate? hvacate)
      · exact windsUp_of_grid rfl rfl (fun hready => by cases hready) rfl
  | returning =>
      simp only [Flight.step, hstage, giveBack]
      split
      · rename_i w' hreturn
        have hgrid := World.grid_of_returnSlot? hreturn
        exact ⟨.inl rfl, rfl, fun _ _ hp => hgrid ▸ hp, fun _ => rfl⟩
      · exact windsUp_of_grid rfl rfl (fun hready => by cases hready) rfl
  | broken fault =>
      simp only [Flight.step, hstage]
      exact windsUp_of_grid (by simp only [isGrounded, hstage]) rfl (by simp [hstage]) rfl

theorem IsCalledOff.of_keeps (h : f.IsCalledOff w) {own : Option Seat} {w' : World}
    (hk : w.Keeps own w') (hne : own ≠ some f.id.seat) : f.IsCalledOff w' := by
  rcases h with hgrounded | ⟨m, hid, hdeleted⟩
  · exact .inl hgrounded
  · rcases hk.missile f.id m hne hid with ⟨m', hid', _, hstays⟩
    refine .inr ⟨m', hid', ?_⟩
    cases hm' : m'.deleted with
    | true => rfl
    | false =>
        rw [hstays hm'] at hdeleted
        cases hdeleted

end Flight

namespace Task

theorem flight?_afterStep (f : Flight) : (afterStep f).flight? = some f := by
  unfold afterStep
  split
  · rfl
  · split <;> rfl

variable {t : Task} {w : World} {c : Conditions}

theorem seat?_of_aloft {id : MissileId} (ht : t.Sound) (haloft : t.aloft? = some id) :
    t.charge.seat? = some id.seat := by
  rcases charge_cases ht haloft with ⟨place, heq⟩ | heq
  · rw [heq]
    rfl
  · rw [heq]
    rfl

/-- The task's missile can play no part in a collision any more. -/
def IsSpent (t : Task) (w : World) : Prop :=
  exists f, t.flight? = some f ∧
    (t = .landed f ∨ ((forall p, w.grid.occupant? p ≠ some f.id) ∧ f.IsCalledOff w))

theorem IsSpent.step (h : t.IsSpent w) (hw : w.Sound) :
    (t.step c w).1.IsSpent (t.step c w).2 := by
  rcases h with ⟨f, hf, hspent⟩
  cases t with
  | attack l => cases hf
  | defence l => cases hf
  | checking g =>
      injection hf with hf
      subst hf
      rcases hspent with hlanded | ⟨hoff, hcalled⟩
      · cases hlanded
      · refine ⟨g, rfl, .inr ?_⟩
        simp only [Task.step]
        split
        · exact ⟨hoff, hcalled⟩
        · have hk := hw.markDeleted g.id
          have hother : none ≠ some g.id.seat := by simp
          exact ⟨fun p hp => hoff p (hk.occupant g.id p hother hp), hcalled.of_keeps hk hother⟩
  | flying g =>
      injection hf with hf
      subst hf
      rcases hspent with hlanded | ⟨hoff, hcalled⟩
      · cases hlanded
      · have hwound := hcalled.step
        refine ⟨(g.step w).1, flight?_afterStep _, .inr ⟨fun p hp => ?_, hwound.calledOff⟩⟩
        rw [hwound.id_eq] at hp
        exact hoff p (hwound.occupant p _ hp)
  | pausing g =>
      injection hf with hf
      subst hf
      rcases hspent with hlanded | hspent
      · cases hlanded
      · exact ⟨g, rfl, .inr hspent⟩
  | landed g => exact ⟨g, rfl, .inl rfl⟩

theorem IsSpent.of_keeps (h : t.IsSpent w) (ht : t.Sound) {own : Option Seat} {w' : World}
    (hk : w.Keeps own w') (hne : forall seat, t.charge.seat? = some seat -> own ≠ some seat) :
    t.IsSpent w' := by
  rcases h with ⟨f, hf, hspent⟩
  refine ⟨f, hf, ?_⟩
  rcases aloft?_flight hf with hlanded | haloft
  · exact .inl hlanded
  · have hseat := hne f.id.seat (seat?_of_aloft ht haloft)
    rcases hspent with hlanded | ⟨hoff, hcalled⟩
    · exact .inl hlanded
    · exact .inr ⟨fun p hp => hoff p (hk.occupant f.id p hseat hp), hcalled.of_keeps hk hseat⟩

def IsWindingUp (t : Task) (w : World) : Prop :=
  exists f, (t = .flying f ∧ f.IsCalledOff w) ∨ t = .landed f

theorem IsWindingUp.step (h : t.IsWindingUp w) :
    (t.step c w).1.IsWindingUp (t.step c w).2 := by
  rcases h with ⟨f, ⟨ht, hcalled⟩ | ht⟩
  · subst ht
    have hwound := hcalled.step
    simp only [Task.step, afterStep]
    split
    · exact ⟨_, .inl ⟨rfl, hwound.calledOff⟩⟩
    · split
      · exact ⟨_, .inr rfl⟩
      · rename_i hsettled hover
        simp only [Bool.or_eq_true, decide_eq_true_eq, not_or] at hover
        cases hstage : (f.step w).1.stage with
        | ready => exact absurd (hwound.through hstage) hover.2
        | broken fault => simp [Flight.fault?, hstage] at hover
        | moved leg => simp [Flight.isSettled, hstage] at hsettled
        | ending => simp [Flight.isSettled, hstage] at hsettled
        | clearing cell => simp [Flight.isSettled, hstage] at hsettled
        | vacating => simp [Flight.isSettled, hstage] at hsettled
        | returning => simp [Flight.isSettled, hstage] at hsettled
  · subst ht
    exact ⟨f, .inr rfl⟩

theorem IsWindingUp.of_keeps (h : t.IsWindingUp w) (ht : t.Sound) {own : Option Seat}
    {w' : World} (hk : w.Keeps own w')
    (hne : forall seat, t.charge.seat? = some seat -> own ≠ some seat) :
    t.IsWindingUp w' := by
  rcases h with ⟨f, ⟨heq, hcalled⟩ | heq⟩
  · subst heq
    exact ⟨f, .inl ⟨rfl, hcalled.of_keeps hk (hne f.id.seat (seat?_of_aloft ht rfl))⟩⟩
  · exact ⟨f, .inr heq⟩

end Task

namespace Engagement

variable {e : Engagement} {i : Nat} {t : Task}

/-- What neither the steps of a task nor those of others can undo. -/
theorem Sound.persists {P : Task -> World -> Prop}
    (hstep : forall {t w c}, w.Sound -> P t w -> P (t.step c w).1 (t.step c w).2)
    (hkeeps : forall {t w w' own}, t.Sound -> w.Keeps own w' ->
      (forall seat, t.charge.seat? = some seat -> own ≠ some seat) -> P t w -> P t w')
    (hlock : forall {t w lock}, P t w -> P t { w with lock })
    (h : e.Sound) (hi : e.tasks[i]? = some t) (ht : P t e.world) (a : Action) :
    exists t', (e.act a).tasks[i]? = some t' ∧ P t' (e.act a).world := by
  rcases h.act_cases hi a with
    ⟨accepting, now, dt, _, htask, hworld⟩ | ⟨_, htask, own, lock, hne, hk⟩
  · exact ⟨_, htask, hworld ▸ hstep h.world ht⟩
  · exact ⟨t, htask, hkeeps (h.task t (List.mem_of_getElem? hi)) hk hne (hlock ht)⟩

theorem Sound.spent_act (h : e.Sound) (hi : e.tasks[i]? = some t) (ht : t.IsSpent e.world)
    (a : Action) : exists t', (e.act a).tasks[i]? = some t' ∧ t'.IsSpent (e.act a).world :=
  h.persists (P := Task.IsSpent) (fun hw ht => ht.step hw)
    (fun hsound hk hne ht => ht.of_keeps hsound hk hne) (fun ht => ht) hi ht a

theorem Sound.windingUp_act (h : e.Sound) (hi : e.tasks[i]? = some t)
    (ht : t.IsWindingUp e.world) (a : Action) :
    exists t', (e.act a).tasks[i]? = some t' ∧ t'.IsWindingUp (e.act a).world :=
  h.persists (P := Task.IsWindingUp) (fun _ ht => ht.step)
    (fun hsound hk hne ht => ht.of_keeps hsound hk hne) (fun ht => ht) hi ht a

end Engagement
end AirDefense

import AirDefense.Proofs.Engagement.Seats

/-!
# What a task is in charge of

A task at work is in charge of nothing, of a slot that it took, or of a missile in
such a slot.  With a missile it knows where on the grid the missile can be.  No
other task can take any of this away; each step of the task itself passes from one
charge to the next.
-/

namespace AirDefense

/-- Where a missile can be on the grid. -/
inductive Whereabouts where
  | nowhere
  | within (cell : Position)
  /-- In its own cell, if anywhere. -/
  | leaving
  /-- In its own cell, unless it was asked to stop. -/
  | settled
  /-- Where the leg began, if anywhere; the missile itself is at the end of the leg. -/
  | underway (leg : Leg)
deriving DecidableEq

def Whereabouts.Holds (w : World) (id : MissileId) (m : Missile) : Whereabouts -> Prop
  | nowhere => forall p, w.grid.occupant? p ≠ some id
  | within cell => forall p, w.grid.occupant? p = some id -> p = cell
  | leaving => forall p, w.grid.occupant? p = some id -> p = m.cell
  | settled =>
      (forall p, w.grid.occupant? p = some id -> p = m.cell) ∧
        (m.deleted = false -> w.grid.occupant? m.cell = some id)
  | underway leg =>
      (forall p, w.grid.occupant? p = some id -> p = leg.origin) ∧ m.cell = leg.destination

inductive Charge where
  | nothing
  | slot (seat : Seat)
  | missile (seat : Seat) (id : MissileId) (place : Whereabouts)
deriving DecidableEq

namespace Charge

def ofSeat? : Option Seat -> Charge
  | none => nothing
  | some seat => slot seat

def seat? : Charge -> Option Seat
  | nothing => none
  | slot seat => some seat
  | missile seat _ _ => some seat

/-- The world bears the charge out. -/
def Sound (w : World) : Charge -> Prop
  | nothing => True
  | slot seat => w.IsTaken seat ∧ ¬ w.IsOccupied seat
  | missile seat id place =>
      id.seat = seat ∧ w.IsTaken seat ∧
        exists m, w.fleet.find? id = some m ∧ place.Holds w id m

variable {w w' : World} {c c' : Charge} {own : Option Seat} {seat : Seat} {id : MissileId}

@[simp] theorem seat?_ofSeat? (seat? : Option Seat) : (ofSeat? seat?).seat? = seat? := by
  cases seat? <;> rfl

theorem Sound.taken (h : c.Sound w) (hseat : c.seat? = some seat) : w.IsTaken seat := by
  cases c with
  | nothing => cases hseat
  | slot s =>
      injection hseat with hseat
      exact hseat ▸ h.1
  | missile s id place =>
      injection hseat with hseat
      exact hseat ▸ h.2.1

theorem holds_of_keeps {place : Whereabouts} {m m' : Missile} (hk : w.Keeps own w')
    (hne : own ≠ some id.seat) (h : place.Holds w id m) (hid' : w'.fleet.find? id = some m')
    (hcell : m'.cell = m.cell) (hdeleted : m'.deleted = false -> m.deleted = false) :
    place.Holds w' id m' := by
  cases place with
  | nowhere => exact fun p hp => h p (hk.occupant id p hne hp)
  | within cell => exact fun p hp => h p (hk.occupant id p hne hp)
  | leaving => exact fun p hp => (h p (hk.occupant id p hne hp)).trans hcell.symm
  | settled =>
      refine ⟨fun p hp => (h.1 p (hk.occupant id p hne hp)).trans hcell.symm, fun hm' => ?_⟩
      rw [hcell]
      exact hk.kept id m.cell m' hne (h.2 (hdeleted hm')) hid' hm'
  | underway leg =>
      exact ⟨fun p hp => h.1 p (hk.occupant id p hne hp), hcell.trans h.2⟩

/-- A section of another task takes no charge away. -/
theorem Sound.of_keeps (h : c.Sound w) (hk : w.Keeps own w')
    (hne : forall seat, c.seat? = some seat -> own ≠ some seat) : c.Sound w' := by
  cases c with
  | nothing => trivial
  | slot seat =>
      exact ⟨hk.taken seat (hne seat rfl) h.1, hk.vacant seat (hne seat rfl) h.2⟩
  | missile seat id place =>
      rcases h with ⟨hseat, htaken, m, hid, hplace⟩
      subst hseat
      rcases hk.missile id m (hne id.seat rfl) hid with ⟨m', hid', hcell, hdeleted⟩
      exact ⟨rfl, hk.taken id.seat (hne id.seat rfl) htaken, m', hid',
        holds_of_keeps hk (hne id.seat rfl) hplace hid' hcell hdeleted⟩

/-!
## Steps between charges
-/

/--
A task that was in charge of `c` is in charge of `c'` after a step; a seat that it
did not own before was nobody's.
-/
structure Advances (w : World) (c c' : Charge) (w' : World) : Prop where
  keeps : w.Keeps c.seat? w'
  charge : c'.Sound w'
  seat : forall seat, c'.seat? = some seat -> c.seat? = some seat ∨ ¬ w.IsTaken seat

theorem Sound.advances (h : c.Sound w) (hk : w.Keeps none w') : Advances w c c w' :=
  { keeps := hk.weaken
    charge := h.of_keeps hk fun _ _ => nofun
    seat := fun _ hseat => .inl hseat }

theorem Sound.stays (h : c.Sound w) (hw : w.Sound) : Advances w c c w :=
  h.advances hw.keeps_self

theorem advances_nothing (hk : w.Keeps none w') : Advances w c .nothing w' :=
  { keeps := hk.weaken
    charge := trivial
    seat := fun _ hseat => by cases hseat }

theorem advances_grants {seat? : Option Seat} (h : w.Grants seat? w') :
    Advances w .nothing (ofSeat? seat?) w' := by
  refine ⟨h.keeps, ?_, fun seat hseat => .inr (h.takes.1 seat ?_)⟩
  · cases seat? with
    | none => trivial
    | some seat => exact ⟨(h.takes.2 seat).mpr (.inr rfl), h.vacant seat rfl⟩
  · rw [seat?_ofSeat?] at hseat
    exact hseat

theorem advances_spawn (hw : w.Sound) (h : (slot seat).Sound w) {m : Missile}
    (hm : m.side = seat.side) :
    exists id w', w.spawn? seat.side seat.slot m = .ok (id, w') ∧ id.seat = seat ∧
      Advances w (slot seat) (missile seat id .nowhere) w' := by
  rcases hw.spawn? hm h.1 h.2 with ⟨id, w', hspawn, hk, hid, htaken, hfind, hoff⟩
  exact ⟨id, w', hspawn, hid, hk, ⟨hid, htaken, m, hfind, hoff⟩, fun _ hseat => .inl hseat⟩

theorem advances_vacate (hw : w.Sound) (h : (missile seat id .nowhere).Sound w) :
    exists m w', w.vacate? id = .ok (m, w') ∧
      Advances w (missile seat id .nowhere) (slot seat) w' := by
  rcases h with ⟨hseat, htaken, m, hid, hoff⟩
  subst hseat
  rcases hw.vacate? hid hoff with ⟨w', hvacate, hk, hstill, hvacant⟩
  exact ⟨m, w', hvacate, hk, ⟨hstill.mpr htaken, hvacant⟩, fun _ hseat => .inl hseat⟩

theorem advances_return (hw : w.Sound) (h : (slot seat).Sound w) :
    exists w', w.returnSlot? seat.side seat.slot = .ok w' ∧
      Advances w (slot seat) nothing w' ∧ ¬ w'.IsTaken seat := by
  rcases hw.returnSlot? h.1 h.2 with ⟨w', hreturn, hk, hfree⟩
  exact ⟨w', hreturn, ⟨hk, trivial, fun _ hseat => by cases hseat⟩, hfree⟩

/-!
## Sections with the lock held
-/

theorem sound_relock {l : FieldLock} : c.Sound { w with lock := l } ↔ c.Sound w := by
  cases c <;> exact Iff.rfl

theorem Advances.relock {l : FieldLock} (h : Advances { w with lock := l } c c' w') :
    Advances w c c' { w' with lock := w.lock } :=
  { keeps := h.keeps.relock rfl
    charge := sound_relock.mpr h.charge
    seat := h.seat }

/-- A section on the grid is a step, or leaves everything as it is. -/
theorem advances_inGrid? {act : World -> α × World} {t : Tier} {charge : α -> Charge}
    {P : α -> Prop} {x : α} (hquiet : w.lock.IsQuiet) (hw : w.Sound) (hc : c.Sound w)
    (hx : charge x = c) (hP : P x)
    (hact : forall held, ({ w with lock := held } : World).Sound ->
      c.Sound { w with lock := held } ->
      Advances { w with lock := held } c (charge (act { w with lock := held }).1)
        (act { w with lock := held }).2 ∧ P (act { w with lock := held }).1) :
    Advances w c (charge ((w.inGrid? t act).getD (x, w)).1)
        ((w.inGrid? t act).getD (x, w)).2 ∧ P ((w.inGrid? t act).getD (x, w)).1 := by
  rcases World.inGrid?_cases act t hquiet with ⟨_, hnone⟩ | ⟨_, held, hsome⟩
  · rw [hnone]
    exact ⟨hx ▸ hc.stays hw, hP⟩
  · rcases hact held { hw with } (sound_relock.mpr hc) with ⟨hadvances, hresult⟩
    rw [hsome hadvances.keeps.lock_eq]
    exact ⟨hadvances.relock, hresult⟩

end Charge

end AirDefense

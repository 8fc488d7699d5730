import AirDefense.Engagement.World
import AirDefense.Proofs.Field.Collision
import AirDefense.Proofs.Field.LockExclusion
import AirDefense.Proofs.Fleet.Arena
import AirDefense.Proofs.Slots.Admission

/-!
# Seats of a world

A seat is a slot of one side.  It is taken from the call that hands its slot out to
the call that gives it back, and it is occupied while its arena has a missile
there.  The tasks of a run own the seats they took.

A section that some task runs on the world keeps the world in order, and it spares
the seats of all other tasks: what they took stays taken, and their missiles stay
where they are, in the arena and on the grid.  All that anybody may do to another
task's missile is to ask it to stop; only a missile that was asked to stop may be
gone from the grid.
-/

namespace AirDefense

/-- A slot of one side. -/
structure Seat where
  side : Side
  slot : Nat
deriving DecidableEq, Repr

def MissileId.seat (id : MissileId) : Seat := ⟨id.side, id.slot⟩

namespace World

/-- The slot is with a task. -/
def IsTaken (w : World) (seat : Seat) : Prop :=
  match seat.side with
  | .attacker => w.admission.chain.IsInUse seat.slot
  | .defender => w.pool.IsTaken seat.slot

/-- The slot has a missile. -/
def IsOccupied (w : World) (seat : Seat) : Prop :=
  (w.fleet.arena seat.side).IsOccupied seat.slot

def slotCapacity (w : World) : Side -> Nat
  | .attacker => w.admission.capacity
  | .defender => w.pool.capacity

/-- What every section keeps. -/
structure Sound (w : World) : Prop where
  admission : w.admission.Sound
  pool : w.pool.Sound
  arena_side : forall side, (w.fleet.arena side).side = side
  arena_capacity : forall side, (w.fleet.arena side).capacity = w.slotCapacity side
  room : w.grid.HasRoom w.settings.field.missileRadius
  taken : forall seat, w.IsOccupied seat -> w.IsTaken seat
  live : forall p id, w.grid.occupant? p = some id -> (w.fleet.find? id).isSome = true
  alone : forall p q id, w.grid.occupant? p = some id -> w.grid.occupant? q = some id -> p = q

/--
A section of the task that owns `own` has led from `w` to `w'`: the world is in
order, the lock is as it was, and all other seats are spared.
-/
structure Keeps (own : Option Seat) (w w' : World) : Prop where
  sound : w'.Sound
  lock_eq : w'.lock = w.lock
  taken : forall seat, own ≠ some seat -> w.IsTaken seat -> w'.IsTaken seat
  vacant : forall seat, own ≠ some seat -> ¬ w.IsOccupied seat -> ¬ w'.IsOccupied seat
  missile : forall id m, own ≠ some id.seat -> w.fleet.find? id = some m ->
    exists m', w'.fleet.find? id = some m' ∧ m'.cell = m.cell ∧
      (m'.deleted = false -> m.deleted = false)
  occupant : forall id p, own ≠ some id.seat -> w'.grid.occupant? p = some id ->
    w.grid.occupant? p = some id
  kept : forall id p m', own ≠ some id.seat -> w.grid.occupant? p = some id ->
    w'.fleet.find? id = some m' -> m'.deleted = false -> w'.grid.occupant? p = some id

variable {w w' : World} {id : MissileId} {m : Missile} {seat : Seat} {own : Option Seat}

theorem find?_eq_none_of_vacant (h : ¬ w.IsOccupied id.seat) : w.fleet.find? id = none :=
  Arena.find?_eq_none_of_vacant h

theorem Sound.slot_lt (h : w.Sound) (htaken : w.IsTaken seat) :
    seat.slot < (w.fleet.arena seat.side).capacity := by
  rw [h.arena_capacity]
  rcases seat with ⟨side, slot⟩
  cases side with
  | attacker =>
      rcases h.admission with ⟨free, ready, hrepresents⟩
      exact hrepresents.lt_of_isInUse htaken
  | defender =>
      rcases h.pool.chain with ⟨free, hrepresents⟩
      exact hrepresents.lt_of_isInUse htaken.1

theorem Sound.not_occupant (h : w.Sound) (hid : w.fleet.find? id = none) (p : Position) :
    w.grid.occupant? p ≠ some id := by
  intro hp
  have hlive := h.live p id hp
  rw [hid] at hlive
  cases hlive

theorem Sound.keeps_self (h : w.Sound) : w.Keeps own w :=
  { sound := h
    lock_eq := rfl
    taken := fun _ _ htaken => htaken
    vacant := fun _ _ hvacant => hvacant
    missile := fun _ m _ hid => ⟨m, hid, rfl, fun hdeleted => hdeleted⟩
    occupant := fun _ _ _ hp => hp
    kept := fun _ _ _ _ hp _ _ => hp }

theorem Keeps.weaken (h : w.Keeps none w') : w.Keeps own w' :=
  { sound := h.sound
    lock_eq := h.lock_eq
    taken := fun seat _ => h.taken seat nofun
    vacant := fun seat _ => h.vacant seat nofun
    missile := fun id m _ => h.missile id m nofun
    occupant := fun id p _ => h.occupant id p nofun
    kept := fun id p m' _ => h.kept id p m' nofun }

theorem Keeps.trans {w'' : World} (hw : w.Sound) (h : w.Keeps own w') (h' : w'.Keeps own w'') :
    w.Keeps own w'' :=
  { sound := h'.sound
    lock_eq := h'.lock_eq.trans h.lock_eq
    taken := fun seat hne htaken => h'.taken seat hne (h.taken seat hne htaken)
    vacant := fun seat hne hvacant => h'.vacant seat hne (h.vacant seat hne hvacant)
    missile := by
      intro id m hne hid
      rcases h.missile id m hne hid with ⟨m', hid', hcell', hdeleted'⟩
      rcases h'.missile id m' hne hid' with ⟨m'', hid'', hcell'', hdeleted''⟩
      exact ⟨m'', hid'', hcell''.trans hcell', fun hd => hdeleted' (hdeleted'' hd)⟩
    occupant := fun id p hne hp => h.occupant id p hne (h'.occupant id p hne hp)
    kept := by
      intro id p m'' hne hp hid'' hdeleted
      rcases Option.isSome_iff_exists.mp (hw.live p id hp) with ⟨m, hid⟩
      rcases h.missile id m hne hid with ⟨m', hid', _, _⟩
      rcases h'.missile id m' hne hid' with ⟨m₂, hid₂, _, hdeleted₂⟩
      rw [hid''] at hid₂
      injection hid₂ with hid₂
      have hbetween := hdeleted₂ (hid₂ ▸ hdeleted)
      exact h'.kept id p m'' hne (h.kept id p m' hne hp hid' hbetween) hid'' hdeleted }

theorem Keeps.relock {l l' : FieldLock} {s s' : KeyStream}
    (h : ({ w with lock := l, stream := s } : World).Keeps own w') (hlock : l' = w.lock) :
    w.Keeps own { w' with lock := l', stream := s' } :=
  { sound := { h.sound with }
    lock_eq := hlock
    taken := h.taken
    vacant := h.vacant
    missile := h.missile
    occupant := h.occupant
    kept := h.kept }

/-!
## What a section leaves alone
-/

theorem spawn?_eq_ok {side : Side} {slot : Nat} (h : w.spawn? side slot m = .ok (id, w')) :
    exists a, (w.fleet.arena side).spawn? slot m = .ok (id, a) ∧ w' = w.setArena side a := by
  rcases bind_eq_ok.mp h with ⟨⟨id', a⟩, hspawn, h⟩
  cases pure_eq_ok.mp h
  exact ⟨a, hspawn, rfl⟩

theorem vacate?_eq_ok (h : w.vacate? id = .ok (m, w')) :
    exists a, (w.fleet.arena id.side).vacate? id = .ok (m, a) ∧ w' = w.setArena id.side a := by
  rcases bind_eq_ok.mp h with ⟨⟨m', a⟩, hvacate, h⟩
  cases pure_eq_ok.mp h
  exact ⟨a, hvacate, rfl⟩

theorem grid_of_vacate? (h : w.vacate? id = .ok (m, w')) : w'.grid = w.grid := by
  rcases vacate?_eq_ok h with ⟨a, _, heq⟩
  rw [heq]
  rfl

theorem grid_of_returnSlot? {side : Side} {slot : Nat} (h : w.returnSlot? side slot = .ok w') :
    w'.grid = w.grid := by
  cases side with
  | attacker =>
      rcases bind_eq_ok.mp h with ⟨q, _, h⟩
      cases pure_eq_ok.mp h
      rfl
  | defender =>
      rcases bind_eq_ok.mp h with ⟨p, _, h⟩
      cases pure_eq_ok.mp h
      rfl

/-!
## Sections on slots
-/

theorem Sound.resupply (h : w.Sound) {q : AdmissionQueue} {p : SlotPool} (hq : q.Sound)
    (hp : p.Sound) (hadmission : q.capacity = w.admission.capacity)
    (hpool : p.capacity = w.pool.capacity)
    (htaken : forall seat, own ≠ some seat -> w.IsTaken seat ->
      ({ w with admission := q, pool := p } : World).IsTaken seat)
    (hvacant : forall seat, own = some seat -> ¬ w.IsOccupied seat) :
    w.Keeps own { w with admission := q, pool := p } :=
  { sound :=
      { h with
        admission := hq
        pool := hp
        arena_capacity := by
          intro side
          rw [h.arena_capacity]
          cases side with
          | attacker => exact hadmission.symm
          | defender => exact hpool.symm
        taken := fun seat hoccupied =>
          htaken seat (fun hown => hvacant seat hown hoccupied) (h.taken seat hoccupied) }
    lock_eq := rfl
    taken := htaken
    vacant := fun _ _ hseat => hseat
    missile := fun _ m _ hid => ⟨m, hid, rfl, fun hdeleted => hdeleted⟩
    occupant := fun _ _ _ hp => hp
    kept := fun _ _ _ _ hp _ _ => hp }

/-- What a call has done that was answered with `seat?`. -/
structure Grants (w : World) (seat? : Option Seat) (w' : World) : Prop where
  keeps : w.Keeps none w'
  takes : Takes seat? w.IsTaken w'.IsTaken
  vacant : forall seat, seat? = some seat -> ¬ w'.IsOccupied seat

theorem Sound.grants (h : w.Sound) {seat? : Option Seat} {q : AdmissionQueue} {p : SlotPool}
    (hq : q.Sound) (hp : p.Sound) (hadmission : q.capacity = w.admission.capacity)
    (hpool : p.capacity = w.pool.capacity)
    (htakes : Takes seat? w.IsTaken
      ({ w with admission := q, pool := p } : World).IsTaken) :
    w.Grants seat? { w with admission := q, pool := p } :=
  { keeps := h.resupply hq hp hadmission hpool
      (fun seat _ hseat => (htakes.2 seat).mpr (.inl hseat)) nofun
    takes := htakes
    vacant := fun seat hseat hoccupied => htakes.1 seat hseat (h.taken seat hoccupied) }

theorem Sound.grants_pool (h : w.Sound) {slot? : Option Nat} {p : SlotPool}
    (hp : w.pool.Serves slot? p) :
    w.Grants (slot?.map (Seat.mk .defender)) { w with pool := p } := by
  apply h.grants (q := w.admission) h.admission hp.sound rfl hp.capacity_eq
  constructor
  · intro seat hseat
    rcases Option.map_eq_some_iff.mp hseat with ⟨slot, hslot, heq⟩
    subst heq
    exact hp.takes.1 slot hslot
  · intro seat
    rcases seat with ⟨side, slot⟩
    cases side with
    | attacker => simp [IsTaken]
    | defender => simpa [IsTaken] using hp.takes.2 slot

theorem Sound.grants_admission (h : w.Sound) {slot? : Option Nat} {q : AdmissionQueue}
    (hq : w.admission.Serves slot? q) :
    w.Grants (slot?.map (Seat.mk .attacker)) { w with admission := q } := by
  apply h.grants (p := w.pool) hq.sound h.pool hq.capacity_eq rfl
  constructor
  · intro seat hseat
    rcases Option.map_eq_some_iff.mp hseat with ⟨slot, hslot, heq⟩
    subst heq
    exact hq.takes.1 slot hslot
  · intro seat
    rcases seat with ⟨side, slot⟩
    cases side with
    | attacker => simpa [IsTaken] using hq.takes.2 slot
    | defender => simp [IsTaken]

theorem Sound.closePool (h : w.Sound) : w.Keeps none { w with pool := w.pool.close } := by
  rcases h.pool.close with ⟨hclosed, hcapacity, _, _, hsame⟩
  apply h.resupply (q := w.admission) h.admission hclosed rfl hcapacity
  · intro seat _ hseat
    rcases seat with ⟨side, slot⟩
    cases side with
    | attacker => exact hseat
    | defender => exact (hsame slot).mpr hseat
  · intro seat hseat
    cases hseat

theorem Sound.returnSlot? (h : w.Sound) (htaken : w.IsTaken seat)
    (hvacant : ¬ w.IsOccupied seat) :
    exists w', w.returnSlot? seat.side seat.slot = .ok w' ∧ w.Keeps (some seat) w' ∧
      ¬ w'.IsTaken seat := by
  rcases seat with ⟨side, slot⟩
  have hother : forall s : Seat, some (Seat.mk side slot) = some s -> ¬ w.IsOccupied s := by
    intro s hs
    injection hs with hs
    exact hs ▸ hvacant
  cases side with
  | attacker =>
      rcases h.admission.release htaken with ⟨q, hrelease, hq, hcapacity, hstill⟩
      refine ⟨{ w with admission := q }, bind_eq_ok.mpr ⟨q, hrelease, rfl⟩, ?_, ?_⟩
      · apply h.resupply (p := w.pool) hq h.pool hcapacity rfl _ hother
        intro s hne hs
        rcases s with ⟨side, other⟩
        cases side with
        | attacker => exact (hstill other).mpr ⟨hs, fun heq => hne (by rw [heq])⟩
        | defender => exact hs
      · intro hs
        exact ((hstill slot).mp hs).2 rfl
  | defender =>
      rcases h.pool.release htaken with ⟨p, hrelease, hp, hcapacity, _, hstill⟩
      refine ⟨{ w with pool := p }, bind_eq_ok.mpr ⟨p, hrelease, rfl⟩, ?_, ?_⟩
      · apply h.resupply (q := w.admission) h.admission hp rfl hcapacity _ hother
        intro s hne hs
        rcases s with ⟨side, other⟩
        cases side with
        | attacker => exact hs
        | defender => exact (hstill other).mpr ⟨hs, fun heq => hne (by rw [heq])⟩
      · intro hs
        exact ((hstill slot).mp hs).2 rfl

theorem Sound.isTaken_returnSlot? (h : w.Sound) (htaken : w.IsTaken seat)
    (hreturn : w.returnSlot? seat.side seat.slot = .ok w') (other : Seat) :
    w'.IsTaken other ↔ w.IsTaken other ∧ other ≠ seat := by
  rcases seat with ⟨side, slot⟩
  rcases other with ⟨t, i⟩
  cases side with
  | attacker =>
      rcases h.admission.release htaken with ⟨q, hrelease, _, _, hstill⟩
      rcases bind_eq_ok.mp hreturn with ⟨r, hr, heq⟩
      cases hrelease.symm.trans hr
      cases pure_eq_ok.mp heq
      cases t with
      | attacker => simpa [IsTaken] using hstill i
      | defender => simp [IsTaken]
  | defender =>
      rcases h.pool.release htaken with ⟨p, hrelease, _, _, _, hstill⟩
      rcases bind_eq_ok.mp hreturn with ⟨r, hr, heq⟩
      cases hrelease.symm.trans hr
      cases pure_eq_ok.mp heq
      cases t with
      | attacker => simp [IsTaken]
      | defender => simpa [IsTaken] using hstill i

/-!
## Sections on an arena
-/

variable {side : Side} {a : Arena}

theorem isOccupied_setArena :
    (w.setArena side a).IsOccupied seat ↔
      if seat.side = side then a.IsOccupied seat.slot else w.IsOccupied seat := by
  unfold IsOccupied setArena
  simp only [Fleet.arena_setArena]
  split <;> exact Iff.rfl

theorem Sound.of_setArena (h : w.Sound) (hside : a.side = side)
    (hcapacity : a.capacity = (w.fleet.arena side).capacity)
    (htaken : forall slot, a.IsOccupied slot -> w.IsTaken ⟨side, slot⟩)
    (hlive : forall p id, id.side = side -> w.grid.occupant? p = some id ->
      (a.find? id).isSome = true) :
    (w.setArena side a).Sound :=
  { h with
    arena_side := by
      intro t
      rw [World.setArena, Fleet.arena_setArena]
      split
      · rename_i ht
        exact hside.trans ht.symm
      · exact h.arena_side t
    arena_capacity := by
      intro t
      rw [World.setArena, Fleet.arena_setArena]
      split
      · rename_i ht
        rw [hcapacity, ← ht]
        exact h.arena_capacity t
      · exact h.arena_capacity t
    taken := by
      intro seat hoccupied
      rw [isOccupied_setArena] at hoccupied
      split at hoccupied
      · rename_i hseat
        rcases seat with ⟨t, slot⟩
        subst hseat
        exact htaken slot hoccupied
      · exact h.taken seat hoccupied
    live := by
      intro p id hp
      rw [World.setArena, Fleet.find?_setArena]
      split
      · rename_i hid
        exact hlive p id hid hp
      · exact h.live p id hp }

theorem Sound.setArena (h : w.Sound) (hside : a.side = side)
    (hcapacity : a.capacity = (w.fleet.arena side).capacity)
    (htaken : forall slot, a.IsOccupied slot -> w.IsTaken ⟨side, slot⟩)
    (hlive : forall p id, id.side = side -> w.grid.occupant? p = some id ->
      (a.find? id).isSome = true)
    (hvacant : forall slot, own ≠ some ⟨side, slot⟩ ->
      ¬ (w.fleet.arena side).IsOccupied slot -> ¬ a.IsOccupied slot)
    (hmissile : forall id m, id.side = side -> own ≠ some id.seat ->
      (w.fleet.arena side).find? id = some m ->
      exists m', a.find? id = some m' ∧ m'.cell = m.cell ∧
        (m'.deleted = false -> m.deleted = false)) :
    w.Keeps own (w.setArena side a) :=
  { sound := h.of_setArena hside hcapacity htaken hlive
    lock_eq := rfl
    taken := fun _ _ hseat => hseat
    vacant := by
      intro seat hne hseat
      rw [isOccupied_setArena]
      split
      · rename_i heq
        rcases seat with ⟨t, slot⟩
        subst heq
        exact hvacant slot hne hseat
      · exact hseat
    missile := by
      intro id m hne hid
      rw [World.setArena, Fleet.find?_setArena]
      split
      · rename_i heq
        subst heq
        exact hmissile id m rfl hne hid
      · exact ⟨m, hid, rfl, fun hdeleted => hdeleted⟩
    occupant := fun _ _ _ hp => hp
    kept := fun _ _ _ _ hp _ _ => hp }

theorem Sound.spawn? (h : w.Sound) (hm : m.side = seat.side) (htaken : w.IsTaken seat)
    (hvacant : ¬ w.IsOccupied seat) :
    exists id w', w.spawn? seat.side seat.slot m = .ok (id, w') ∧ w.Keeps (some seat) w' ∧
      id.seat = seat ∧ w'.IsTaken seat ∧ w'.fleet.find? id = some m ∧
      forall p, w'.grid.occupant? p ≠ some id := by
  rcases seat with ⟨side, slot⟩
  rcases Arena.spawn?_of_vacant (hm.trans (h.arena_side side).symm) (h.slot_lt htaken) hvacant
    with ⟨⟨id, a⟩, hspawn⟩
  rcases Arena.spawn?_eq_ok hspawn with ⟨hid, hslot, haside, hcapacity, hoccupied, hfind⟩
  rw [h.arena_side] at hid haside
  have hseat : id.seat = ⟨side, slot⟩ := by rw [MissileId.seat, hid, hslot]
  have hnone : (w.fleet.arena side).find? id = none :=
    Arena.find?_eq_none_of_vacant (hslot ▸ hvacant)
  have hgone : w.fleet.find? id = none := by rw [Fleet.find?, hid, hnone]
  have hold : forall other m', (w.fleet.arena side).find? other = some m' ->
      a.find? other = some m' := by
    intro other m' hother
    rw [hfind, if_neg fun heq => by rw [heq, hnone] at hother; cases hother]
    exact hother
  refine ⟨id, w.setArena side a, bind_eq_ok.mpr ⟨(id, a), hspawn, rfl⟩, ?_, hseat, htaken, ?_,
    h.not_occupant hgone⟩
  · apply h.setArena haside hcapacity
    · intro i hi
      rcases (hoccupied i).mp hi with hbefore | heq
      · exact h.taken ⟨side, i⟩ hbefore
      · exact heq ▸ htaken
    · intro p other hother hp
      rcases Option.isSome_iff_exists.mp (h.live p other hp) with ⟨m', hm'⟩
      rw [Fleet.find?, hother] at hm'
      rw [hold other m' hm']
      rfl
    · intro i hne hi hnow
      rcases (hoccupied i).mp hnow with hbefore | heq
      · exact hi hbefore
      · exact hne (by rw [heq])
    · intro other m' _ _ hother
      exact ⟨m', hold other m' hother, rfl, fun hdeleted => hdeleted⟩
  · rw [World.setArena, Fleet.find?_setArena, if_pos hid, hfind, if_pos rfl]

theorem Sound.vacate? (h : w.Sound) (hid : w.fleet.find? id = some m)
    (hoff : forall p, w.grid.occupant? p ≠ some id) :
    exists w', w.vacate? id = .ok (m, w') ∧ w.Keeps (some id.seat) w' ∧
      (w'.IsTaken id.seat ↔ w.IsTaken id.seat) ∧ ¬ w'.IsOccupied id.seat := by
  have hvacate := Arena.vacate?_of_find? hid
  have hstay : forall other m', other.side = id.side -> some id.seat ≠ some other.seat ->
      (w.fleet.arena id.side).find? other = some m' ->
      ((w.fleet.arena id.side).putMissile id.slot none).find? other = some m' := by
    intro other m' _ hne hother
    rw [Arena.find?_putMissile hid, if_neg fun heq => hne (by rw [heq])]
    exact hother
  refine ⟨w.setArena id.side ((w.fleet.arena id.side).putMissile id.slot none),
    bind_eq_ok.mpr ⟨_, hvacate, rfl⟩, ?_, Iff.rfl, ?_⟩
  · have hside : ((w.fleet.arena id.side).putMissile id.slot none).side = id.side :=
      h.arena_side id.side
    apply h.setArena hside (Arena.capacity_putMissile none)
    · intro i hi
      exact h.taken ⟨id.side, i⟩ ((Arena.isOccupied_vacate hid).mp hi).1
    · intro p other hother hp
      rcases Option.isSome_iff_exists.mp (h.live p other hp) with ⟨m', hm'⟩
      rw [Fleet.find?, hother] at hm'
      have hne : other ≠ id := fun heq => hoff p (heq ▸ hp)
      rw [Arena.find?_putMissile hid, if_neg hne, hm']
      rfl
    · intro i _ hi hnow
      exact hi ((Arena.isOccupied_vacate hid).mp hnow).1
    · intro other m' hother hne hm'
      exact ⟨m', hstay other m' hother hne hm', rfl, fun hdeleted => hdeleted⟩
  · rw [isOccupied_setArena]
    simp only [MissileId.seat, if_true]
    intro hnow
    exact ((Arena.isOccupied_vacate hid).mp hnow).2 rfl

/--
A missile may be changed by its owner; by others only so that it stays in its cell
and goes on being asked to stop.
-/
theorem Sound.change (h : w.Sound) (own : Option Seat) (id : MissileId)
    (change : Missile -> Missile)
    (hchange : own = some id.seat ∨ forall m, (change m).cell = m.cell ∧
      ((change m).deleted = false -> m.deleted = false)) :
    w.Keeps own (w.setArena id.side ((w.fleet.arena id.side).update id change)) := by
  apply h.setArena ((Arena.side_update change).trans (h.arena_side id.side))
    (Arena.capacity_update change)
  · intro i hi
    exact h.taken ⟨id.side, i⟩ ((Arena.isOccupied_update change).mp hi)
  · intro p other hother hp
    have hlive := h.live p other hp
    rw [Fleet.find?, hother] at hlive
    rw [Arena.find?_update]
    split
    · rename_i heq
      subst heq
      rw [Option.isSome_map]
      exact hlive
    · exact hlive
  · intro i _ hi hnow
    exact hi ((Arena.isOccupied_update change).mp hnow)
  · intro other m _ hne hother
    rw [Arena.find?_update]
    by_cases heq : other = id
    · subst heq
      rw [if_pos rfl, hother]
      rcases hchange with hown | hkeeps
      · exact absurd hown hne
      · exact ⟨change m, rfl, hkeeps m⟩
    · rw [if_neg heq]
      exact ⟨m, hother, rfl, fun hdeleted => hdeleted⟩

theorem Sound.markDeleted (h : w.Sound) (id : MissileId) : w.Keeps none (w.markDeleted id) :=
  h.change none id _ (.inr fun _ => ⟨rfl, fun hdeleted => by cases hdeleted⟩)

theorem deleted_of_markDeleted (h : (w.markDeleted id).fleet.find? id = some m) :
    m.deleted = true := by
  rw [World.markDeleted, Fleet.markDeleted, Arena.markDeleted, Fleet.find?_setArena_update,
    if_pos rfl] at h
  rcases Option.map_eq_some_iff.mp h with ⟨m', _, hm'⟩
  rw [← hm']

/-!
## Sections on the grid
-/

variable {g : Grid}

theorem Sound.regrid (h : w.Sound) (hroom : g.HasRoom w.settings.field.missileRadius)
    (hlive : forall p id, g.occupant? p = some id -> (w.fleet.find? id).isSome = true)
    (halone : forall p q id, g.occupant? p = some id -> g.occupant? q = some id -> p = q)
    (hoccupant : forall id p, own ≠ some id.seat -> g.occupant? p = some id ->
      w.grid.occupant? p = some id)
    (hkept : forall id p m, own ≠ some id.seat -> w.grid.occupant? p = some id ->
      w.fleet.find? id = some m -> m.deleted = false -> g.occupant? p = some id) :
    w.Keeps own { w with grid := g } :=
  { sound := { h with room := hroom, live := hlive, alone := halone }
    lock_eq := rfl
    taken := fun _ _ hseat => hseat
    vacant := fun _ _ hseat => hseat
    missile := fun _ m _ hid => ⟨m, hid, rfl, fun hdeleted => hdeleted⟩
    occupant := hoccupant
    kept := hkept }

theorem Sound.thin (h : w.Sound) (hwidth : g.width = w.grid.width)
    (hheight : g.height = w.grid.height)
    (hsub : forall p id, g.occupant? p = some id -> w.grid.occupant? p = some id)
    (hkept : forall id p m, own ≠ some id.seat -> w.grid.occupant? p = some id ->
      w.fleet.find? id = some m -> m.deleted = false -> g.occupant? p = some id) :
    w.Keeps own { w with grid := g } :=
  h.regrid (h.room.congr hwidth hheight) (fun p id hp => h.live p id (hsub p id hp))
    (fun p q id hp hq => h.alone p q id (hsub p id hp) (hsub q id hq))
    (fun id p _ hp => hsub p id hp) hkept

theorem Sound.clear (h : w.Sound) (p : Position) (id : MissileId) :
    w.Keeps (some id.seat) { w with grid := (w.grid.clear p id).2 } := by
  apply h.thin Grid.width_clear Grid.height_clear
  · intro q other hq
    rw [Grid.occupant?_clear] at hq
    split at hq
    · cases hq
    · exact hq
  · intro other q m hne hq _ _
    have hother : other ≠ id := fun heq => hne (by rw [heq])
    exact (Grid.occupant?_clear_other hother).mpr hq

theorem Sound.put (h : w.Sound) {p : Position} {c : Cell} (hput : w.grid.put? p c = .ok g)
    (hc : c.occupant? = some id) (hid : w.fleet.find? id = some m)
    (hoff : forall q, w.grid.occupant? q ≠ some id)
    (hfree : forall other, w.grid.occupant? p ≠ some other) :
    w.Keeps (some id.seat) { w with grid := g } ∧
      forall q, g.occupant? q = some id ↔ q = p := by
  have hcells := fun q => Grid.occupant?_put (q := q) hput
  have hmoved : forall q, g.occupant? q = some id ↔ q = p := by
    intro q
    rw [hcells]
    split
    · rename_i hq
      simp [hc, hq]
    · rename_i hq
      simp [hq, hoff q]
  have hother : forall q other, other ≠ id ->
      (g.occupant? q = some other ↔ w.grid.occupant? q = some other) := by
    intro q other hne
    rw [hcells]
    split
    · rename_i hq
      subst hq
      simp [hc, Ne.symm hne, hfree other]
    · exact Iff.rfl
  rcases Grid.put?_eq_ok hput with ⟨hwidth, hheight⟩
  refine ⟨?_, hmoved⟩
  apply h.regrid (h.room.congr hwidth hheight)
  · intro q other hq
    by_cases heq : other = id
    · rw [heq, hid]
      rfl
    · exact h.live q other ((hother q other heq).mp hq)
  · intro q r other hq hr
    by_cases heq : other = id
    · subst heq
      rw [(hmoved q).mp hq, (hmoved r).mp hr]
    · exact h.alone q r other ((hother q other heq).mp hq) ((hother r other heq).mp hr)
  · intro other q hne hq
    exact (hother q other fun heq => hne (by rw [heq])).mp hq
  · intro other q _ hne hq _ _
    exact (hother q other fun heq => hne (by rw [heq])).mpr hq

/-- A collision takes a missile off the grid only as it asks that missile to stop. -/
theorem Sound.collide (h : w.Sound) {mover : MissileId} {p : Position} {radius : Int}
    {c : Collision} {f : Fleet}
    (hresolve : w.grid.resolve? w.fleet mover p radius = .ok (some c, g, f)) :
    w.Keeps none { w with grid := g, fleet := f } := by
  rcases Grid.resolve?_collided hresolve with ⟨hwidth, hheight, hsame | hstruck⟩
  · rcases hsame with ⟨hf, hcells⟩
    subst hf
    apply h.thin hwidth hheight
    · intro q id hq
      rw [← hcells]
      exact hq
    · intro id q m _ hq _ _
      rw [hcells]
      exact hq
  · rcases hstruck with ⟨spot, victim, hspot, _, hf, hcells⟩
    subst hf
    have hmarked := h.markDeleted victim
    apply hmarked.trans h
    apply hmarked.sound.thin hwidth hheight
    · intro q id hq
      rw [hcells] at hq
      split at hq
      · cases hq
      · exact hq
    · intro id q m _ hq hid hdeleted
      rw [hcells]
      split
      · rename_i heq
        subst heq
        have hvictim : victim = id := Option.some.inj (hspot.symm.trans hq)
        subst hvictim
        rw [deleted_of_markDeleted hid] at hdeleted
        cases hdeleted
      · exact hq

theorem Sound.stamp (h : w.Sound) (p : Position) (interceptor : MissileId) :
    w.Keeps none { w with grid := w.grid.stamp p interceptor } := by
  apply h.thin Grid.width_stamp Grid.height_stamp
  · intro q id hq
    rw [Grid.occupant?_stamp] at hq
    exact hq
  · intro id q m _ hq _ _
    rw [Grid.occupant?_stamp]
    exact hq

theorem Sound.assign (h : w.Sound) {interceptor : MissileId}
    (hside : interceptor.side = .defender) (target : MissileId) :
    w.Keeps none
      { w with
        fleet :=
          { w.fleet with defenders := w.fleet.defenders.assign interceptor (some target) } } := by
  have hassigned := h.change none interceptor (fun m => { m with target := some target })
    (.inr fun _ => ⟨rfl, fun hdeleted => hdeleted⟩)
  rwa [hside] at hassigned

theorem Sound.claim (h : w.Sound) {interceptor : MissileId} (hside : interceptor.side = .defender)
    {claim : Claim} {f : Fleet}
    (hclaim : Claim.take w.grid w.fleet interceptor = (some claim, g, f)) :
    w.Keeps none { w with grid := g, fleet := f } := by
  unfold Claim.take at hclaim
  cases hfirst : Claim.first? w.grid w.fleet with
  | none =>
      rw [hfirst] at hclaim
      cases hclaim
  | some first =>
      rw [hfirst] at hclaim
      injection hclaim with _ hclaim
      injection hclaim with hg hf
      subst hg hf
      have hassigned := h.assign hside first.target
      exact hassigned.trans h (hassigned.sound.stamp first.position interceptor)

theorem inGrid?_enter (act : World -> α × World) (t : Tier) :
    ((w.lock.enter t).1 ≠ none ∧ w.inGrid? t act = none) ∨
      ((w.lock.enter t).1 = none ∧ exists held lock,
        w.inGrid? t act = some ((act { w with lock := held }).1,
          { (act { w with lock := held }).2 with lock })) := by
  unfold inGrid?
  cases henter : w.lock.enter t with
  | mk ticket held =>
      cases ticket with
      | some ticket => exact .inl ⟨nofun, rfl⟩
      | none =>
          refine .inr ⟨rfl, held, ?_⟩
          simp only
          split
          · exact ⟨_, rfl⟩
          · exact ⟨_, rfl⟩

theorem inGrid?_cases (act : World -> α × World) (t : Tier) (hquiet : w.lock.IsQuiet) :
    ((w.lock.enter t).1 ≠ none ∧ w.inGrid? t act = none) ∨
      (w.lock.holders = 0 ∧ exists held,
        ((act { w with lock := held }).2.lock = held ->
          w.inGrid? t act = some ((act { w with lock := held }).1,
            { (act { w with lock := held }).2 with lock := w.lock }))) := by
  unfold inGrid?
  cases henter : w.lock.enter t with
  | mk ticket held =>
      cases ticket with
      | some ticket => exact .inl ⟨nofun, rfl⟩
      | none =>
          refine .inr ⟨(FieldLock.enter_eq_none henter).1, held, fun hlock => ?_⟩
          simp only [hlock, hquiet.release?_of_enter henter t]

end World
end AirDefense

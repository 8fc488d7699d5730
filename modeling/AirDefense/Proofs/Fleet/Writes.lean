import AirDefense.Proofs.Faults
import AirDefense.Proofs.Fleet.Names

/-!
# Arenas in single writes

A missile comes or goes, one read or write after the other.  What was written stays when a
call fails, and a slot is emptied before it is known whether it had a missile; still, no call
that fails leaves a trace.  Who goes is told by slot and count alone, so that a name of the
other side empties a slot that it does not stand for.
-/

namespace AirDefense

/-- Reads and writes of an arena; what was written stays when one of them fails. -/
abbrev ArenaWrites := EStateM Fault Arena

namespace ArenaWrites

def slotAt (slot : Nat) : ArenaWrites ArenaSlot := do
  let a <- get
  match a.slots[slot]? with
  | some s => return s
  | none => throw (.noSuchSlot a.side slot)

def put (slot : Nat) (missile : Option Missile) : ArenaWrites Unit :=
  modify fun a => a.putMissile slot missile

def setGeneration (slot : Nat) (generation : UInt32) : ArenaWrites Unit :=
  modify fun a => { a with slots := a.slots.modify slot fun s => { s with generation } }

def spawn (slot : Nat) (m : Missile) : ArenaWrites MissileId := do
  let side := (<- get).side
  if m.side ≠ side then throw .wrongArena
  else
    let s <- slotAt slot
    if s.missile.isSome then throw (.slotOccupied side slot)
    else
      setGeneration slot (s.generation + 1)
      put slot (some m)
      return ⟨side, slot, s.generation + 1⟩

def take (slot : Nat) : ArenaWrites (Option Missile) := do
  let s <- slotAt slot
  put slot none
  return s.missile

def vacate (id : MissileId) : ArenaWrites Missile := do
  let s <- slotAt id.slot
  if s.generation ≠ id.generation then throw (.vacatedAfterReuse id)
  else
    match <- take id.slot with
    | some m => return m
    | none => throw (.vacatedTwice id)

variable {a : Arena} {s : ArenaSlot} {slot : Nat}

theorem slotAt_run (h : a.slots[slot]? = some s) : (slotAt slot).run a = .ok s a := by
  unfold slotAt
  rw [run_get_bind, h]
  rfl

theorem slotAt_run_none (h : a.slots[slot]? = none) :
    (slotAt slot).run a = .error (.noSuchSlot a.side slot) a := by
  unfold slotAt
  rw [run_get_bind, h]
  rfl

theorem take_run (h : a.slots[slot]? = some s) :
    (take slot).run a = .ok s.missile (a.putMissile slot none) := by
  unfold take
  rw [run_bind_ok (slotAt_run h), put, run_modify_bind]
  rfl

theorem putMissile_none_eq_self (h : a.slots[slot]? = some s) (hempty : s.missile = none) :
    a.putMissile slot none = a := by
  refine Arena.ext_of_slots rfl fun i => ?_
  rw [Arena.putMissile, Array.getElem?_modify]
  split
  · rename_i hi
    rw [← hi, h, Option.map_some, ← hempty]
  · rfl

theorem putMissile_modify (a : Arena) (slot : Nat) (generation : UInt32) (m : Missile) :
    Arena.putMissile { a with slots := a.slots.modify slot fun s => { s with generation } } slot
        (some m) =
      { a with slots := a.slots.setIfInBounds slot ⟨generation, some m⟩ } := by
  refine Arena.ext_of_slots rfl fun i => ?_
  simp only [Arena.putMissile, Array.getElem?_modify, Array.getElem?_setIfInBounds]
  by_cases hi : slot = i
  · simp only [hi, if_true]
    cases hs : a.slots[i]? with
    | none => simp [Array.getElem?_eq_none_iff.mp hs]
    | some s => simp [(Array.getElem?_eq_some_iff.mp hs).1]
  · simp only [hi, if_false]

theorem spawn_run (a : Arena) (slot : Nat) (m : Missile) :
    (spawn slot m).run a =
      match a.spawn? slot m with
      | .ok (id, b) => .ok id b
      | .error fault => .error fault a := by
  unfold spawn Arena.spawn?
  rw [run_get_bind]
  by_cases hside : m.side = a.side
  · simp only [hside, ne_eq, not_true, if_false]
    cases hs : a.slots[slot]? with
    | none =>
        rw [run_bind_error (slotAt_run_none hs)]
    | some s =>
        rw [run_bind_ok (slotAt_run hs)]
        by_cases hmissile : s.missile.isSome = true
        · simp only [hmissile, if_true]
          rfl
        · simp only [hmissile, Bool.false_eq_true, if_false, setGeneration, put]
          rw [run_modify_bind, run_modify_bind, putMissile_modify]
          rfl
  · simp only [ne_eq, hside, not_false_iff, if_true]
    rfl

theorem vacate_run (a : Arena) (id : MissileId) :
    (vacate id).run a =
      match a.vacate? id with
      | .ok (m, b) => .ok m b
      | .error fault => .error fault a := by
  unfold vacate Arena.vacate?
  cases hs : a.slots[id.slot]? with
  | none => rw [run_bind_error (slotAt_run_none hs)]
  | some s =>
      rw [run_bind_ok (slotAt_run hs)]
      by_cases hgeneration : s.generation = id.generation
      · simp only [hgeneration, ne_eq, not_true, if_false]
        rw [run_bind_ok (take_run hs)]
        cases hmissile : s.missile with
        | none =>
            rw [putMissile_none_eq_self hs hmissile]
            rfl
        | some m => rfl
      · simp only [ne_eq, hgeneration, not_false_iff, if_true]
        rfl

/-!
## Who goes
-/

variable {b : Arena} {id : MissileId} {m : Missile} {fault : Fault}

theorem vacate_eq_ok_iff :
    (vacate id).run a = .ok m b ↔
      a.find? { id with side := a.side } = some m ∧ b = a.putMissile id.slot none := by
  rw [vacate_run, ← Arena.vacate?_eq_ok_iff]
  cases a.vacate? id with
  | error fault => simp
  | ok r => simp [Prod.ext_iff]

theorem vacate_eq_error (h : (vacate id).run a = .error fault b) : b = a := by
  rw [vacate_run] at h
  cases hvacate : a.vacate? id with
  | error fault' =>
      rw [hvacate] at h
      injection h with _ hb
      exact hb.symm
  | ok r => simp [hvacate] at h

/--
A call takes a missile just when slot and count name one, and then empties just its slot; in
every other case the arena stays as it is, slot by slot.  A name of the arena's own side names
by slot and count what it stands for.  A name of the other side stands for nobody, and takes
the missile in its slot as well.
-/
theorem vacate_takes_what_slot_and_count_name (a : Arena) (id : MissileId) :
    let own : MissileId := { id with side := a.side }
    ((exists m b, (vacate id).run a = .ok m b) ↔ a.isLive own = true) ∧
      (forall m b, (vacate id).run a = .ok m b ->
        a.find? own = some m ∧ b.side = a.side ∧
          forall i, b.slots[i]? =
            if i = id.slot then some ⟨id.generation, none⟩ else a.slots[i]?) ∧
      (forall fault b, (vacate id).run a = .error fault b -> b = a) ∧
      (id.side = a.side ->
        ((exists m b, (vacate id).run a = .ok m b) ↔ a.isLive id = true)) := by
  intro own
  have htakes : (exists m b, (vacate id).run a = .ok m b) ↔ a.isLive own = true := by
    simp only [vacate_eq_ok_iff, exists_and_left, exists_eq, and_true]
    exact Option.isSome_iff_exists.symm
  refine ⟨htakes, fun m b h => ?_, fun fault b h => vacate_eq_error h, fun hside => ?_⟩
  · rcases vacate_eq_ok_iff.mp h with ⟨hfind, hb⟩
    rw [hb]
    exact ⟨hfind, rfl, fun i => Arena.slots_putMissile hfind none⟩
  · rwa [show own = id by simp only [own, ← hside]] at htakes

/-- An interceptor's name takes the attacker out of its slot. -/
theorem vacate_by_other_side :
    let glider := Missile.launchedAt .attacker .origin (Single.ofInt 0) (Single.ofInt 90)
    let stranger : MissileId := ⟨.defender, 0, 1⟩
    exists a, (spawn 0 glider).run (.ofCapacity .attacker 1) = .ok ⟨.attacker, 0, 1⟩ a ∧
      a.isLive stranger = false ∧ a.isLive ⟨.attacker, 0, 1⟩ = true ∧
      (vacate stranger).run a = .ok glider ⟨.attacker, #[⟨1, none⟩]⟩ := by
  intro glider stranger
  exact ⟨⟨.attacker, #[⟨1, some glider⟩]⟩, rfl, rfl, rfl, rfl⟩

end ArenaWrites
end AirDefense

import AirDefense.Fleet.Arena

/-!
# Names and slots of an arena

An arena shows in two ways: which missile a name stands for, and which slots have
a missile.  Each operation is described by what it does to the two.
-/

namespace AirDefense
namespace Arena

variable {a b : Arena} {id other : MissileId} {m : Missile} {slot i : Nat}

/-- The slot has a missile. -/
def IsOccupied (a : Arena) (slot : Nat) : Prop :=
  ((a.slots[slot]?).bind ArenaSlot.missile).isSome = true

/-!
## Names
-/

theorem find?_eq_some_iff :
    a.find? id = some m ↔
      id.side = a.side ∧ a.slots[id.slot]? = some ⟨id.generation, some m⟩ := by
  unfold find?
  by_cases hside : id.side = a.side
  · rw [if_pos hside]
    cases hslot : a.slots[id.slot]? with
    | none => simp
    | some s =>
        rcases s with ⟨generation, missile⟩
        by_cases hgeneration : generation = id.generation
        · simp [hside, hgeneration]
        · simp [hgeneration]
  · rw [if_neg hside]
    simp [hside]

theorem isOccupied_of_find? (h : a.find? id = some m) : a.IsOccupied id.slot := by
  rw [IsOccupied, (find?_eq_some_iff.mp h).2]
  rfl

theorem find?_eq_none_of_vacant (h : ¬ a.IsOccupied id.slot) : a.find? id = none := by
  cases hfind : a.find? id with
  | none => rfl
  | some m => exact absurd (isOccupied_of_find? hfind) h

theorem eq_of_find? {m' : Missile} (h : a.find? id = some m) (hother : a.find? other = some m')
    (hslot : other.slot = id.slot) : other = id := by
  rcases find?_eq_some_iff.mp h with ⟨hside, hs⟩
  rcases find?_eq_some_iff.mp hother with ⟨hside', hs'⟩
  rw [hslot, hs] at hs'
  injection hs' with hs'
  injection hs' with hgeneration _
  rcases id with ⟨side, slot, generation⟩
  rcases other with ⟨side', slot', generation'⟩
  simp only at hside hside' hslot hgeneration
  rw [hside, hside', hslot, hgeneration]

theorem isActive_iff :
    a.isActive id = true ↔ exists m, a.find? id = some m ∧ m.deleted = false := by
  simp [isActive, Option.any_eq_true]

theorem mem_liveIds : id ∈ a.liveIds ↔ (a.find? id).isSome = true := by
  rw [Option.isSome_iff_exists]
  simp only [liveIds, List.mem_filterMap, List.mem_range, find?_eq_some_iff]
  constructor
  · rintro ⟨slot, _, hid⟩
    cases hs : a.slots[slot]? with
    | none =>
        rw [hs] at hid
        cases hid
    | some s =>
        rw [hs] at hid
        rcases Option.map_eq_some_iff.mp hid with ⟨m, hm, heq⟩
        subst heq
        refine ⟨m, rfl, ?_⟩
        rw [hs, ← hm]
  · rintro ⟨m, hside, hs⟩
    refine ⟨id.slot, (Array.getElem?_eq_some_iff.mp hs).1, ?_⟩
    simp only [hs, Option.map_some, ← hside]

theorem ext_of_slots (hside : b.side = a.side)
    (hslots : forall i : Nat, b.slots[i]? = a.slots[i]?) : b = a := by
  rcases a with ⟨side, slots⟩
  rcases b with ⟨side', slots'⟩
  rw [show side' = side from hside, show slots' = slots from Array.ext_getElem? hslots]

/-!
## Changes to one slot
-/

theorem find?_replace {missile : Option Missile} (hside : b.side = a.side)
    (hid : id.side = a.side)
    (hslots : forall i, b.slots[i]? =
      if i = id.slot then some ⟨id.generation, missile⟩ else a.slots[i]?)
    (hgone : forall other, other ≠ id -> other.slot = id.slot -> a.find? other = none) :
    b.find? other = if other = id then missile else a.find? other := by
  apply Option.ext
  intro m
  rw [find?_eq_some_iff, hslots, hside]
  by_cases heq : other = id
  · simp [heq, hid]
  · rw [if_neg heq]
    by_cases hsame : other.slot = id.slot
    · rw [if_pos hsame, hgone other heq hsame]
      constructor
      · rintro ⟨hother, hs⟩
        injection hs with hs
        injection hs with hgeneration _
        apply absurd _ heq
        rcases id with ⟨side, slot, generation⟩
        rcases other with ⟨side', slot', generation'⟩
        simp only at hid hother hsame hgeneration
        rw [hid, hother, hsame, hgeneration]
      · intro hnone
        cases hnone
    · rw [if_neg hsame, find?_eq_some_iff]

theorem isOccupied_replace {missile : Option Missile}
    (hslots : forall i, b.slots[i]? =
      if i = slot then some ⟨id.generation, missile⟩ else a.slots[i]?) :
    b.IsOccupied i ↔ if i = slot then missile.isSome = true else a.IsOccupied i := by
  unfold IsOccupied
  rw [hslots]
  by_cases hi : i = slot
  · simp [hi]
  · simp [hi]

@[simp] theorem capacity_putMissile (missile : Option Missile) :
    (a.putMissile slot missile).capacity = a.capacity := by
  simp [putMissile, capacity]

theorem slots_putMissile (h : a.find? id = some m) (missile : Option Missile) :
    (a.putMissile id.slot missile).slots[i]? =
      if i = id.slot then some ⟨id.generation, missile⟩ else a.slots[i]? := by
  unfold putMissile
  rw [Array.getElem?_modify]
  by_cases hi : i = id.slot
  · simp [hi, (find?_eq_some_iff.mp h).2]
  · simp [hi, Ne.symm hi]

theorem find?_putMissile (h : a.find? id = some m) (missile : Option Missile) :
    (a.putMissile id.slot missile).find? other =
      if other = id then missile else a.find? other := by
  have hside : (a.putMissile id.slot missile).side = a.side := rfl
  apply find?_replace hside (find?_eq_some_iff.mp h).1 fun i => slots_putMissile h missile
  intro other hne hslot
  cases hother : a.find? other with
  | none => rfl
  | some m' => exact absurd (eq_of_find? h hother hslot) hne

/-!
## Changes to one missile
-/

theorem update_eq_putMissile (h : a.find? id = some m) (f : Missile -> Missile) :
    a.update id f = a.putMissile id.slot (some (f m)) := by
  simp only [update, h]

theorem update_eq_self (h : a.find? id = none) (f : Missile -> Missile) : a.update id f = a := by
  simp only [update, h]

@[simp] theorem side_update (f : Missile -> Missile) : (a.update id f).side = a.side := by
  unfold update
  split <;> rfl

@[simp] theorem capacity_update (f : Missile -> Missile) :
    (a.update id f).capacity = a.capacity := by
  unfold update
  split
  · exact capacity_putMissile _
  · rfl

theorem find?_update (f : Missile -> Missile) :
    (a.update id f).find? other = if other = id then (a.find? id).map f else a.find? other := by
  cases hid : a.find? id with
  | none =>
      rw [update_eq_self hid]
      split
      · rename_i heq
        rw [heq, hid]
        rfl
      · rfl
  | some m =>
      rw [update_eq_putMissile hid, find?_putMissile hid]
      rfl

@[simp] theorem isOccupied_update (f : Missile -> Missile) :
    (a.update id f).IsOccupied i ↔ a.IsOccupied i := by
  cases hid : a.find? id with
  | none => rw [update_eq_self hid]
  | some m =>
      rw [update_eq_putMissile hid, isOccupied_replace fun i => slots_putMissile hid _]
      split
      · rename_i hi
        simp [hi, isOccupied_of_find? hid]
      · exact Iff.rfl

theorem advance_eq_some {dt : Float32} {leg : Leg} (h : a.advance id dt = some (leg, b)) :
    exists m, a.find? id = some m ∧ m.deleted = false ∧
      leg = ⟨m.cell, (m.fly dt).cell⟩ ∧ b = a.update id fun m => m.fly dt := by
  unfold advance at h
  cases hid : a.find? id with
  | none =>
      rw [hid] at h
      cases h
  | some m =>
      simp only [hid] at h
      split at h
      · cases h
      · rename_i hdeleted
        injection h with h
        injection h with hleg hb
        refine ⟨m, rfl, by simpa using hdeleted, hleg.symm, ?_⟩
        rw [update_eq_putMissile hid, hb]

/-!
## Filling and emptying a slot
-/

theorem spawn?_of_vacant (hside : m.side = a.side) (hslot : slot < a.capacity)
    (hvacant : ¬ a.IsOccupied slot) : exists r, a.spawn? slot m = .ok r := by
  have hs : a.slots[slot]? = some a.slots[slot] := Array.getElem?_eq_getElem hslot
  have hmissile : a.slots[slot].missile.isSome = false := by
    simpa [IsOccupied, hs] using hvacant
  unfold spawn?
  rw [if_neg (by simp [hside])]
  simp only [hs, hmissile]
  exact ⟨_, rfl⟩

/-- A slot that takes a missile was empty; it has counted the missile, and that is its name. -/
theorem spawn?_cases (h : a.spawn? slot m = .ok (id, b)) :
    exists s, a.slots[slot]? = some s ∧ s.missile.isSome = false ∧
      id = ⟨a.side, slot, s.generation + 1⟩ ∧
      b = { a with slots := a.slots.setIfInBounds slot ⟨s.generation + 1, some m⟩ } := by
  unfold spawn? at h
  split at h
  · cases h
  · cases hs : a.slots[slot]? with
    | none =>
        simp only [hs] at h
        cases h
    | some s =>
        simp only [hs] at h
        split at h
        · cases h
        · rename_i hmissile
          injection h with h
          injection h with hid hb
          exact ⟨s, rfl, Bool.eq_false_iff.mpr hmissile, hid.symm, hb.symm⟩

theorem vacant_of_spawn? (h : a.spawn? slot m = .ok (id, b)) : ¬ a.IsOccupied slot := by
  rcases spawn?_cases h with ⟨s, hs, hmissile, _⟩
  simp [IsOccupied, hs, hmissile]

theorem find?_of_spawn? (h : a.spawn? slot m = .ok (id, b)) : a.find? id = none := by
  have hvacant := vacant_of_spawn? h
  rcases spawn?_cases h with ⟨s, _, _, hid, _⟩
  exact find?_eq_none_of_vacant (by rwa [hid])

theorem spawn?_eq_ok (h : a.spawn? slot m = .ok (id, b)) :
    id.side = a.side ∧ id.slot = slot ∧ b.side = a.side ∧ b.capacity = a.capacity ∧
      (forall i, b.IsOccupied i ↔ a.IsOccupied i ∨ i = slot) ∧
      forall other, b.find? other = if other = id then some m else a.find? other := by
  have hvacant := vacant_of_spawn? h
  rcases spawn?_cases h with ⟨s, hs, _, hid, hb⟩
  have hlt : slot < a.slots.size := (Array.getElem?_eq_some_iff.mp hs).1
  have hslots : forall i, b.slots[i]? =
      if i = id.slot then some ⟨id.generation, some m⟩ else a.slots[i]? := by
    intro i
    rw [hid, hb, Array.getElem?_setIfInBounds]
    by_cases hi : i = slot
    · simp [hi, hlt]
    · simp [hi, Ne.symm hi]
  refine ⟨by rw [hid], by rw [hid], by rw [hb], by simp [hb, capacity], ?_, ?_⟩
  · intro i
    rw [isOccupied_replace hslots, hid]
    by_cases hi : i = slot <;> simp [hi]
  · intro other
    apply find?_replace (by rw [hb]) (by rw [hid]) hslots
    intro other _ hslot
    rw [hid] at hslot
    exact find?_eq_none_of_vacant (hslot ▸ hvacant)

/-- The missile that slot and count name is taken, of whatever side the name is. -/
theorem vacate?_eq_ok_iff :
    a.vacate? id = .ok (m, b) ↔
      a.find? { id with side := a.side } = some m ∧ b = a.putMissile id.slot none := by
  rw [find?_eq_some_iff]
  unfold vacate?
  cases hslot : a.slots[id.slot]? with
  | none => simp
  | some s =>
      rcases s with ⟨generation, missile⟩
      by_cases hgeneration : generation = id.generation
      · cases missile with
        | none => simp [hgeneration]
        | some m' => simp [hgeneration, eq_comm]
      · simp [hgeneration]

theorem vacate?_of_find? (h : a.find? id = some m) :
    a.vacate? id = .ok (m, a.putMissile id.slot none) := by
  refine vacate?_eq_ok_iff.mpr ⟨?_, rfl⟩
  rwa [← (find?_eq_some_iff.mp h).1]

theorem vacate?_eq_ok (h : a.vacate? id = .ok (m, b)) : b = a.putMissile id.slot none :=
  (vacate?_eq_ok_iff.mp h).2

theorem find?_of_vacate? {m' : Missile} (h : a.vacate? id = .ok (m, b))
    (hm' : b.find? other = some m') : a.find? other = some m' := by
  rcases find?_eq_some_iff.mp hm' with ⟨hside, hslot⟩
  rw [vacate?_eq_ok h] at hside hslot
  rw [putMissile, Array.getElem?_modify] at hslot
  split at hslot
  · rcases Option.map_eq_some_iff.mp hslot with ⟨s, _, hs⟩
    injection hs with _ hs
    cases hs
  · exact find?_eq_some_iff.mpr ⟨hside, hslot⟩

theorem isOccupied_vacate (h : a.find? id = some m) :
    (a.putMissile id.slot none).IsOccupied i ↔ a.IsOccupied i ∧ i ≠ id.slot := by
  rw [isOccupied_replace fun i => slots_putMissile h none]
  by_cases hi : i = id.slot <;> simp [hi]

@[simp] theorem capacity_ofCapacity (side : Side) (capacity : Nat) :
    (ofCapacity side capacity).capacity = capacity := by
  simp [ofCapacity, Arena.capacity]

@[simp] theorem not_isOccupied_ofCapacity (side : Side) (capacity : Nat) :
    ¬ (ofCapacity side capacity).IsOccupied slot := by
  unfold IsOccupied ofCapacity
  rw [Array.getElem?_replicate]
  split <;> simp [ArenaSlot.vacant]

end Arena

/-!
## Both arenas
-/

namespace Fleet

variable {f : Fleet} {id other : MissileId} {side : Side}

theorem build?_spec (attackers defenders : Nat) :
    (attackers <= Arena.room ∧ defenders <= Arena.room ∧
        build? attackers defenders = .ok (.ofCapacities attackers defenders)) ∨
      ((Arena.room < attackers ∨ Arena.room < defenders) ∧
        build? attackers defenders = .error .capacityOverflow) := by
  unfold build? Arena.build?
  by_cases hattackers : Arena.room < attackers
  · rw [if_pos hattackers]
    exact .inr ⟨.inl hattackers, rfl⟩
  · rw [if_neg hattackers]
    by_cases hdefenders : Arena.room < defenders
    · rw [if_pos hdefenders]
      exact .inr ⟨.inr hdefenders, rfl⟩
    · rw [if_neg hdefenders]
      exact .inl ⟨Nat.le_of_not_lt hattackers, Nat.le_of_not_lt hdefenders, rfl⟩

theorem eq_ofCapacities_of_build? {attackers defenders : Nat}
    (h : build? attackers defenders = .ok f) : f = .ofCapacities attackers defenders := by
  rcases build?_spec attackers defenders with ⟨_, _, hbuilt⟩ | ⟨_, hfault⟩
  · injection h.symm.trans hbuilt
  · cases h.symm.trans hfault

theorem arena_setArena (a : Arena) (t : Side) :
    (f.setArena side a).arena t = if t = side then a else f.arena t := by
  cases side <;> cases t <;> rfl

theorem find?_setArena (a : Arena) :
    (f.setArena side a).find? id = if id.side = side then a.find? id else f.find? id := by
  unfold find?
  rw [arena_setArena]
  split <;> rfl

theorem find?_setArena_update (f : Fleet) (id other : MissileId)
    (change : Missile -> Missile) :
    (f.setArena id.side ((f.arena id.side).update id change)).find? other =
      if other = id then (f.find? id).map change else f.find? other := by
  rw [find?_setArena, Arena.find?_update]
  by_cases heq : other = id
  · simp [heq, find?]
  · by_cases hside : other.side = id.side
    · simp [heq, hside, find?]
    · simp [heq, hside]

theorem ext_of_slots {f' : Fleet}
    (hside : forall side, (f'.arena side).side = (f.arena side).side)
    (hslots : forall side (slot : Nat), (f'.arena side).slots[slot]? = (f.arena side).slots[slot]?) :
    f' = f := by
  have harena : forall side, f'.arena side = f.arena side := fun side =>
    Arena.ext_of_slots (hside side) (hslots side)
  rcases f with ⟨attackers, defenders⟩
  rcases f' with ⟨attackers', defenders'⟩
  rw [show attackers' = attackers from harena .attacker,
    show defenders' = defenders from harena .defender]

theorem isActive_iff : f.isActive id = true ↔ exists m, f.find? id = some m ∧ m.deleted = false :=
  Arena.isActive_iff

end Fleet
end AirDefense

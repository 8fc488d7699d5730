import AirDefense.Proofs.Calls
import AirDefense.Proofs.Fleet.Writes

/-!
# The law of names

A slot has its missiles one after the other and counts them in 32 bits.  A name that was
given to one of them stands for whoever is in the slot whenever as many missiles have come
into it, up to whole rounds of the count, and at no other time.  A name that stands for
nobody reads nothing and changes nothing.
-/

namespace AirDefense

variable {α : Type}

/-- What is asked of an arena; a look at a missile may answer with anything. -/
inductive ArenaCall (α : Type) where
  | spawn (slot : Nat) (m : Missile)
  | vacate (id : MissileId)
  | markDeleted (id : MissileId)
  | advance (id : MissileId) (dt : Float32)
  | look (id : MissileId) (f : Missile -> α)
  /-- A look at a missile that may change it as well. -/
  | change (id : MissileId) (f : Missile -> α × Missile)

inductive ArenaAnswer (α : Type) where
  | named (id : MissileId)
  | removed (m : Missile)
  | marked (found : Bool)
  | moved (leg? : Option Leg)
  | seen (a? : Option α)
  | failed (fault : Fault)

namespace ArenaAnswer

def fills (slot : Nat) : ArenaAnswer α -> Bool
  | named id => id.slot = slot
  | _ => false

end ArenaAnswer

namespace Arena

/-- A call on an arena; what was written before it fails stays. -/
def perform (a : Arena) : ArenaCall α -> ArenaAnswer α × Arena
  | .spawn slot m =>
      match (ArenaWrites.spawn slot m).run a with
      | .ok id b => (.named id, b)
      | .error fault b => (.failed fault, b)
  | .vacate id =>
      match (ArenaWrites.vacate id).run a with
      | .ok m b => (.removed m, b)
      | .error fault b => (.failed fault, b)
  | .markDeleted id => (.marked (a.isLive id), a.markDeleted id)
  | .advance id dt =>
      match a.advance id dt with
      | some (leg, b) => (.moved (some leg), b)
      | none => (.moved none, a)
  | .look id f => (.seen ((a.find? id).map f), a)
  | .change id f =>
      (.seen ((a.find? id).map fun m => (f m).1), a.update id fun m => (f m).2)

/-- What becomes of a new arena. -/
def history (side : Side) (capacity : Nat) (calls : List (ArenaCall α)) :
    List (ArenaAnswer α) × Arena :=
  runCalls perform (ofCapacity side capacity) calls

/-- How many missiles have come into the slot. -/
def arrivals (slot : Nat) (answers : List (ArenaAnswer α)) : Nat :=
  answers.countP (ArenaAnswer.fills slot)

variable {a b : Arena} {id : MissileId} {m : Missile} {slot : Nat}

/-!
## Counts
-/

theorem count_lt (a : Arena) (slot : Nat) : a.count slot < UInt32.size := by
  unfold count
  cases a.slots[slot]? with
  | none => decide
  | some s => exact s.generation.toNat_lt

theorem isLive_iff :
    a.isLive id = true ↔
      id.side = a.side ∧ a.IsOccupied id.slot ∧ a.count id.slot = id.generation.toNat := by
  unfold isLive
  rw [Option.isSome_iff_exists]
  constructor
  · rintro ⟨m, hm⟩
    rcases find?_eq_some_iff.mp hm with ⟨hside, hslot⟩
    exact ⟨hside, isOccupied_of_find? hm, count_of_slot hslot⟩
  · rintro ⟨hside, hoccupied, hcount⟩
    unfold IsOccupied at hoccupied
    rcases Option.isSome_iff_exists.mp hoccupied with ⟨m, hm⟩
    rcases Option.bind_eq_some_iff.mp hm with ⟨s, hs, hmissile⟩
    rw [count_of_slot hs, UInt32.toNat_inj] at hcount
    refine ⟨m, find?_eq_some_iff.mpr ⟨hside, ?_⟩⟩
    rw [hs, ← hmissile, ← hcount]

structure Counts (a : Arena) (answer : ArenaAnswer α) (b : Arena) : Prop where
  side_eq : b.side = a.side
  count_eq : forall slot,
    b.count slot = (a.count slot + (answer.fills slot).toNat) % UInt32.size

theorem counts_of_same {answer : ArenaAnswer α} (hanswer : forall slot, answer.fills slot = false)
    (hside : b.side = a.side) (hcount : forall slot, b.count slot = a.count slot) :
    a.Counts answer b := by
  refine ⟨hside, fun slot => ?_⟩
  rw [hanswer, hcount, Bool.toNat_false, Nat.add_zero, Nat.mod_eq_of_lt (a.count_lt slot)]

theorem counts_spawn? (h : a.spawn? slot m = .ok (id, b)) :
    a.Counts (.named id : ArenaAnswer α) b := by
  rcases spawn?_eq_ok h with ⟨_, hslot, hside, _⟩
  rcases count_spawn? h with ⟨hgeneration, hcount⟩
  refine ⟨hside, fun i => ?_⟩
  rw [hcount, ArenaAnswer.fills, hslot]
  by_cases hi : i = slot
  · subst hi
    simp [hgeneration]
  · simp [hi, Ne.symm hi, Nat.mod_eq_of_lt (a.count_lt i)]

theorem counts_perform (a : Arena) (call : ArenaCall α) :
    a.Counts (a.perform call).1 (a.perform call).2 := by
  cases call with
  | spawn slot m =>
      simp only [perform, ArenaWrites.spawn_run]
      cases hspawn : a.spawn? slot m with
      | error fault => exact counts_of_same (fun _ => rfl) rfl fun _ => rfl
      | ok r => exact counts_spawn? hspawn
  | vacate id =>
      simp only [perform, ArenaWrites.vacate_run]
      cases hvacate : a.vacate? id with
      | error fault => exact counts_of_same (fun _ => rfl) rfl fun _ => rfl
      | ok r =>
          simp only [vacate?_eq_ok hvacate]
          exact counts_of_same (fun _ => rfl) rfl (count_putMissile none)
  | markDeleted id =>
      exact counts_of_same (fun _ => rfl) (side_update _) fun _ => count_update _
  | advance id dt =>
      cases hadvance : a.advance id dt with
      | none =>
          simp only [perform, hadvance]
          exact counts_of_same (fun _ => rfl) rfl fun _ => rfl
      | some r =>
          rcases advance_eq_some hadvance with ⟨_, _, _, _, hb⟩
          simp only [perform, hadvance, hb]
          exact counts_of_same (fun _ => rfl) (side_update _) fun _ => count_update _
  | look id f => exact counts_of_same (fun _ => rfl) rfl fun _ => rfl
  | change id f => exact counts_of_same (fun _ => rfl) (side_update _) fun _ => count_update _

/-- A count is the number of missiles that have come in, but for whole rounds. -/
theorem count_runCalls (a : Arena) (calls : List (ArenaCall α)) (slot : Nat) :
    (runCalls perform a calls).2.side = a.side ∧
      (runCalls perform a calls).2.count slot =
        (a.count slot + arrivals slot (runCalls perform a calls).1) % UInt32.size := by
  induction calls generalizing a with
  | nil => exact ⟨rfl, (Nat.mod_eq_of_lt (a.count_lt slot)).symm⟩
  | cons call rest ih =>
      have hfirst := a.counts_perform call
      rcases ih (a.perform call).2 with ⟨hside, hcount⟩
      rw [hfirst.count_eq, Nat.mod_add_mod] at hcount
      refine ⟨hside.trans hfirst.side_eq, hcount.trans ?_⟩
      simp only [runCalls, arrivals, List.countP_cons, Nat.add_assoc]
      cases (a.perform call).1.fills slot <;> simp [Nat.add_comm]

theorem count_history (side : Side) (capacity : Nat) (calls : List (ArenaCall α)) (slot : Nat) :
    (history side capacity calls).2.side = side ∧
      (history side capacity calls).2.count slot =
        arrivals slot (history side capacity calls).1 % UInt32.size := by
  have hcount := (ofCapacity side capacity).count_runCalls calls slot
  rwa [count_ofCapacity, Nat.zero_add] at hcount

/-!
## Names that stand for nobody
-/

theorem perform_of_not_isLive (h : a.isLive id = false) (dt : Float32) (f : Missile -> α)
    (g : Missile -> α × Missile) :
    a.perform (.markDeleted id : ArenaCall α) = (.marked false, a) ∧
      a.perform (.advance id dt : ArenaCall α) = (.moved none, a) ∧
      a.perform (.look id f) = (.seen none, a) ∧
      a.perform (.change id g) = (.seen none, a) := by
  have hnone : a.find? id = none := by
    cases hfind : a.find? id with
    | none => rfl
    | some m =>
        rw [isLive, hfind] at h
        cases h
  refine ⟨?_, ?_, ?_, ?_⟩
  · simp only [perform, h, markDeleted, update_eq_self hnone]
  · simp only [perform, advance, hnone]
  · simp only [perform, hnone, Option.map_none]
  · simp only [perform, hnone, Option.map_none, update_eq_self hnone]

/-!
## Names that were given
-/

theorem isLive_history_iff {side : Side} {capacity : Nat} {calls : List (ArenaCall α)} :
    (history side capacity calls).2.isLive id = true ↔
      id.side = side ∧ (history side capacity calls).2.IsOccupied id.slot ∧
        arrivals id.slot (history side capacity calls).1 % UInt32.size =
          id.generation.toNat := by
  rcases count_history side capacity calls id.slot with ⟨hside, hcount⟩
  rw [isLive_iff, hside, hcount]

theorem generation_of_spawn? {side : Side} {capacity : Nat} {past : List (ArenaCall α)}
    (h : (history side capacity past).2.spawn? slot m = .ok (id, b)) :
    id.side = side ∧ id.slot = slot ∧ id.generation.toNat =
      (arrivals slot (history side capacity past).1 + 1) % UInt32.size := by
  rcases count_history side capacity past slot with ⟨hside, hcount⟩
  rcases spawn?_eq_ok h with ⟨hown, hslot, _⟩
  refine ⟨hown.trans hside, hslot, ?_⟩
  rw [(count_spawn? h).1, hcount, Nat.mod_add_mod]

/--
A name that was given to the `k`th missile in a slot, in every state that the arena comes to
by any calls: with `n` missiles that have come into the slot it stands for a missile just
when the slot has one and `n` is `k` up to whole rounds of 32 bits.  So it never means a
newer missile before a whole round has passed.  Of all other names, those of the other side
and of no slot among them, this holds as well.  Through a name that stands for nobody no
missile is stopped, moved, seen or changed.
-/
theorem name_stands_for_its_missile {side : Side} {capacity : Nat} {past : List (ArenaCall α)}
    (h : (history side capacity past).2.spawn? slot m = .ok (id, b))
    (calls : List (ArenaCall α)) :
    let k := arrivals slot (history side capacity past).1 + 1
    let n := arrivals slot (history side capacity calls).1
    let a := (history side capacity calls).2
    (a.isLive id = true ↔ a.IsOccupied slot ∧ n % UInt32.size = k % UInt32.size) ∧
      (k < n -> n < k + UInt32.size -> a.isLive id = false) ∧
      (forall other, a.isLive other = true ↔
        other.side = side ∧ a.IsOccupied other.slot ∧
          arrivals other.slot (history side capacity calls).1 % UInt32.size =
            other.generation.toNat) ∧
      forall other, a.isLive other = false -> forall dt f g,
        a.perform (.markDeleted other : ArenaCall α) = (.marked false, a) ∧
          a.perform (.advance other dt : ArenaCall α) = (.moved none, a) ∧
          a.perform (.look other f : ArenaCall α) = (.seen none, a) ∧
          a.perform (.change other g : ArenaCall α) = (.seen none, a) := by
  intro k n a
  rcases generation_of_spawn? h with ⟨hside, hslot, hgeneration⟩
  have hlaw : a.isLive id = true ↔
      a.IsOccupied slot ∧ n % UInt32.size = k % UInt32.size := by
    have hlive : a.isLive id = true ↔ id.side = side ∧ a.IsOccupied id.slot ∧
        arrivals id.slot (history side capacity calls).1 % UInt32.size =
          id.generation.toNat := isLive_history_iff
    rw [hside, hslot, hgeneration] at hlive
    simpa using hlive
  refine ⟨hlaw, fun hlater hround => ?_, fun other => isLive_history_iff,
    fun other hother => perform_of_not_isLive hother⟩
  rw [Bool.eq_false_iff]
  intro hlive
  have hmod := (hlaw.mp hlive).2
  simp only [UInt32.size] at hmod hround
  omega

def relay (m : Missile) : List (ArenaCall Unit) :=
  [.spawn 0 m, .vacate ⟨.attacker, 0, 1⟩, .spawn 0 m]

theorem name_stands_for_its_missile_relay :
    let glider := Missile.launchedAt .attacker .origin (Single.ofInt 0) (Single.ofInt 90)
    let first : MissileId := ⟨.attacker, 0, 1⟩
    let a := (history .attacker 1 (relay glider)).2
    (exists b, (history .attacker 1 ([] : List (ArenaCall Unit))).2.spawn? 0 glider =
      .ok (first, b)) ∧
      a.isLive ⟨.attacker, 0, 2⟩ = true ∧ a.isLive first = false ∧
      a.perform (.markDeleted first : ArenaCall Unit) = (.marked false, a) := by
  intro glider first a
  have hspawn : (history .attacker 1 ([] : List (ArenaCall Unit))).2.spawn? 0 glider =
      .ok (first, ⟨.attacker, #[⟨1, some glider⟩]⟩) := rfl
  rcases name_stands_for_its_missile hspawn (relay glider) with ⟨_, hlater, hall, hnobody⟩
  have hfirst : a.isLive first = false := hlater (by decide) (by decide)
  have hsecond : a.isLive ⟨.attacker, 0, 2⟩ = true :=
    (hall ⟨.attacker, 0, 2⟩).mpr ⟨rfl, rfl, rfl⟩
  exact ⟨⟨_, hspawn⟩, hsecond, hfirst,
    (hnobody first hfirst (Single.ofInt 1) (fun _ => ()) fun m => ((), m)).1⟩

end Arena
end AirDefense

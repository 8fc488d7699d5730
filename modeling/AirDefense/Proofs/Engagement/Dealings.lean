import AirDefense.Proofs.Engagement.Accounts
import AirDefense.Proofs.Engagement.Supplies

/-!
# Dealings of a task

A step of a task may take a slot or give one back, put a missile into its arena or take
one out, claim a target, or start a flight.  Each of these shows in what the step leaves
behind.  The dealings of a task along a run are those of its own steps, in their order.
-/

namespace AirDefense

inductive Dealing where
  | takes (seat : Seat)
  | returns (seat : Seat)
  | spawns (id : MissileId)
  | vacates (id : MissileId)
  | claims (id target : MissileId)
  | starts (task : Nat) (id : MissileId)
deriving DecidableEq, Repr

/-- The task that the maneuver is a step of. -/
def Maneuver.task? : Maneuver -> Option Nat
  | act (.work i _ _ _) => some i
  | _ => none

def World.IsLive (w : World) (id : MissileId) : Prop :=
  (w.fleet.find? id).isSome = true

theorem World.isLive_of_fleet {w w' : World} (h : w'.fleet = w.fleet) (id : MissileId) :
    w'.IsLive id ↔ w.IsLive id := by
  rw [IsLive, h, IsLive]

section World

variable {w w' : World} {id : MissileId} {m : Missile} {side : Side} {slot : Nat}

theorem World.isLive_spawn? (hw : w.Sound) (h : w.spawn? side slot m = .ok (id, w')) :
    ¬ w.IsLive id ∧ forall other, w'.IsLive other ↔ w.IsLive other ∨ other = id := by
  rcases spawn?_eq_ok h with ⟨a, ha, heq⟩
  rcases Arena.spawn?_eq_ok ha with ⟨hside, _, _, _, _, hfind⟩
  rw [hw.arena_side] at hside
  have hnew : w.fleet.find? id = none := by
    rw [Fleet.find?, hside]
    exact Arena.find?_of_spawn? ha
  refine ⟨by simp [IsLive, hnew], fun other => ?_⟩
  rw [IsLive, IsLive, heq, World.setArena, Fleet.find?_setArena, hfind]
  by_cases hother : other = id
  · simp [hother, hside]
  · by_cases hsame : other.side = side
    · simp [hother, hsame, Fleet.find?]
    · simp [hother, hsame]

theorem World.isLive_vacate? (hw : w.Sound) (h : w.vacate? id = .ok (m, w')) :
    w.IsLive id ∧ forall other, w'.IsLive other ↔ w.IsLive other ∧ other ≠ id := by
  rcases vacate?_eq_ok h with ⟨a, ha, heq⟩
  rcases Arena.vacate?_eq_ok_iff.mp ha with ⟨hid, hput⟩
  rw [hw.arena_side] at hid
  have hold : w.fleet.find? id = some m := hid
  refine ⟨by simp [IsLive, hold], fun other => ?_⟩
  rw [IsLive, IsLive, heq, World.setArena, Fleet.find?_setArena, hput, Arena.find?_putMissile hid]
  by_cases hother : other = id
  · simp [hother]
  · by_cases hsame : other.side = id.side
    · simp [hother, hsame, Fleet.find?]
    · simp [hother, hsame]

theorem World.isLive_update (change : Missile -> Missile) (other : MissileId) :
    (w.setArena side ((w.fleet.arena side).update id change)).IsLive other ↔ w.IsLive other := by
  rw [IsLive, IsLive, World.setArena, Fleet.find?_setArena]
  split
  · rename_i hside
    rw [Arena.find?_update, Fleet.find?, hside]
    split
    · rename_i heq
      rw [heq, Option.isSome_map]
    · rfl
  · rfl

theorem World.supplies_of_spawn? (h : w.spawn? side slot m = .ok (id, w')) :
    w'.supplies = w.supplies := by
  rcases spawn?_eq_ok h with ⟨a, _, heq⟩
  rw [heq]
  rfl

theorem World.supplies_of_vacate? (h : w.vacate? id = .ok (m, w')) :
    w'.supplies = w.supplies := by
  rcases vacate?_eq_ok h with ⟨a, _, heq⟩
  rw [heq]
  rfl

theorem World.fleet_of_returnSlot? (h : w.returnSlot? side slot = .ok w') :
    w'.fleet = w.fleet := by
  cases side with
  | attacker | defender =>
      rcases bind_eq_ok.mp h with ⟨_, _, h⟩
      cases pure_eq_ok.mp h
      rfl

end World

namespace Engagement

def Flies (e : Engagement) (task : Nat) (id : MissileId) : Prop :=
  exists t f, e.tasks[task]? = some t ∧ t.flight? = some f ∧ f.id = id

end Engagement

/-- What the dealing leaves behind shows in `e'`, and did not show in `e`. -/
def Dealing.IsDone (e e' : Engagement) : Dealing -> Prop
  | takes seat => ¬ e.world.IsTaken seat ∧ e'.world.IsTaken seat
  | returns seat => e.world.IsTaken seat ∧ ¬ e'.world.IsTaken seat
  | spawns id => ¬ e.world.IsLive id ∧ e'.world.IsLive id
  | vacates id => e.world.IsLive id ∧ ¬ e'.world.IsLive id
  | claims id target =>
      ¬ e.world.fleet.defenders.Pursues id target ∧ e'.world.fleet.defenders.Pursues id target
  | starts task id => ¬ e.Flies task id ∧ e'.Flies task id

namespace Engagement

/-- Of all dealings just `done`, if any, was done from `e` to `e'`. -/
def Does (e e' : Engagement) (done : Option Dealing) : Prop :=
  forall x : Dealing, x.IsDone e e' ↔ done = some x

/-- The dealings of the task `i` along a run. -/
inductive Deals (i : Nat) : Engagement -> List Maneuver -> List Dealing -> Prop where
  | nothing (e : Engagement) : Deals i e [] []
  | others {e : Engagement} {m : Maneuver} {rest : List Maneuver} {dealings : List Dealing}
      (hm : m.task? ≠ some i) (hrest : Deals i (e.maneuver m) rest dealings) :
      Deals i e (m :: rest) dealings
  | step {e : Engagement} {m : Maneuver} {rest : List Maneuver} {dealings : List Dealing}
      {done : Option Dealing} (hm : m.task? = some i) (hdone : e.Does (e.maneuver m) done)
      (hrest : Deals i (e.maneuver m) rest dealings) :
      Deals i e (m :: rest) (done.toList ++ dealings)

theorem Does.unique {e e' : Engagement} {done done' : Option Dealing} (h : e.Does e' done)
    (h' : e.Does e' done') : done = done' :=
  Option.ext fun x => (h x).symm.trans (h' x)

/-- A run settles what a task deals in. -/
theorem Deals.unique {i : Nat} {e : Engagement} {ms : List Maneuver}
    {dealings dealings' : List Dealing} (h : Deals i e ms dealings)
    (h' : Deals i e ms dealings') : dealings = dealings' := by
  induction h generalizing dealings' with
  | nothing e =>
      cases h'
      rfl
  | others hm hrest ih =>
      cases h' with
      | others hm' hrest' => exact ih hrest'
      | step hm' hdone' hrest' => exact absurd hm' hm
  | step hm hdone hrest ih =>
      cases h' with
      | others hm' hrest' => exact absurd hm hm'
      | step hm' hdone' hrest' => rw [hdone.unique hdone', ih hrest']

/-!
## What shows of a step
-/

variable {e e' : Engagement} {seat : Seat} {id target : MissileId}

theorem does_nothing (htaken : forall seat, e'.world.IsTaken seat ↔ e.world.IsTaken seat)
    (hlive : forall id, e'.world.IsLive id ↔ e.world.IsLive id)
    (hbegins : e.world.fleet.defenders.BeginsNone e'.world.fleet.defenders)
    (hflies : forall task id, e'.Flies task id ↔ e.Flies task id) : e.Does e' none := by
  intro x
  cases x with
  | takes seat | returns seat => simp [Dealing.IsDone, htaken]
  | spawns id | vacates id => simp [Dealing.IsDone, hlive]
  | claims id target => simpa [Dealing.IsDone] using fun hnot => mt (hbegins id target) hnot
  | starts task id => simp [Dealing.IsDone, hflies]

theorem does_takes {seat? : Option Seat}
    (htakes : Takes seat? e.world.IsTaken e'.world.IsTaken)
    (hfleet : e'.world.fleet = e.world.fleet)
    (hflies : forall task id, e'.Flies task id ↔ e.Flies task id) :
    e.Does e' (seat?.map .takes) := by
  intro x
  cases x with
  | takes seat =>
      simp only [Dealing.IsDone, htakes.2 seat, Option.map_eq_some_iff, Dealing.takes.injEq,
        exists_eq_right]
      exact ⟨fun h => h.2.resolve_left h.1, fun h => ⟨htakes.1 seat h, .inr h⟩⟩
  | returns seat =>
      simpa [Dealing.IsDone, htakes.2 seat] using fun htaken hnot => absurd htaken hnot
  | spawns id | vacates id => simp [Dealing.IsDone, World.isLive_of_fleet hfleet]
  | claims id target => simp [Dealing.IsDone, hfleet]
  | starts task id => simp [Dealing.IsDone, hflies]

theorem does_returnSlot? (hw : e.world.Sound) (htaken : e.world.IsTaken seat)
    (hreturn : e.world.returnSlot? seat.side seat.slot = .ok e'.world)
    (hflies : forall task id, e'.Flies task id ↔ e.Flies task id) :
    e.Does e' (some (.returns seat)) := by
  have hstill := hw.isTaken_returnSlot? htaken hreturn
  have hfleet := World.fleet_of_returnSlot? hreturn
  intro x
  cases x with
  | takes other => simpa [Dealing.IsDone, hstill] using fun hnot hold => absurd hold hnot
  | returns other =>
      simp only [Dealing.IsDone, hstill, Option.some.injEq, Dealing.returns.injEq]
      constructor
      · rintro ⟨hold, hgone⟩
        exact not_not.mp fun hne => hgone ⟨hold, Ne.symm hne⟩
      · rintro rfl
        exact ⟨htaken, fun h => h.2 rfl⟩
  | spawns id | vacates id => simp [Dealing.IsDone, World.isLive_of_fleet hfleet]
  | claims id target => simp [Dealing.IsDone, hfleet]
  | starts task id => simp [Dealing.IsDone, hflies]

theorem does_spawn? (hw : e.world.Sound) {side : Side} {slot : Nat} {m : Missile}
    (hspawn : e.world.spawn? side slot m = .ok (id, e'.world))
    (htarget : side = .defender -> m.target = none)
    (hflies : forall task id, e'.Flies task id ↔ e.Flies task id) :
    e.Does e' (some (.spawns id)) := by
  rcases World.isLive_spawn? hw hspawn with ⟨hnew, hlive⟩
  have hbegins := (World.handles_spawn? hspawn htarget).eases.beginsNone
  have htaken := World.isTaken_of_supplies (World.supplies_of_spawn? hspawn)
  intro x
  cases x with
  | takes seat | returns seat => simp [Dealing.IsDone, htaken]
  | spawns other =>
      simp only [Dealing.IsDone, hlive, Option.some.injEq, Dealing.spawns.injEq]
      constructor
      · rintro ⟨hnot, hnow⟩
        exact (hnow.resolve_left hnot).symm
      · rintro rfl
        exact ⟨hnew, .inr rfl⟩
  | vacates other => simpa [Dealing.IsDone, hlive] using fun hold hnot => absurd hold hnot
  | claims id target => simpa [Dealing.IsDone] using fun hnot => mt (hbegins id target) hnot
  | starts task id => simp [Dealing.IsDone, hflies]

theorem does_vacate? (hw : e.world.Sound) {m : Missile}
    (hvacate : e.world.vacate? id = .ok (m, e'.world))
    (hflies : forall task id, e'.Flies task id ↔ e.Flies task id) :
    e.Does e' (some (.vacates id)) := by
  rcases World.isLive_vacate? hw hvacate with ⟨hold, hlive⟩
  have hbegins := (World.handles_vacate? hvacate).eases.beginsNone
  have htaken := World.isTaken_of_supplies (World.supplies_of_vacate? hvacate)
  intro x
  cases x with
  | takes seat | returns seat => simp [Dealing.IsDone, htaken]
  | spawns other => simpa [Dealing.IsDone, hlive] using fun hnot h => absurd h hnot
  | vacates other =>
      simp only [Dealing.IsDone, hlive, Option.some.injEq, Dealing.vacates.injEq]
      constructor
      · rintro ⟨hother, hgone⟩
        exact not_not.mp fun hne => hgone ⟨hother, Ne.symm hne⟩
      · rintro rfl
        exact ⟨hold, fun h => h.2 rfl⟩
  | claims id target => simpa [Dealing.IsDone] using fun hnot => mt (hbegins id target) hnot
  | starts task id => simp [Dealing.IsDone, hflies]

theorem does_claims (hfree : ¬ e.world.fleet.defenders.Pursues id target)
    (hpursues : forall other t, e'.world.fleet.defenders.Pursues other t ->
      (other = id ∧ t = target) ∨ e.world.fleet.defenders.Pursues other t)
    (hassigned : e'.world.fleet.defenders.Pursues id target)
    (htaken : forall seat, e'.world.IsTaken seat ↔ e.world.IsTaken seat)
    (hlive : forall id, e'.world.IsLive id ↔ e.world.IsLive id)
    (hflies : forall task id, e'.Flies task id ↔ e.Flies task id) :
    e.Does e' (some (.claims id target)) := by
  intro x
  cases x with
  | takes seat | returns seat => simp [Dealing.IsDone, htaken]
  | spawns id | vacates id => simp [Dealing.IsDone, hlive]
  | claims other t =>
      simp only [Dealing.IsDone, Option.some.injEq, Dealing.claims.injEq]
      constructor
      · rintro ⟨hnot, hnow⟩
        rcases (hpursues other t hnow).resolve_right hnot with ⟨hother, ht⟩
        exact ⟨hother.symm, ht.symm⟩
      · rintro ⟨rfl, rfl⟩
        exact ⟨hfree, hassigned⟩
  | starts task id => simp [Dealing.IsDone, hflies]

theorem does_starts {task : Nat} (hworld : e'.world = e.world) (hnew : ¬ e.Flies task id)
    (hflies : forall k other, e'.Flies k other ↔ e.Flies k other ∨ (k = task ∧ other = id)) :
    e.Does e' (some (.starts task id)) := by
  intro x
  cases x with
  | takes seat | returns seat => simp [Dealing.IsDone, hworld]
  | spawns id | vacates id => simp [Dealing.IsDone, hworld]
  | claims id target => simp [Dealing.IsDone, hworld]
  | starts k other =>
      simp only [Dealing.IsDone, hflies, Option.some.injEq, Dealing.starts.injEq]
      constructor
      · rintro ⟨hnot, hnow⟩
        rcases hnow.resolve_left hnot with ⟨hk, hother⟩
        exact ⟨hk.symm, hother.symm⟩
      · rintro ⟨rfl, rfl⟩
        exact ⟨hnew, .inr ⟨rfl, rfl⟩⟩

/-!
## What shows of the tasks
-/

variable {i : Nat} {t : Task} {c : Conditions} {dt : Float32}

theorem flies_work (hi : e.tasks[i]? = some t) (ht : t.flight? = none)
    (ht' : (t.step c e.world).1.flight? = none) (task : Nat) (id : MissileId) :
    (e.work i c dt t).Flies task id ↔
      e.Flies task id ∨ (t.starts? c = some id ∧ task = e.tasks.length) := by
  by_cases hlt : task < e.tasks.length
  · unfold Flies
    rw [tasks_work_of_lt hlt]
    by_cases hsame : i = task
    · subst hsame
      simp [hi, ht, ht', Nat.ne_of_lt hlt]
    · simp [hsame, Nat.ne_of_lt hlt]
  · have hnone : ¬ e.Flies task id := by
      rintro ⟨u, f, hu, _⟩
      exact hlt (List.getElem?_eq_some_iff.mp hu).1
    have hset : (e.tasks.set i (t.step c e.world).1).length <= task := by
      rw [List.length_set]
      exact Nat.le_of_not_lt hlt
    rw [or_iff_right hnone]
    unfold Flies
    rw [work, List.getElem?_append_right hset, List.length_set]
    cases t.starts? c with
    | none => simp
    | some other =>
        simp only [Option.toList_some, List.map_cons, List.map_nil, List.getElem?_singleton]
        constructor
        · rintro ⟨u, f, hu, hf, hid⟩
          split at hu
          · cases hu
            cases hf
            exact ⟨congrArg some hid, by omega⟩
          · cases hu
        · rintro ⟨heq, rfl⟩
          injection heq with heq
          exact ⟨(Duty.flight other).begin dt, .start other dt, by simp, rfl, heq⟩

end Engagement
end AirDefense

import AirDefense.Proofs.Engagement.Handling
import AirDefense.Proofs.Engagement.Supplies
import AirDefense.Proofs.Field.RowOrder

/-!
# Snapshots of an engagement

A snapshot reads the grid first and the two supplies of slots afterwards, and between
its reads others draw slots and give them back.  It holds the grid all the time, and
so no missile leaves the grid; and a missile leaves the grid before its slot is given
back.  What the grid showed is therefore still out when the free slots are counted.
-/

namespace AirDefense

/-!
## Missiles on the grid
-/

namespace MissileView

def seat (v : MissileView) : Seat := ⟨v.side, v.slot⟩

theorem ofCell?_eq_some {f : Fleet} {p : Position} {c : Cell} {v : MissileView}
    (h : ofCell? f (p, c) = some v) : exists id, c.occupant? = some id ∧ id.seat = v.seat := by
  cases c with
  | attacker id mark =>
      injection h with h
      exact ⟨id, rfl, by rw [← h]; rfl⟩
  | defender id =>
      injection h with h
      exact ⟨id, rfl, by rw [← h]; rfl⟩
  | empty | wall | goal => cases h

end MissileView

structure Grid.Shows (g : Grid) (views : List MissileView) : Prop where
  distinct : (views.map MissileView.seat).Nodup
  standing : forall v, v ∈ views ->
    exists p id, g.occupant? p = some id ∧ id.seat = v.seat

namespace World

variable {w : World} {views : List MissileView}

theorem Sound.eq_of_seat (h : w.Sound) {p q : Position} {id other : MissileId}
    (hp : w.grid.occupant? p = some id) (hq : w.grid.occupant? q = some other)
    (hseat : id.seat = other.seat) : p = q := by
  rcases Option.isSome_iff_exists.mp (h.live p id hp) with ⟨m, hm⟩
  rcases Option.isSome_iff_exists.mp (h.live q other hq) with ⟨m', hm'⟩
  injection hseat with hside hslot
  rw [Fleet.find?, ← hside] at hm'
  have hsame : other = id := Arena.eq_of_find? hm hm' hslot.symm
  exact h.alone p q id hp (hsame ▸ hq)

theorem Sound.shows_missilesOf (h : w.Sound) :
    w.grid.Shows (Snapshot.missilesOf w.grid w.fleet) := by
  have hstanding : forall {e : Position × Cell} {v : MissileView}, e ∈ w.grid.missileEntries ->
      MissileView.ofCell? w.fleet e = some v ->
      exists id, w.grid.occupant? e.1 = some id ∧ id.seat = v.seat := by
    rintro ⟨p, c⟩ v he hv
    rcases MissileView.ofCell?_eq_some hv with ⟨id, hid, hseat⟩
    have hcell := (Grid.cell?_of_mem_missileEntries he).1
    exact ⟨id, by rw [Grid.occupant?, hcell]; exact hid, hseat⟩
  constructor
  · rw [Snapshot.missilesOf, List.Nodup, List.pairwise_map, List.pairwise_filterMap]
    refine w.grid.pairwise_precedes_missileEntries.imp_of_mem
      fun he hd hbefore v hv u hu hseat => hbefore.ne ?_
    rcases hstanding he hv with ⟨id, hid, hidseat⟩
    rcases hstanding hd hu with ⟨other, hother, hotherseat⟩
    exact h.eq_of_seat hid hother (hidseat.trans (hseat.trans hotherseat.symm))
  · intro v hv
    rcases List.mem_filterMap.mp hv with ⟨e, he, hview⟩
    exact ⟨e.1, hstanding he hview⟩

def slotsFree (w : World) : Side -> Nat
  | .attacker => w.admission.freeLength
  | .defender => w.pool.available

theorem Sound.taken_add_free_le (h : w.Sound) (side : Side) {slots : List Nat}
    (hnodup : slots.Nodup) (htaken : forall i, i ∈ slots -> w.IsTaken ⟨side, i⟩) :
    slots.length + w.slotsFree side <= w.slotCapacity side := by
  cases side with
  | attacker => exact h.admission.inUse_add_free_le hnodup htaken
  | defender => exact h.pool.taken_add_available_le hnodup htaken

theorem Sound.shown_add_free_le (h : w.Sound) (hviews : w.grid.Shows views) (side : Side) :
    (views.filter fun v => v.side = side).length + w.slotsFree side <= w.slotCapacity side := by
  rw [← List.length_map (f := MissileView.slot)]
  apply h.taken_add_free_le
  · rw [List.Nodup, List.pairwise_map]
    refine ((List.pairwise_map.mp hviews.distinct).filter _).imp_of_mem ?_
    intro v u hv hu hne hslot
    have hside := of_decide_eq_true (List.mem_filter.mp hv).2
    have hside' := of_decide_eq_true (List.mem_filter.mp hu).2
    exact hne (by rw [MissileView.seat, MissileView.seat, hside, hside', hslot])
  · intro i hi
    rcases List.mem_map.mp hi with ⟨v, hv, hslot⟩
    rcases List.mem_filter.mp hv with ⟨hview, hside⟩
    rcases hviews.standing v hview with ⟨p, id, hp, hseat⟩
    rcases Option.isSome_iff_exists.mp (h.live p id hp) with ⟨m, hm⟩
    have htaken := h.taken id.seat (Arena.isOccupied_of_find? hm)
    rwa [hseat, MissileView.seat, of_decide_eq_true hside, hslot] at htaken

/-!
## While the grid is held
-/

theorem inGrid?_of_held {act : World -> α × World} {t : Tier} (hheld : w.lock.holders = 1) :
    w.inGrid? t act = none := by
  rcases inGrid?_enter (w := w) act t with ⟨_, hwait⟩ | ⟨henter, _⟩
  · exact hwait
  · have hfree := (FieldLock.enter_eq_none (Prod.ext henter rfl)).1
    rw [hheld] at hfree
    cases hfree

end World

theorem Flight.grid_step_of_held {f : Flight} {w : World} (hheld : w.lock.holders = 1) :
    (f.step w).2.grid = w.grid := by
  rcases f.step_cases w with ⟨_, hhandles⟩ | ⟨leg, _, hstep⟩ | ⟨cell, _, hstep⟩
  · exact hhandles.grid_eq
  · rw [hstep, World.inGrid?_of_held hheld, Option.getD_none]
  · rw [hstep, World.inGrid?_of_held hheld, Option.getD_none]

theorem Task.grid_step_of_held {t : Task} {c : Conditions} {w : World}
    (hheld : w.lock.holders = 1) : (t.step c w).2.grid = w.grid := by
  cases hclaimant : t.claimant? with
  | none =>
      rcases step_cases hclaimant with hhandles | ⟨f, heq⟩
      · exact hhandles.grid_eq
      · subst heq
        exact Flight.grid_step_of_held hheld
  | some id =>
      have hwait : w.inGrid? .low (Attempt.claimTarget id) = none :=
        World.inGrid?_of_held hheld
      rw [eq_of_claimant? hclaimant]
      simp only [step, DefenceLauncher.step, Attempt.step, hwait, Option.getD_none]

namespace Engagement

variable {e : Engagement}

/-- Nobody writes to the grid while an observer holds it. -/
theorem Sound.grid_act_of_held (h : e.Sound) (hheld : e.world.lock.holders = 1) (a : Action) :
    (e.act a).world.grid = e.world.grid := by
  cases a with
  | work i accepting now dt =>
      cases hi : e.tasks[i]? with
      | none => simp only [Engagement.act, hi]
      | some t =>
          simp only [Engagement.act, hi]
          exact Task.grid_step_of_held hheld
  | look i =>
      cases hi : e.observers[i]? with
      | none => simp only [Engagement.act, hi]
      | some p =>
          rcases step_observer h.quiet h.holders_le (h.held (List.mem_of_getElem? hi)) with
            ⟨l, hworld, _⟩
          simp only [Engagement.act, hi, hworld]
  | hire side | watch | request | mark id | stop | closeAdmission | closePool => rfl

end Engagement

/-!
## Snapshots on the way
-/

namespace Snapshot

structure IsConsistent (s : Snapshot) (capacity : Side -> Nat) : Prop where
  distinct : (s.missiles.map MissileView.seat).Nodup
  attackers : s.count .attacker + s.attackerSlotsFree <= capacity .attacker
  defenders : s.count .defender + s.defenderSlotsFree <= capacity .defender

namespace Progress

def Sound (w : World) : Progress -> Prop
  | waiting => True
  | holding _ missiles => w.grid.Shows missiles
  | counting _ missiles free =>
      w.grid.Shows missiles ∧
        (missiles.filter fun v => v.side = .attacker).length + free <= w.slotCapacity .attacker
  | releasing snapshot => snapshot.IsConsistent w.slotCapacity
  | done snapshot => snapshot.IsConsistent w.slotCapacity

variable {p : Progress} {w w' : World}

def snapshot? : Progress -> Option Snapshot
  | done snapshot => some snapshot
  | _ => none

theorem eq_done_of_snapshot? {snapshot : Snapshot} (h : p.snapshot? = some snapshot) :
    p = done snapshot := by
  cases p with
  | done other =>
      injection h with h
      rw [h]
  | waiting | holding score missiles | counting score missiles free | releasing other => cases h

theorem Sound.congr (h : p.Sound w) (hcapacity : w'.slotCapacity = w.slotCapacity)
    (hgrid : p.isHolding = true -> w'.grid = w.grid) : p.Sound w' := by
  cases p with
  | waiting => trivial
  | holding score missiles =>
      show w'.grid.Shows missiles
      rw [hgrid rfl]
      exact h
  | counting score missiles free =>
      rw [Sound, hgrid rfl, hcapacity]
      exact h
  | releasing snapshot | done snapshot =>
      rw [Sound, hcapacity]
      exact h

theorem Sound.step (h : p.Sound w) (hw : w.Sound) : (p.step w).1.Sound w := by
  cases p with
  | waiting =>
      simp only [Progress.step]
      split
      · exact h
      · exact hw.shows_missilesOf
  | holding score missiles => exact ⟨h, hw.shown_add_free_le h .attacker⟩
  | counting score missiles free =>
      exact
        { distinct := h.1.distinct
          attackers := h.2
          defenders := hw.shown_add_free_le h.1 .defender }
  | releasing snapshot =>
      simp only [Progress.step]
      split
      · exact h
      · exact h
  | done snapshot => exact h

end Progress
end Snapshot

namespace Engagement

variable {e : Engagement}

/-- Every observer is right about what it has read. -/
def IsObserved (e : Engagement) : Prop :=
  forall p, p ∈ e.observers -> p.Sound e.world

theorem Sound.observed_look (h : e.Sound) (hobserved : e.IsObserved) (i : Nat) :
    (e.act (.look i)).IsObserved := by
  cases hi : e.observers[i]? with
  | none =>
      simp only [Engagement.act, hi]
      exact hobserved
  | some p =>
      have hp := List.mem_of_getElem? hi
      rcases step_observer h.quiet h.holders_le (h.held hp) with ⟨l, hworld, _⟩
      simp only [Engagement.act, hi, hworld]
      intro q hq
      have hrelocked : forall {r : Snapshot.Progress}, r.Sound e.world ->
          r.Sound { e.world with lock := l } := fun hr => hr.congr rfl fun _ => rfl
      rcases List.mem_or_eq_of_mem_set hq with hold | hnew
      · exact hrelocked (hobserved q hold)
      · rw [hnew]
        exact hrelocked ((hobserved p hp).step h.world)

theorem Sound.observed_act (h : e.Sound) (hobserved : e.IsObserved) (a : Action) :
    (e.act a).IsObserved := by
  have hcapacity : (e.act a).world.slotCapacity = e.world.slotCapacity :=
    funext fun side => h.slotCapacity_run [a] side
  have hstill : forall p, p ∈ e.observers -> p.Sound (e.act a).world := fun p hp =>
    (hobserved p hp).congr hcapacity fun hholding => h.grid_act_of_held (h.held hp hholding) a
  cases a with
  | look i => exact h.observed_look hobserved i
  | watch =>
      intro p hp
      rcases List.mem_append.mp hp with hold | hnew
      · exact hstill p hold
      · rw [List.mem_singleton.mp hnew]
        trivial
  | work i accepting now dt =>
      intro p hp
      refine hstill p ?_
      cases hi : e.tasks[i]? with
      | none => simpa only [Engagement.act, hi] using hp
      | some t => simpa only [Engagement.act, hi, Engagement.work] using hp
  | hire side | request | mark id | stop | closeAdmission | closePool => exact hstill

/--
In every order of actions, a snapshot shows every slot of a side at most once, and the
slots of a side that it shows and those that it counts as free are no more than the
side has.
-/
theorem snapshots_are_consistent {s : Settings} {w : World} (hvalid : s.validate = .ok (.ok ()))
    (hw : World.ofSettings? s = .ok w) (actions : List Action) :
    let e := (start w).run actions
    forall snapshot, .releasing snapshot ∈ e.observers ∨ .done snapshot ∈ e.observers ->
      (snapshot.missiles.map MissileView.seat).Nodup ∧
        snapshot.count .attacker + snapshot.attackerSlotsFree <= s.attacker.capacity ∧
        snapshot.count .defender + snapshot.defenderSlotsFree <= s.defender.capacity := by
  intro e snapshot hsnapshot
  have hstart := start_sound hvalid hw
  have hfresh := World.isFresh_of_ofSettings? hw
  have hobserved : e.IsObserved :=
    hstart.run_of (fun hr ho a => hr.observed_act ho a) (fun p hp => by cases hp) actions
  have hconsistent : snapshot.IsConsistent e.world.slotCapacity := by
    rcases hsnapshot with hreleasing | hdone
    · exact hobserved _ hreleasing
    · exact hobserved _ hdone
  have hcapacity := hstart.slotCapacity_run actions
  have hattackers : e.world.slotCapacity .attacker = s.attacker.capacity :=
    (hcapacity .attacker).trans (AdmissionQueue.ofCapacity?_sound hfresh.admission).2.1
  have hdefenders : e.world.slotCapacity .defender = s.defender.capacity :=
    (hcapacity .defender).trans (SlotPool.ofCapacity?_sound hfresh.pool).2.1
  exact ⟨hconsistent.distinct, hattackers ▸ hconsistent.attackers,
    hdefenders ▸ hconsistent.defenders⟩

def watched : List Action :=
  firstFlight ++ [.watch, .look 0, .mark ⟨.attacker, 0, 1⟩] ++
    List.replicate 3 (.work 1 true 0 0) ++ [.look 0, .hire .defender] ++
    List.replicate 2 (.work 2 true 0 0) ++ [.work 1 true 0 0, .look 0, .look 0]

theorem snapshots_are_consistent_watched :
    narrow.validate = .ok (.ok ()) ∧ exists w snapshot, World.ofSettings? narrow = .ok w ∧
      .done snapshot ∈ ((start w).run watched).observers ∧ snapshot.count .attacker = 1 ∧
      snapshot.attackerSlotsFree = 3 ∧ snapshot.defenderSlotsFree = 3 ∧
      (snapshot.missiles.map MissileView.seat).Nodup ∧
      snapshot.count .attacker + snapshot.attackerSlotsFree <= narrow.attacker.capacity ∧
      snapshot.count .defender + snapshot.defenderSlotsFree <= narrow.defender.capacity := by
  have hvalid : narrow.validate = .ok (.ok ()) := by decide +kernel
  have hlooked : ((World.ofSettings? narrow).toOption.map fun w =>
      ((start w).run watched).observers.findSome? Snapshot.Progress.snapshot?) =
      some (some ⟨.zero, [⟨.attacker, 0, 3, 3, false⟩], 3, 3⟩) := by
    decide +kernel
  rcases World.exists_ofSettings? hlooked with ⟨w, hw, hview⟩
  rcases List.exists_of_findSome?_eq_some hview with ⟨p, hp, hsnapshot⟩
  have hdone := Snapshot.Progress.eq_done_of_snapshot? hsnapshot ▸ hp
  exact ⟨hvalid, w, _, hw, hdone, rfl, rfl, rfl,
    snapshots_are_consistent hvalid hw watched _ (.inr hdone)⟩

end Engagement
end AirDefense

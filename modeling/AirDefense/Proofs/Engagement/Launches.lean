import AirDefense.Proofs.Engagement.Contracts

/-!
# Launched missiles

A missile comes into its arena in one section of a launcher, and from then on one task
at a time has it: the launcher, and after that the flight that the launcher starts.  So
there are no more flights than missiles were launched.
-/

namespace AirDefense

def World.arrivals (side : Side) (w w' : World) : Nat :=
  ((w'.fleet.arena side).liveIds.filter fun id => (w.fleet.find? id).isNone).length

theorem World.arrivals_pos {w w' : World} {id : MissileId} {m : Missile}
    (hnew : w.fleet.find? id = none) (hid : w'.fleet.find? id = some m) :
    0 < World.arrivals id.side w w' := by
  have hlive : id ∈ (w'.fleet.arena id.side).liveIds := by
    rw [Arena.mem_liveIds, show (w'.fleet.arena id.side).find? id = some m from hid]
    rfl
  apply List.length_pos_of_mem (a := id)
  simp only [List.mem_filter, hnew, Option.isNone_none, and_true]
  exact hlive

def Charge.missile? : Charge -> Option MissileId
  | nothing => none
  | slot _ => none
  | missile _ id _ => some id

namespace Task

def missile? (t : Task) : Option MissileId :=
  match t.flight? with
  | some f => some f.id
  | none => t.charge.missile?

def hasMissile (side : Side) (t : Task) : Bool :=
  t.missile?.any fun id => id.side = side

theorem missile?_flight {t : Task} {f : Flight} (h : t.flight? = some f) :
    t.missile? = some f.id := by
  simp only [missile?, h]

theorem missile?_launcher {t : Task} (h : t.flight? = none) :
    t.missile? = t.charge.missile? := by
  simp only [missile?, h]

variable {t t' : Task} {w w' : World} {side : Side}

theorem hasMissile_of_advances (side : Side) (hw : w.Sound) (hc : t.charge.Sound w)
    (hadvances : Charge.Advances w t.charge t'.charge w') (hevolves : t.Evolves w' t')
    (h : t'.hasMissile side = true) :
    t.hasMissile side = true ∨ 0 < World.arrivals side w w' := by
  unfold hasMissile at h ⊢
  cases hf : t.flight? with
  | some f =>
      rcases hevolves.flight f hf with ⟨r, hr, hid, _⟩
      rw [missile?_flight hr, hid] at h
      rw [missile?_flight hf]
      exact .inl h
  | none =>
      rw [missile?_launcher (hevolves.launcher hf)] at h
      rw [missile?_launcher hf]
      have hcharge := hadvances.charge
      have hseat := hadvances.seat
      cases hc' : t'.charge with
      | nothing =>
          rw [hc'] at h
          cases h
      | slot seat =>
          rw [hc'] at h
          cases h
      | missile seat id place =>
          rw [hc'] at h hcharge hseat
          rcases hcharge with ⟨hid, _, m, hm, _⟩
          have hside : id.side = side := by simpa [Charge.missile?] using h
          have hvacant : ¬ w.IsOccupied id.seat -> 0 < World.arrivals side w w' := fun hnot =>
            hside ▸ World.arrivals_pos (World.find?_eq_none_of_vacant hnot) hm
          rcases hseat seat rfl with hown | hfree
          · cases hbefore : t.charge with
            | nothing =>
                rw [hbefore] at hown
                cases hown
            | slot seat' =>
                rw [hbefore] at hown hc
                injection hown with hown
                rw [hown, ← hid] at hc
                exact .inr (hvacant hc.2)
            | missile seat' id' place' =>
                rw [hbefore] at hown hc
                injection hown with hown
                have hsame : id'.seat = id.seat := by rw [hc.1, hown, hid]
                have hside' : id'.side = side := (congrArg Seat.side hsame).trans hside
                exact .inl (by simpa [Charge.missile?] using hside')
          · rw [← hid] at hfree
            exact .inr (hvacant fun hoccupied => hfree (hw.taken id.seat hoccupied))

end Task

namespace Engagement

variable {e : Engagement}

/-- How many missiles of a side a run launches. -/
def launches (side : Side) : Engagement -> List Action -> Nat
  | _, [] => 0
  | e, a :: rest =>
      World.arrivals side e.world (e.act a).world + launches side (e.act a) rest

def carriers (side : Side) (e : Engagement) : Nat :=
  e.tasks.countP (Task.hasMissile side)

theorem Sound.carriers_work (h : e.Sound) (side : Side) {i : Nat} {t : Task}
    (hi : e.tasks[i]? = some t) (c : Conditions) (dt : Float32) :
    (e.work i c dt t).carriers side <=
      e.carriers side + World.arrivals side e.world (e.work i c dt t).world := by
  have hmem := List.mem_of_getElem? hi
  have hcount := countP_set_add (p := Task.hasMissile side) (d := (t.step c e.world).1) hi
  simp only [carriers, Engagement.work, List.countP_append]
  cases hstarts : t.starts? c with
  | none =>
      rcases Task.step_advances h.quiet h.world (h.charge t hmem) (h.task t hmem) hstarts with
        ⟨hadvances, _, hevolves⟩
      have hmissile := Task.hasMissile_of_advances side h.world (h.charge t hmem)
        hadvances hevolves
      have hnew : ((t.step c e.world).1.hasMissile side).toNat <=
          (t.hasMissile side).toNat + World.arrivals side e.world (t.step c e.world).2 := by
        cases hafter : (t.step c e.world).1.hasMissile side with
        | false => exact Nat.zero_le _
        | true =>
            rcases hmissile hafter with hbefore | harrival
            · rw [hbefore]
              exact Nat.le_add_right 1 _
            · exact Nat.le_add_left_of_le harrival
      simp only [Option.toList_none, List.map_nil, List.countP_nil, Nat.add_zero]
      omega
  | some id =>
      rcases Task.step_starts (h.charge t hmem) hstarts with
        ⟨hnothing, _, _, hcharge, hbefore, hafter⟩
      have hgiver : t.hasMissile side = decide (id.side = side) := by
        rw [Task.hasMissile, Task.missile?_launcher hbefore, hcharge]
        rfl
      have hgiven : (t.step c e.world).1.hasMissile side = false := by
        rw [Task.hasMissile, Task.missile?_launcher hafter, hnothing]
        rfl
      have htaker : ((Duty.flight id).begin dt).hasMissile side = decide (id.side = side) := rfl
      rw [hgiver, hgiven] at hcount
      simp only [Option.toList_some, List.map_cons, List.map_nil, List.countP_singleton, htaker]
      cases hside : decide (id.side = side) with
      | false =>
          rw [hside] at hcount
          simp only [Bool.toNat_false, Nat.add_zero] at hcount
          simp only [Bool.false_eq_true, if_false]
          omega
      | true =>
          rw [hside] at hcount
          simp only [Bool.toNat_true, Bool.toNat_false, Nat.add_zero] at hcount
          simp only [if_true]
          omega

theorem Sound.carriers_act (h : e.Sound) (side : Side) (a : Action) :
    (e.act a).carriers side <=
      e.carriers side + World.arrivals side e.world (e.act a).world := by
  cases a with
  | hire s =>
      have hlauncher : (launcher s).hasMissile side = false := by cases s <;> rfl
      simp [carriers, Engagement.act, hlauncher]
  | work i accepting now dt =>
      cases hi : e.tasks[i]? with
      | none =>
          simp only [Engagement.act, hi]
          exact Nat.le_add_right _ _
      | some t =>
          simp only [Engagement.act, hi]
          exact h.carriers_work side hi _ dt
  | look i =>
      cases hi : e.observers[i]? with
      | none =>
          simp only [Engagement.act, hi]
          exact Nat.le_add_right _ _
      | some p =>
          simp only [Engagement.act, hi]
          exact Nat.le_add_right _ _
  | watch | request | mark id | stop | closeAdmission | closePool =>
      exact Nat.le_add_right _ _

/-- There are no more missiles in hand, in flight or gone than were launched. -/
theorem Sound.carriers_run (h : e.Sound) (side : Side) (actions : List Action) :
    (e.run actions).carriers side <= e.carriers side + launches side e actions := by
  induction actions generalizing e with
  | nil => exact Nat.le_refl _
  | cons a rest ih =>
      have hfirst := h.carriers_act side a
      have hrest := ih (h.act a)
      simp only [launches]
      exact Nat.le_trans hrest (by omega)

end Engagement
end AirDefense

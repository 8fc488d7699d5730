import AirDefense.Proofs.Fleet.Pursuit

/-!
# Names given out once

A slot counts the missiles that come into it, and the count is part of the name of
each.  As long as the count does not come round, no name is given out twice: what is
left of a missile that is gone, a mark or an assignment, never means another one.
-/

namespace AirDefense
namespace Arena

def count (a : Arena) (slot : Nat) : Nat :=
  ((a.slots[slot]?).map fun s => s.generation.toNat).getD 0

def fills (a b : Arena) (slot : Nat) : Bool :=
  b.liveIds.any fun id => decide (id.slot = slot) && (a.find? id).isNone

/-- The name was given out before, or the count has come round. -/
def HasIssued (a : Arena) (id : MissileId) : Prop :=
  id.side = a.side ∧ id.generation.toNat <= a.count id.slot

structure Ages (a b : Arena) : Prop where
  issued : forall id, a.HasIssued id -> b.HasIssued id
  found : forall id m, b.find? id = some m ->
    (exists m', a.find? id = some m' ∧ m.target = m'.target) ∨ ¬ a.HasIssued id

/-- The arena ages, unless a count comes round; no count runs ahead of the missiles. -/
structure Renews (a b : Arena) : Prop where
  count_le : forall slot, b.count slot <= a.count slot + (a.fills b slot).toNat
  ages : (forall slot, a.count slot + (a.fills b slot).toNat < UInt32.size) -> a.Ages b

variable {a b : Arena} {id other target : MissileId} {m : Missile} {slot : Nat}

theorem count_of_slot {s : ArenaSlot} (h : a.slots[slot]? = some s) :
    a.count slot = s.generation.toNat := by
  simp [count, h]

theorem count_ofCapacity (side : Side) (capacity : Nat) :
    (ofCapacity side capacity).count slot = 0 := by
  unfold count ofCapacity
  rw [Array.getElem?_replicate]
  split <;> rfl

theorem hasIssued_of_find? (h : a.find? id = some m) : a.HasIssued id := by
  rcases find?_eq_some_iff.mp h with ⟨hside, hslot⟩
  exact ⟨hside, Nat.le_of_eq (count_of_slot hslot).symm⟩

/-!
## What gives out no name
-/

theorem renews_of_counts (hside : b.side = a.side)
    (hcount : forall slot, b.count slot = a.count slot)
    (hfound : forall id m, b.find? id = some m ->
      exists m', a.find? id = some m' ∧ m.target = m'.target) : a.Renews b :=
  { count_le := fun slot => by rw [hcount]; exact Nat.le_add_right _ _
    ages := fun _ =>
      { issued := fun id hid => ⟨hid.1.trans hside.symm, by rw [hcount]; exact hid.2⟩
        found := fun id m hid => .inl (hfound id m hid) } }

theorem Renews.refl (a : Arena) : a.Renews a :=
  renews_of_counts rfl (fun _ => rfl) fun _ m hid => ⟨m, hid, rfl⟩

theorem count_putMissile (missile : Option Missile) (i : Nat) :
    (a.putMissile slot missile).count i = a.count i := by
  unfold count putMissile
  rw [Array.getElem?_modify]
  split
  · rw [Option.map_map]
    rfl
  · rfl

theorem count_update (f : Missile -> Missile) : (a.update id f).count slot = a.count slot := by
  unfold update
  split
  · exact count_putMissile _ _
  · rfl

theorem renews_update {f : Missile -> Missile} (hf : forall m, (f m).target = m.target) :
    a.Renews (a.update id f) := by
  apply renews_of_counts (side_update f) fun slot => count_update f
  intro other m hm
  rw [find?_update] at hm
  split at hm
  · rename_i heq
    rcases Option.map_eq_some_iff.mp hm with ⟨m', hm', hfly⟩
    exact ⟨m', heq ▸ hm', by rw [← hfly, hf]⟩
  · exact ⟨m, hm, rfl⟩

theorem renews_vacate? (h : a.vacate? id = .ok (m, b)) : a.Renews b := by
  have hb := vacate?_eq_ok h
  refine renews_of_counts (by rw [hb]; rfl) (fun slot => ?_) fun _ m' hm' => ?_
  · rw [hb]
    exact count_putMissile none slot
  · exact ⟨m', find?_of_vacate? h hm', rfl⟩

theorem hasIssued_assign {target? : Option MissileId} :
    (a.assign id target?).HasIssued other ↔ a.HasIssued other := by
  unfold HasIssued assign
  rw [side_update, count_update]

/-!
## A new name
-/

/-- A slot that is filled counts one more, and its missile has the new count in its name. -/
theorem count_spawn? (h : a.spawn? slot m = .ok (id, b)) :
    id.generation.toNat = (a.count slot + 1) % UInt32.size ∧
      forall i, b.count i = if i = slot then id.generation.toNat else a.count i := by
  rcases spawn?_cases h with ⟨s, hs, _, hid, hb⟩
  have hlt : slot < a.slots.size := (Array.getElem?_eq_some_iff.mp hs).1
  rw [hid, hb]
  refine ⟨by rw [count_of_slot hs]; exact UInt32.toNat_add _ _, fun i => ?_⟩
  unfold count
  rw [Array.getElem?_setIfInBounds]
  by_cases hi : i = slot
  · simp [hi, hlt]
  · simp [hi, Ne.symm hi]

theorem fills_spawn? (h : a.spawn? slot m = .ok (id, b)) : a.fills b slot = true := by
  rcases spawn?_eq_ok h with ⟨_, hslot, _, _, _, hfind⟩
  have hlive : id ∈ b.liveIds := by
    rw [mem_liveIds, hfind, if_pos rfl]
    rfl
  exact List.any_eq_true.mpr ⟨id, hlive, by simp [hslot, find?_of_spawn? h]⟩

theorem not_hasIssued_of_spawn? (h : a.spawn? slot m = .ok (id, b))
    (hlasts : a.count slot + 1 < UInt32.size) : ¬ a.HasIssued id := by
  rcases spawn?_eq_ok h with ⟨_, hslot, _⟩
  have hcount := (count_spawn? h).1
  rw [Nat.mod_eq_of_lt hlasts] at hcount
  intro hissued
  have hle := hissued.2
  rw [hslot] at hle
  omega

theorem renews_spawn? (h : a.spawn? slot m = .ok (id, b)) : a.Renews b := by
  rcases spawn?_eq_ok h with ⟨_, _, hside, _, _, hfind⟩
  rcases count_spawn? h with ⟨hgeneration, hcount⟩
  have hfills := fills_spawn? h
  refine ⟨fun i => ?_, fun hlasts => ⟨fun other hother => ?_, fun other m' hm' => ?_⟩⟩
  · rw [hcount]
    split
    · rename_i hi
      subst hi
      rw [hfills, hgeneration]
      exact Nat.mod_le _ _
    · exact Nat.le_add_right _ _
  · refine ⟨hother.1.trans hside.symm, ?_⟩
    have hle := hother.2
    rw [hcount]
    split
    · rename_i hi
      have hlast := hlasts slot
      rw [hfills, Bool.toNat_true] at hlast
      rw [hgeneration, Nat.mod_eq_of_lt hlast]
      rw [hi] at hle
      exact Nat.le_succ_of_le hle
    · exact hle
  · rw [hfind] at hm'
    split at hm'
    · rename_i heq
      have hlast := hlasts slot
      rw [hfills, Bool.toNat_true] at hlast
      exact .inr (heq ▸ not_hasIssued_of_spawn? h hlast)
    · exact .inl ⟨m', hm', rfl⟩

end Arena
end AirDefense

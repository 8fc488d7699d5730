import AirDefense.Fleet.Claim
import AirDefense.Proofs.Fleet.Arena

/-!
# Pursuits

A missile in its arena pursues the target that it was assigned.  Only an assignment
begins a pursuit; all else that happens to an arena ends some, or none.
-/

namespace AirDefense

namespace Arena

def Pursues (a : Arena) (id target : MissileId) : Prop :=
  exists m, a.find? id = some m ∧ m.target = some target

def IsExclusive (a : Arena) : Prop :=
  forall target id other, a.Pursues id target -> a.Pursues other target -> id = other

def BeginsNone (a b : Arena) : Prop :=
  forall id target, b.Pursues id target -> a.Pursues id target

variable {a b : Arena} {id other target : MissileId} {m : Missile} {slot : Nat}

theorem BeginsNone.refl (a : Arena) : a.BeginsNone a :=
  fun _ _ h => h

theorem IsExclusive.of_beginsNone (h : a.IsExclusive) (hnone : a.BeginsNone b) :
    b.IsExclusive :=
  fun target id other hid hother => h target id other (hnone id target hid)
    (hnone other target hother)

theorem beginsNone_of_find? (h : forall id m, b.find? id = some m ->
    m.target = none ∨ exists m', a.find? id = some m' ∧ m.target = m'.target) :
    a.BeginsNone b := by
  rintro id target ⟨m, hid, htarget⟩
  rcases h id m hid with hnone | ⟨m', hid', hsame⟩
  · rw [hnone] at htarget
    cases htarget
  · exact ⟨m', hid', hsame ▸ htarget⟩

theorem beginsNone_update {f : Missile -> Missile} (hf : forall m, (f m).target = m.target) :
    a.BeginsNone (a.update id f) := by
  apply beginsNone_of_find?
  intro other m hm
  rw [find?_update] at hm
  split at hm
  · rename_i heq
    rcases Option.map_eq_some_iff.mp hm with ⟨m', hm', hfly⟩
    exact .inr ⟨m', heq ▸ hm', by rw [← hfly, hf]⟩
  · exact .inr ⟨m, hm, rfl⟩

theorem beginsNone_spawn? (hm : m.target = none) (h : a.spawn? slot m = .ok (id, b)) :
    a.BeginsNone b := by
  rcases spawn?_eq_ok h with ⟨_, _, _, _, _, hfind⟩
  apply beginsNone_of_find?
  intro other m' hm'
  rw [hfind] at hm'
  split at hm'
  · injection hm' with hm'
    exact .inl (hm' ▸ hm)
  · exact .inr ⟨m', hm', rfl⟩

theorem beginsNone_vacate? (h : a.vacate? id = .ok (m, b)) : a.BeginsNone b :=
  beginsNone_of_find? fun _ m' hm' => .inr ⟨m', find?_of_vacate? h hm', rfl⟩

/-!
## Assignments
-/

theorem pursues_assign {t : MissileId} (h : (a.assign id (some target)).Pursues other t) :
    (other = id ∧ t = target) ∨ a.Pursues other t := by
  rcases h with ⟨m, hm, ht⟩
  rw [assign, find?_update] at hm
  split at hm
  · rename_i heq
    rcases Option.map_eq_some_iff.mp hm with ⟨m', _, hassigned⟩
    rw [← hassigned] at ht
    exact .inl ⟨heq, (Option.some.inj ht).symm⟩
  · exact .inr ⟨m, hm, ht⟩

theorem IsExclusive.assign (h : a.IsExclusive)
    (hfree : forall other, ¬ a.Pursues other target) :
    (a.assign id (some target)).IsExclusive := by
  intro t first second hfirst hsecond
  rcases pursues_assign hfirst with ⟨hid, ht⟩ | hold
  · rcases pursues_assign hsecond with ⟨hid', _⟩ | hold'
    · exact hid.trans hid'.symm
    · exact absurd (ht ▸ hold') (hfree second)
  · rcases pursues_assign hsecond with ⟨_, ht⟩ | hold'
    · exact absurd (ht ▸ hold) (hfree first)
    · exact h t first second hold hold'

end Arena

/-!
## Claims
-/

namespace Fleet

variable {f : Fleet} {target : MissileId}

theorem isEngaged_iff :
    f.isEngaged target = true ↔ exists id, f.defenders.Pursues id target := by
  simp only [isEngaged, List.any_eq_true, Option.any_eq_true, decide_eq_true_eq,
    Arena.mem_liveIds, Option.isSome_iff_exists]
  constructor
  · rintro ⟨id, _, m, hm, ht⟩
    exact ⟨id, m, hm, ht⟩
  · rintro ⟨id, m, hm, ht⟩
    exact ⟨id, ⟨m, hm⟩, m, hm, ht⟩

theorem beginsNone_setArena {side : Side} {a : Arena} (h : (f.arena side).BeginsNone a) :
    f.defenders.BeginsNone (f.setArena side a).defenders := by
  cases side with
  | attacker => exact .refl _
  | defender => exact h

theorem beginsNone_markDeleted (id : MissileId) :
    f.defenders.BeginsNone (f.markDeleted id).defenders :=
  beginsNone_setArena (Arena.beginsNone_update fun _ => rfl)

end Fleet

namespace Claim

variable {g : Grid} {f : Fleet}

theorem not_pursues_of_first? {claim : Claim} (h : first? g f = some claim) (id : MissileId) :
    ¬ f.defenders.Pursues id claim.target := by
  rcases List.exists_of_findSome?_eq_some h with ⟨⟨p, c⟩, _, hcell⟩
  intro hpursues
  cases c with
  | attacker target trackedBy =>
      simp only [ofCell] at hcell
      split at hcell
      · rename_i hunclaimed
        injection hcell with hcell
        rw [← hcell] at hpursues
        simp [Fleet.isUnclaimed, Fleet.isEngaged_iff.mpr ⟨id, hpursues⟩] at hunclaimed
      · cases hcell
  | empty | wall | goal | defender occupant => cases hcell

theorem isExclusive_take {interceptor : MissileId} (h : f.defenders.IsExclusive) :
    (take g f interceptor).2.2.defenders.IsExclusive := by
  unfold take
  cases hfirst : first? g f with
  | none => exact h
  | some claim => exact h.assign fun id => not_pursues_of_first? hfirst id

end Claim
end AirDefense

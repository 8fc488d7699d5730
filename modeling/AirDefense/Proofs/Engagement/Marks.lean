import AirDefense.Proofs.Engagement.Claims
import AirDefense.Proofs.Engagement.Separation
import AirDefense.Proofs.Fleet.Names

/-!
# Marks and assignments

A claim is written down twice: as a mark in the cell of the attacker, and as the target
that the interceptor was assigned.  The mark goes with the attacker from cell to cell;
the assignment stays with the interceptor, and goes when it goes.  A mark may outlive
its interceptor, and an assignment its attacker, but what is left of either means
nobody else, because names are not given out twice.
-/

namespace AirDefense

/-!
## Marks on the grid
-/

namespace Grid

variable {g g' : Grid} {p q : Position} {id : MissileId} {mark : Option MissileId}

def Carries (g g' : Grid) : Prop :=
  forall p id mark, g'.cell? p = some (.attacker id mark) ->
    exists q, g.cell? q = some (.attacker id mark)

theorem carries_of_cells (h : forall p, g'.cell? p = g.cell? p) : g.Carries g' :=
  fun p _ _ hp => ⟨p, h p ▸ hp⟩

theorem Carries.trans {g'' : Grid} (h : g.Carries g') (h' : g'.Carries g'') : g.Carries g'' := by
  intro p id mark hp
  rcases h' p id mark hp with ⟨q, hq⟩
  exact h q id mark hq

theorem carries_write_empty (hp : g.inBounds p = true) : g.Carries (g.write p .empty) := by
  intro q id mark hq
  rw [cell?_write hp] at hq
  split at hq
  · cases hq
  · exact ⟨q, hq⟩

theorem carries_clear (g : Grid) (p : Position) (id : MissileId) :
    g.Carries (g.clear p id).2 := by
  intro q other mark hq
  rw [cell?_clear] at hq
  split at hq
  · cases hq
  · exact ⟨q, hq⟩

theorem carries_resolve? {f f' : Fleet} {mover : MissileId} {radius : Int} {c : Collision}
    (h : g.resolve? f mover p radius = .ok (some c, g', f')) : g.Carries g' := by
  rcases resolve?_eq_some h with ⟨_, hg, _⟩ | ⟨ps, spot, hfirst, hg, _⟩
  · exact carries_of_cells fun _ => by rw [hg]
  · rw [hg]
    cases c with
    | offGrid | wall | goal => exact carries_of_cells fun _ => rfl
    | intercept victim | friendly victim =>
        have hspot := inBounds_of_occupant? (victim_of_firstCollision hfirst rfl).1
        exact (carries_write_empty hspot).trans (carries_of_cells fun _ => rfl)

theorem cell?_stamp {d : MissileId} (h : g.cell? p = some (.attacker id mark)) :
    (g.stamp p d).cell? q = if q = p then some (.attacker id (some d)) else g.cell? q := by
  unfold stamp
  rw [h]
  exact cell?_write (inBounds_of_cell? h) _

theorem clear_eq_some {c : Cell} :
    (g.clear p id).1 = some c ↔ g.cell? p = some c ∧ c.occupant? = some id := by
  unfold clear
  cases hc : g.cell? p with
  | none => simp
  | some b =>
      simp only
      split
      · rename_i hid
        constructor
        · intro h
          injection h with h
          exact ⟨by rw [h], h ▸ hid⟩
        · exact fun h => h.1
      · rename_i hid
        constructor
        · intro h
          cases h
        · rintro ⟨heq, hown⟩
          injection heq with heq
          exact absurd (heq ▸ hown) hid

def IsTyped (g : Grid) : Prop :=
  forall p c id, g.cell? p = some c -> c.occupant? = some id -> c.unmarked = .missile id

theorem isTyped_of_vacant (h : forall p, g.occupant? p = none) : g.IsTyped := by
  intro p c id hc hid
  have hnone := h p
  rw [occupant?, hc, Option.bind_some, hid] at hnone
  cases hnone

theorem IsTyped.thin (h : g.IsTyped) (hthins : g.Thins g') : g'.IsTyped := by
  intro p c id hc hid
  rcases hthins.cell p c hc (by rintro rfl; cases hid) with ⟨b, hb, hbc⟩
  rw [← hbc]
  apply h p b id hb
  rw [← Cell.occupant?_unmarked, hbc, Cell.occupant?_unmarked, hid]

theorem IsTyped.shift (h : g.IsTyped) {radius : Int} (hshifts : g.Shifts radius g') :
    g'.IsTyped := by
  rcases hshifts with hthins | ⟨mover, origin, p, c, henters, heq⟩
  · exact h.thin hthins
  · have hcleared := h.thin (thins_clear g origin mover)
    intro q b id hb hid
    rw [heq, cell?_write henters.inBounds] at hb
    split at hb
    · injection hb with hb
      subst hb
      rw [henters.occupant_eq] at hid
      injection hid with hid
      exact hid ▸ henters.cell_eq
    · exact hcleared q b id hb hid

theorem IsTyped.attacker (h : g.IsTyped) (hp : g.occupant? p = some id)
    (hside : id.side = .attacker) : exists mark, g.cell? p = some (.attacker id mark) := by
  rcases occupant?_eq_some_iff.mp hp with ⟨c, hc, hid⟩
  have hcell : c.unmarked = (Cell.attacker id none).unmarked := by
    rw [h p c id hc hid, Cell.missile, hside]
    rfl
  rcases Cell.eq_attacker_of_unmarked hcell with ⟨mark, heq⟩
  exact ⟨mark, heq ▸ hc⟩

theorem IsTyped.side (h : g.IsTyped) (hp : g.cell? p = some (.attacker id mark)) :
    id.side = .attacker :=
  Cell.side_of_unmarked (h p _ id hp rfl)

end Grid

/-!
## What the two tell
-/

namespace World

/-- The missile is not on the grid, and no interceptor was assigned it. -/
def IsUnplaced (w : World) (id : MissileId) : Prop :=
  (forall p, w.grid.occupant? p ≠ some id) ∧ forall d, ¬ w.fleet.defenders.Pursues d id

def Carries (w w' : World) : Prop :=
  forall p a mark, w'.grid.cell? p = some (.attacker a mark) ->
    (exists q, w.grid.cell? q = some (.attacker a mark)) ∨ (mark = none ∧ w.IsUnplaced a)

/--
The marks of live interceptors are the targets that those were assigned, but for claims
that are under way: an interceptor has marked a cell that it is yet to be assigned.
-/
structure Agrees (underway : MissileId -> MissileId -> Prop) (w : World) : Prop where
  marked : forall p a d m, w.grid.cell? p = some (.attacker a (some d)) ->
    w.fleet.defenders.find? d = some m -> w.fleet.defenders.Pursues d a ∨ underway d a
  pursued : forall p a mark d, w.grid.cell? p = some (.attacker a mark) ->
    w.fleet.defenders.Pursues d a -> mark = some d
  marks : forall p a d, w.grid.cell? p = some (.attacker a (some d)) ->
    w.fleet.defenders.HasIssued d
  targets : forall d a, w.fleet.defenders.Pursues d a -> w.fleet.attackers.HasIssued a

def Lasts (w w' : World) : Prop :=
  forall side slot, (w.fleet.arena side).count slot +
    ((w.fleet.arena side).fills (w'.fleet.arena side) slot).toNat < UInt32.size

structure Tends (w w' : World) : Prop where
  renews : forall side, (w.fleet.arena side).Renews (w'.fleet.arena side)
  held : w.lock.holders ≠ 0 -> w'.grid = w.grid
  carries : w.Carries w'

variable {w w' : World} {underway underway' : MissileId -> MissileId -> Prop}
  {id a d : MissileId} {m : Missile} {p : Position}

theorem Agrees.mono (h : w.Agrees underway)
    (hmono : forall d a, underway d a -> underway' d a) : w.Agrees underway' :=
  { h with
    marked := fun p a d m hp hd => (h.marked p a d m hp hd).imp_right (hmono d a) }

theorem Tends.ages (h : w.Tends w') (hlasts : w.Lasts w') (side : Side) :
    (w.fleet.arena side).Ages (w'.fleet.arena side) :=
  (h.renews side).ages (hlasts side)

/-- A section that makes no claim leaves marks and assignments in agreement. -/
theorem Agrees.tend (h : w.Agrees underway) (ht : w.Tends w') (hlasts : w.Lasts w')
    (hnone : w.fleet.defenders.BeginsNone w'.fleet.defenders) : w'.Agrees underway := by
  have hdefenders : w.fleet.defenders.Ages w'.fleet.defenders := ht.ages hlasts .defender
  have hattackers : w.fleet.attackers.Ages w'.fleet.attackers := ht.ages hlasts .attacker
  refine ⟨fun p a d m hp hd => ?_, fun p a mark d hp hd => ?_, fun p a d hp => ?_, fun d a hd => ?_⟩
  · rcases ht.carries p a _ hp with ⟨q, hq⟩ | ⟨hmark, _⟩
    · rcases hdefenders.found d m hd with ⟨m', hm', htarget⟩ | hnew
      · refine (h.marked q a d m' hq hm').imp_left fun hpursues => ?_
        rcases hpursues with ⟨m'', hm'', htarget'⟩
        rw [hm'] at hm''
        cases hm''
        exact ⟨m, hd, htarget.trans htarget'⟩
      · exact absurd (h.marks q a d hq) hnew
    · cases hmark
  · rcases ht.carries p a _ hp with ⟨q, hq⟩ | ⟨_, hunplaced⟩
    · exact h.pursued q a mark d hq (hnone d a hd)
    · exact absurd (hnone d a hd) (hunplaced.2 d)
  · rcases ht.carries p a _ hp with ⟨q, hq⟩ | ⟨hmark, _⟩
    · exact hdefenders.issued d (h.marks q a d hq)
    · cases hmark
  · exact hattackers.issued a (h.targets d a (hnone d a hd))

/-!
## Claims
-/

theorem Agrees.stamp (h : w.Agrees underway) {mark : Option MissileId}
    (hp : w.grid.cell? p = some (.attacker a mark)) (hd : w.fleet.defenders.find? d = some m)
    (hfree : forall other, ¬ w.fleet.defenders.Pursues other a) :
    ({ w with grid := w.grid.stamp p d } : World).Agrees
      fun d' a' => underway d' a' ∨ (d' = d ∧ a' = a) := by
  have hcell := fun q => Grid.cell?_stamp (q := q) (d := d) hp
  refine ⟨fun q b e n hq hn => ?_, fun q b mark' e hq he => ?_, fun q b e hq => ?_, h.targets⟩
  · rw [hcell] at hq
    split at hq
    · injection hq with hq
      injection hq with hb he
      injection he with he
      exact .inr (.inr ⟨he.symm, hb.symm⟩)
    · exact (h.marked q b e n hq hn).imp_right .inl
  · rw [hcell] at hq
    split at hq
    · injection hq with hq
      injection hq with hb _
      exact absurd (hb ▸ he) (hfree e)
    · exact h.pursued q b mark' e hq he
  · rw [hcell] at hq
    split at hq
    · injection hq with hq
      injection hq with _ he
      injection he with he
      exact he ▸ Arena.hasIssued_of_find? hd
    · exact h.marks q b e hq

theorem Agrees.assign (h : w.Agrees underway) (hw : w.Sound)
    (hp : w.grid.cell? p = some (.attacker a (some d)))
    (hnone : forall target, ¬ w.fleet.defenders.Pursues d target)
    (hunderway : forall d' a', underway d' a' -> d' = d ∧ a' = a)
    (hside : a.side = .attacker) :
    ({ w with fleet := { w.fleet with defenders := w.fleet.defenders.assign d (some a) } } :
      World).Agrees fun _ _ => False := by
  have hlive : (w.fleet.attackers.find? a).isSome = true := by
    have hon := hw.live p a (Grid.occupant?_eq_some_iff.mpr ⟨_, hp, rfl⟩)
    rwa [Fleet.find?, hside] at hon
  refine ⟨fun q b e n hq hn => .inl ?_, fun q b mark e hq he => ?_, fun q b e hq => ?_,
    fun e b he => ?_⟩
  · rw [Arena.assign, Arena.find?_update] at hn
    by_cases heq : e = d
    · rw [if_pos heq] at hn
      rcases Option.map_eq_some_iff.mp hn with ⟨n', hn', hassigned⟩
      rcases h.marked q b e n' hq (heq ▸ hn') with hpursues | hunder
      · exact absurd (heq ▸ hpursues) (hnone b)
      · refine ⟨n, ?_, ?_⟩
        · rw [Arena.assign, Arena.find?_update, if_pos heq]
          exact hn
        · rw [← hassigned, (hunderway e b hunder).2]
    · rw [if_neg heq] at hn
      rcases h.marked q b e n hq hn with ⟨n', hn', htarget⟩ | hunder
      · refine ⟨n', ?_, htarget⟩
        rw [Arena.assign, Arena.find?_update, if_neg heq]
        exact hn'
      · exact absurd (hunderway e b hunder).1 heq
  · rcases Arena.pursues_assign he with ⟨heq, hb⟩ | hold
    · subst heq hb
      have hqp : q = p := hw.alone q p b (Grid.occupant?_eq_some_iff.mpr ⟨_, hq, rfl⟩)
        (Grid.occupant?_eq_some_iff.mpr ⟨_, hp, rfl⟩)
      rw [hqp, hp] at hq
      injection hq with hq
      injection hq with _ hmark
      exact hmark.symm
    · exact h.pursued q b mark e hq hold
  · exact Arena.hasIssued_assign.mpr (h.marks q b e hq)
  · rcases Arena.pursues_assign he with ⟨_, hb⟩ | hold
    · rcases Option.isSome_iff_exists.mp hlive with ⟨n, hn⟩
      rw [hb]
      exact Arena.hasIssued_of_find? hn
    · exact h.targets e b hold

end World
end AirDefense

import AirDefense.Proofs.Field.Collision

/-!
# Keeping clear

Two positions are as far apart as they are in the direction in which they are
farther apart.  On a grid in order missiles are farther than the collision radius
from each other and from all walls, and attackers from the goal band as well.  What
clears cells keeps such an order, and so does a missile that moves to where it
collides with nothing.
-/

namespace AirDefense

namespace Position

def distance (p q : Position) : Nat :=
  max (p.x - q.x).natAbs (p.y - q.y).natAbs

theorem distance_comm (p q : Position) : p.distance q = q.distance p := by
  unfold distance
  omega

theorem distance_le_iff {p q : Position} {n : Int} :
    (p.distance q : Int) <= n ↔
      p.x - n <= q.x ∧ q.x <= p.x + n ∧ p.y - n <= q.y ∧ q.y <= p.y + n := by
  unfold distance
  omega

end Position

namespace Cell

def unmarked : Cell -> Cell
  | attacker id _ => attacker id none
  | c => c

theorem occupant?_unmarked (c : Cell) : c.unmarked.occupant? = c.occupant? := by
  cases c <;> rfl

theorem eq_wall_of_unmarked {c : Cell} (h : c.unmarked = wall) : c = wall := by
  cases c with
  | wall => rfl
  | empty | goal | attacker id mark | defender id => cases h

theorem eq_goal_of_unmarked {c : Cell} (h : c.unmarked = goal) : c = goal := by
  cases c with
  | goal => rfl
  | empty | wall | attacker id mark | defender id => cases h

theorem eq_defender_of_unmarked {c : Cell} {id : MissileId} (h : c.unmarked = defender id) :
    c = defender id := by
  cases c with
  | defender other => exact h
  | empty | wall | goal | attacker other mark => cases h

theorem eq_attacker_of_unmarked {c : Cell} {id : MissileId} {mark : Option MissileId}
    (h : c.unmarked = (attacker id mark).unmarked) : exists mark', c = attacker id mark' := by
  cases c with
  | attacker id' mark' =>
      injection h with hid
      exact ⟨mark', by rw [hid]⟩
  | empty | wall | goal | defender id => cases h

theorem side_of_unmarked {a id : MissileId} {mark : Option MissileId}
    (h : (attacker a mark).unmarked = missile id) : id.side = .attacker := by
  unfold missile at h
  split at h
  · assumption
  · cases h

end Cell

namespace Grid

variable {g g' : Grid} {p q : Position} {mover id : MissileId} {radius : Int}

theorem occupant?_eq_some_iff :
    g.occupant? p = some id ↔ exists c, g.cell? p = some c ∧ c.occupant? = some id :=
  Option.bind_eq_some_iff

theorem cell?_clear :
    (g.clear p id).2.cell? q =
      if q = p ∧ g.occupant? p = some id then some .empty else g.cell? q := by
  unfold clear
  cases hc : g.cell? p with
  | none =>
      have hp : g.occupant? p ≠ some id := by simp [occupant?, hc]
      rw [if_neg fun h => hp h.2]
  | some c =>
      have hp : g.occupant? p = c.occupant? := by simp [occupant?, hc]
      simp only [hp]
      by_cases hid : c.occupant? = some id
      · rw [if_pos hid, cell?_write (inBounds_of_cell? hc)]
        simp only [hid, and_true]
      · rw [if_neg hid, if_neg fun h => hid h.2]

/-!
## Clearing cells
-/

/-- On `g'` stands nothing that was not on `g`, and cells without a missile are as they were. -/
structure Thins (g g' : Grid) : Prop where
  cell : forall p c, g'.cell? p = some c -> c ≠ .empty ->
    exists b, g.cell? p = some b ∧ b.unmarked = c.unmarked
  ground : forall p c, g.cell? p = some c -> c.occupant? = none -> g'.cell? p = some c

theorem thins_of_cells (h : forall p, g'.cell? p = g.cell? p) : g.Thins g' :=
  ⟨fun p c hc _ => ⟨c, h p ▸ hc, rfl⟩, fun p _ hp _ => (h p).trans hp⟩

theorem Thins.of_eq (h : g' = g) : g.Thins g' :=
  thins_of_cells fun _ => by rw [h]

theorem Thins.refl (g : Grid) : g.Thins g :=
  .of_eq rfl

theorem Thins.trans {g'' : Grid} (h : g.Thins g') (h' : g'.Thins g'') : g.Thins g'' := by
  refine ⟨fun p c hc hne => ?_, fun p c hp hnone => h'.ground p c (h.ground p c hp hnone) hnone⟩
  rcases h'.cell p c hc hne with ⟨b, hb, hbc⟩
  have hfull : b ≠ .empty := by
    intro hempty
    rw [hempty] at hbc
    cases c with
    | empty => exact hne rfl
    | wall | goal | attacker id mark | defender id => cases hbc
  rcases h.cell p b hb hfull with ⟨a, ha, hab⟩
  exact ⟨a, ha, hab.trans hbc⟩

theorem Thins.occupant (h : g.Thins g') (hp : g'.occupant? p = some id) :
    g.occupant? p = some id := by
  rcases occupant?_eq_some_iff.mp hp with ⟨c, hc, hid⟩
  rcases h.cell p c hc (by rintro rfl; cases hid) with ⟨b, hb, hbc⟩
  refine occupant?_eq_some_iff.mpr ⟨b, hb, ?_⟩
  rw [← Cell.occupant?_unmarked, hbc, Cell.occupant?_unmarked, hid]

theorem Thins.wall (h : g.Thins g') (p : Position) (hp : g.cell? p = some .wall) :
    g'.cell? p = some .wall :=
  h.ground p .wall hp rfl

theorem Thins.wall_iff (h : g.Thins g') : g'.cell? p = some .wall ↔ g.cell? p = some .wall := by
  refine ⟨fun hp => ?_, h.wall p⟩
  rcases h.cell p .wall hp nofun with ⟨b, hb, hwall⟩
  rw [hb, Cell.eq_wall_of_unmarked hwall]

theorem Thins.goal_of (h : g.Thins g') (hp : g'.cell? p = some .goal) :
    g.cell? p = some .goal := by
  rcases h.cell p .goal hp nofun with ⟨b, hb, hgoal⟩
  rw [hb, Cell.eq_goal_of_unmarked hgoal]

theorem thins_write {b c : Cell} (hp : g.cell? p = some b) (hid : b.occupant? = some id)
    (hc : c = .empty ∨ b.unmarked = c.unmarked) : g.Thins (g.write p c) := by
  have hwrite := fun q => cell?_write (q := q) (inBounds_of_cell? hp) c
  refine ⟨fun q d hd hne => ?_, fun q d hq hnone => ?_⟩
  · rw [hwrite] at hd
    split at hd
    · rename_i heq
      injection hd with hd
      subst hd
      rcases hc with hempty | hsame
      · exact absurd hempty hne
      · exact ⟨b, heq ▸ hp, hsame⟩
    · exact ⟨d, hd, rfl⟩
  · rw [hwrite, if_neg]
    · exact hq
    · rintro rfl
      rw [hp] at hq
      cases hq
      rw [hid] at hnone
      cases hnone

theorem thins_clear (g : Grid) (p : Position) (id : MissileId) : g.Thins (g.clear p id).2 := by
  unfold clear
  split
  · rename_i c hc
    split
    · rename_i hid
      exact thins_write hc hid (.inl rfl)
    · exact .refl g
  · exact .refl g

theorem thins_stamp (g : Grid) (p : Position) (id : MissileId) : g.Thins (g.stamp p id) := by
  unfold stamp
  split
  · rename_i hc
    exact thins_write hc rfl (.inr rfl)
  · exact .refl g

theorem thins_resolve? {f f' : Fleet} {c : Collision}
    (h : g.resolve? f mover p radius = .ok (some c, g', f')) : g.Thins g' := by
  rcases resolve?_eq_some h with ⟨_, hg, _⟩ | ⟨ps, spot, hfirst, hg, _⟩
  · exact .of_eq hg
  · rw [hg]
    cases c with
    | offGrid | wall | goal => exact thins_of_cells fun _ => rfl
    | intercept victim | friendly victim =>
        have hspot := (victim_of_firstCollision hfirst rfl).1
        rcases occupant?_eq_some_iff.mp hspot with ⟨b, hb, hid⟩
        exact (thins_write hb hid (.inl rfl)).trans (thins_of_cells fun _ => rfl)

/-!
## Entering a cell
-/

structure Enters (g : Grid) (radius : Int) (id : MissileId) (p : Position) (c : Cell) : Prop where
  radius_nonneg : 0 <= radius
  inBounds : g.inBounds p = true
  absent : forall q, g.occupant? q ≠ some id
  unhindered : forall q b, (p.distance q : Int) <= radius -> g.cell? q = some b ->
    collisionWith id b = none
  cell_eq : c.unmarked = .missile id

theorem resolve?_unhindered {f f' : Fleet}
    (h : g.resolve? f mover p radius = .ok (none, g', f')) {c : Cell}
    (hq : (p.distance q : Int) <= radius) (hc : g.cell? q = some c) :
    collisionWith mover c = none := by
  rcases resolve?_eq_none h with ⟨_, _, _, ps, hps, hnone⟩
  have hmem : q ∈ ps :=
    (mem_square hps).mpr ⟨inBounds_of_cell? hc, Position.distance_le_iff.mp hq⟩
  have hcell := List.findSome?_eq_none_iff.mp hnone q hmem
  rwa [Option.map_eq_none_iff, hc] at hcell

namespace Enters

variable {c : Cell} (h : g.Enters radius id p c)
include h

theorem occupant_eq : c.occupant? = some id := by
  rw [← Cell.occupant?_unmarked, h.cell_eq, Cell.occupant?_missile]

theorem far_of_collision {b : Cell} (hb : g.cell? q = some b) (hne : collisionWith id b ≠ none) :
    radius < p.distance q :=
  Int.not_le.mp fun hle => hne (h.unhindered q b hle hb)

theorem far_of_wall (hq : g.cell? q = some .wall) : radius < p.distance q :=
  h.far_of_collision hq nofun

theorem far_of_goal (hid : id.side = .attacker) (hq : g.cell? q = some .goal) :
    radius < p.distance q :=
  h.far_of_collision hq (by simp [collisionWith, hid])

theorem far_of_occupant {other : MissileId} (hq : g.occupant? q = some other) :
    radius < p.distance q := by
  rcases occupant?_eq_some_iff.mp hq with ⟨b, hb, hother⟩
  apply h.far_of_collision hb
  intro hnone
  exact h.absent q (eq_of_collisionWith_none hnone hother ▸ hq)

theorem not_far_self : ¬ radius < p.distance p := by
  have hradius := h.radius_nonneg
  simp [Position.distance, hradius]

/-- The cell that the missile enters has no missile and is no wall. -/
theorem vacant : g.occupant? p = none ∧ g.cell? p ≠ some .wall := by
  constructor
  · rw [Option.eq_none_iff_forall_not_mem]
    intro other hother
    exact h.not_far_self (h.far_of_occupant hother)
  · intro hwall
    exact h.not_far_self (h.far_of_wall hwall)

theorem defender_of_goal (hp : g.cell? p = some .goal) : c = .defender id := by
  have hcell := h.cell_eq
  cases hside : id.side with
  | attacker => exact absurd (h.far_of_goal hside hp) h.not_far_self
  | defender =>
      rw [Cell.missile, hside] at hcell
      exact Cell.eq_defender_of_unmarked hcell

end Enters

/-!
## Grids in order
-/

/-- Missiles keep clear of what they run into within the radius. -/
structure Separated (g : Grid) (radius : Int) : Prop where
  missiles : forall p q id other, g.occupant? p = some id -> g.occupant? q = some other ->
    p ≠ q -> radius < p.distance q
  walls : forall p q id, g.occupant? p = some id -> g.cell? q = some .wall ->
    radius < p.distance q
  goals : forall p q id mark, g.cell? p = some (.attacker id mark) -> g.cell? q = some .goal ->
    radius < p.distance q

theorem separated_of_vacant (h : forall p, g.occupant? p = none) : g.Separated radius := by
  refine ⟨fun p q id other hp => ?_, fun p q id hp => ?_, fun p q id mark hp => ?_⟩
  · rw [h] at hp
    cases hp
  · rw [h] at hp
    cases hp
  · have hnone := h p
    rw [occupant?, hp] at hnone
    cases hnone

theorem Separated.thin (h : g.Separated radius) (hthins : g.Thins g') :
    g'.Separated radius := by
  refine ⟨fun p q id other hp hq => ?_, fun p q id hp hq => ?_, fun p q id mark hp hq => ?_⟩
  · exact h.missiles p q id other (hthins.occupant hp) (hthins.occupant hq)
  · exact h.walls p q id (hthins.occupant hp) (hthins.wall_iff.mp hq)
  · rcases hthins.cell p _ hp nofun with ⟨b, hb, hattacker⟩
    rcases Cell.eq_attacker_of_unmarked hattacker with ⟨mark', heq⟩
    exact h.goals p q id mark' (heq ▸ hb) (hthins.goal_of hq)

theorem Separated.enter {c : Cell} (h : g.Separated radius) (henters : g.Enters radius id p c) :
    (g.write p c).Separated radius := by
  have hwrite := fun q => cell?_write (q := q) henters.inBounds c
  have hoccupant : forall q, (g.write p c).occupant? q =
      if q = p then some id else g.occupant? q := by
    intro q
    rw [occupant?_write henters.inBounds, henters.occupant_eq]
  have hold : forall {q b}, (g.write p c).cell? q = some b -> b.occupant? = none ->
      g.cell? q = some b := by
    intro q b hq hnone
    rw [hwrite] at hq
    split at hq
    · injection hq with hq
      rw [← hq, henters.occupant_eq] at hnone
      cases hnone
    · exact hq
  refine ⟨fun q r id other hq hr hne => ?_, fun q r id hq hr => ?_, fun q r id mark hq hr => ?_⟩
  · rw [hoccupant] at hq hr
    split at hq
    · rename_i hqp
      rw [if_neg fun hrp => hne (hqp.trans hrp.symm)] at hr
      exact hqp ▸ henters.far_of_occupant hr
    · split at hr
      · rename_i hrp
        rw [hrp, Position.distance_comm]
        exact henters.far_of_occupant hq
      · exact h.missiles q r id other hq hr hne
  · have hwall := hold hr rfl
    rw [hoccupant] at hq
    split at hq
    · rename_i hqp
      exact hqp ▸ henters.far_of_wall hwall
    · exact h.walls q r id hq hwall
  · have hgoal := hold hr rfl
    rw [hwrite] at hq
    split at hq
    · rename_i hqp
      injection hq with hq
      have hside := Cell.side_of_unmarked (hq ▸ henters.cell_eq)
      exact hqp ▸ henters.far_of_goal hside hgoal
    · exact h.goals q r id mark hq hgoal

/-!
## Steps of a grid
-/

def Shifts (g : Grid) (radius : Int) (g' : Grid) : Prop :=
  g.Thins g' ∨ exists id origin p c, (g.clear origin id).2.Enters radius id p c ∧
    g' = (g.clear origin id).2.write p c

theorem Shifts.separated (h : g.Shifts radius g') (hg : g.Separated radius) :
    g'.Separated radius := by
  rcases h with hthins | ⟨id, origin, p, c, henters, heq⟩
  · exact hg.thin hthins
  · rw [heq]
    exact (hg.thin (thins_clear g origin id)).enter henters

theorem Shifts.wall_iff (h : g.Shifts radius g') :
    g'.cell? p = some .wall ↔ g.cell? p = some .wall := by
  rcases h with hthins | ⟨id, origin, r, c, henters, heq⟩
  · exact hthins.wall_iff
  · rw [← (thins_clear g origin id).wall_iff, heq, cell?_write henters.inBounds]
    split
    · rename_i hpr
      subst hpr
      constructor
      · intro hwall
        injection hwall with hwall
        have hoccupant := henters.occupant_eq
        rw [hwall] at hoccupant
        cases hoccupant
      · exact fun hwall => absurd hwall henters.vacant.2
    · exact Iff.rfl

theorem Shifts.goal_of (h : g.Shifts radius g') (hp : g'.cell? p = some .goal) :
    g.cell? p = some .goal := by
  rcases h with hthins | ⟨id, origin, r, c, henters, heq⟩
  · exact hthins.goal_of hp
  · refine (thins_clear g origin id).goal_of ?_
    rw [heq, cell?_write henters.inBounds] at hp
    split at hp
    · have hoccupant := henters.occupant_eq
      injection hp with hc
      rw [hc] at hoccupant
      cases hoccupant
    · exact hp

theorem Shifts.goal (h : g.Shifts radius g') (hp : g.cell? p = some .goal) :
    g'.cell? p = some .goal ∨ exists id, g'.cell? p = some (.defender id) := by
  rcases h with hthins | ⟨id, origin, r, c, henters, heq⟩
  · exact .inl (hthins.ground p .goal hp rfl)
  · have hcleared := (thins_clear g origin id).ground p .goal hp rfl
    rw [heq, cell?_write henters.inBounds]
    split
    · rename_i hpr
      subst hpr
      exact .inr ⟨id, congrArg some (henters.defender_of_goal hcleared)⟩
    · exact .inl hcleared

theorem Shifts.occupant (h : g.Shifts radius g') (hp : g'.occupant? p = some id) :
    g.occupant? p = some id ∨ (g.occupant? p = none ∧ g.cell? p ≠ some .wall) := by
  rcases h with hthins | ⟨other, origin, r, c, henters, heq⟩
  · exact .inl (hthins.occupant hp)
  · have hcleared := thins_clear g origin other
    rw [heq, occupant?_write henters.inBounds] at hp
    split at hp
    · rename_i hpr
      subst hpr
      rcases henters.vacant with ⟨hvacant, hwall⟩
      rw [henters.occupant_eq] at hp
      injection hp with hid
      subst hid
      rw [occupant?_clear] at hvacant
      split at hvacant
      · rename_i hown
        exact .inl (hown.1 ▸ hown.2)
      · exact .inr ⟨hvacant, fun hbefore => hwall (hcleared.wall p hbefore)⟩
    · exact .inl (hcleared.occupant hp)

end Grid
end AirDefense

import AirDefense.Field.Collision
import AirDefense.Proofs.Field.Occupancy

/-!
# What a move runs into

The square around a position of the grid has all the positions within its radius,
as long as its corners are numbers of 32 bits.  A move that finds no collision
there finds no other missile; a collision takes one missile off the grid at most,
and that one is asked to stop.
-/

namespace AirDefense

def Collision.victim? : Collision -> Option MissileId
  | .intercept victim => some victim
  | .friendly victim => some victim
  | .offGrid => none
  | .wall => none
  | .goal => none

/-- The bounds of the square around `p` are numbers of 32 bits. -/
structure Position.SquareFits (p : Position) (radius : Int) : Prop where
  left : Bounded.Fits (p.x - radius)
  right : Bounded.Fits (p.x + radius)
  top : Bounded.Fits (p.y - radius)
  bottom : Bounded.Fits (p.y + radius)

namespace Grid

variable {g : Grid} {p q : Position} {mover id : MissileId} {radius : Int}

/-!
## Squares
-/

structure HasRoom (g : Grid) (radius : Int) : Prop where
  radius_nonneg : 0 <= radius
  width_le : g.width + radius <= Bounded.greatest
  height_le : g.height + radius <= Bounded.greatest

theorem HasRoom.congr (h : g.HasRoom radius) {g' : Grid} (hwidth : g'.width = g.width)
    (hheight : g'.height = g.height) : g'.HasRoom radius :=
  ⟨h.radius_nonneg, hwidth ▸ h.width_le, hheight ▸ h.height_le⟩

theorem mem_span {first last n : Int} : n ∈ span first last ↔ first <= n ∧ n <= last := by
  unfold span
  simp only [List.mem_map, List.mem_range]
  constructor
  · rintro ⟨k, hk, heq⟩
    omega
  · rintro ⟨hfirst, hlast⟩
    exact ⟨(n - first).toNat, by omega, by omega⟩

theorem square?_eq_ok_iff {ps : List Position} :
    g.square? p radius = .ok ps ↔ p.SquareFits radius ∧
      ((span (max (p.y - radius) 0) (min (p.y + radius) (g.height - 1))).flatMap fun y =>
        (span (max (p.x - radius) 0) (min (p.x + radius) (g.width - 1))).map fun x =>
          (⟨x, y⟩ : Position)) = ps := by
  unfold square?
  simp only [bind_eq_ok, Bounded.sub?_eq_ok, Bounded.add?_eq_ok, pure_eq_ok]
  constructor
  · rintro ⟨_, ⟨hleft, rfl⟩, _, ⟨hright, rfl⟩, _, ⟨htop, rfl⟩, _, ⟨hbottom, rfl⟩, hps⟩
    exact ⟨⟨hleft, hright, htop, hbottom⟩, hps⟩
  · rintro ⟨h, hps⟩
    exact ⟨_, ⟨h.left, rfl⟩, _, ⟨h.right, rfl⟩, _, ⟨h.top, rfl⟩, _, ⟨h.bottom, rfl⟩, hps⟩

theorem exists_square?_iff :
    (exists ps, g.square? p radius = .ok ps) ↔ p.SquareFits radius := by
  simp only [square?_eq_ok_iff, exists_and_left, exists_eq', and_true]

theorem mem_square {centre : Position} {ps : List Position}
    (h : g.square? centre radius = .ok ps) :
    p ∈ ps ↔ g.inBounds p = true ∧
      centre.x - radius <= p.x ∧ p.x <= centre.x + radius ∧
      centre.y - radius <= p.y ∧ p.y <= centre.y + radius := by
  rw [← (square?_eq_ok_iff.mp h).2, inBounds_iff]
  simp only [List.mem_flatMap, List.mem_map, mem_span]
  constructor
  · rintro ⟨y, hy, x, hx, heq⟩
    rw [← heq]
    simp only
    omega
  · intro hp
    exact ⟨p.y, by omega, p.x, by omega, rfl⟩

theorem HasRoom.square? (h : g.HasRoom radius) {centre : Position}
    (hcentre : g.inBounds centre = true) : exists ps, g.square? centre radius = .ok ps := by
  rcases inBounds_iff.mp hcentre with ⟨hx, hxw, hy, hyh⟩
  have hradius := h.radius_nonneg
  have hwidth := h.width_le
  have hheight := h.height_le
  refine exists_square?_iff.mpr ⟨?_, ?_, ?_, ?_⟩ <;>
    unfold Bounded.Fits Bounded.least Bounded.greatest at * <;> omega

/-!
## The first collision
-/

theorem eq_of_collisionWithMissile_none (h : collisionWithMissile mover id = none) :
    id = mover := by
  unfold collisionWithMissile at h
  split at h
  · assumption
  · split at h <;> cases h

theorem eq_of_collisionWith_none {c : Cell} (h : collisionWith mover c = none)
    (hid : c.occupant? = some id) : id = mover := by
  cases c with
  | empty => cases hid
  | wall => cases hid
  | goal => cases hid
  | attacker occupant mark =>
      injection hid with hid
      exact hid ▸ eq_of_collisionWithMissile_none h
  | defender occupant =>
      injection hid with hid
      exact hid ▸ eq_of_collisionWithMissile_none h

theorem victim_of_collisionWithMissile {c : Collision}
    (h : collisionWithMissile mover id = some c) : c.victim? = some id ∧ id ≠ mover := by
  unfold collisionWithMissile at h
  split at h
  · cases h
  · rename_i hne
    split at h <;> cases h <;> exact ⟨rfl, hne⟩

theorem victim_of_collisionWith {cell : Cell} {c : Collision}
    (h : collisionWith mover cell = some c) {victim : MissileId}
    (hvictim : c.victim? = some victim) : cell.occupant? = some victim ∧ victim ≠ mover := by
  cases cell with
  | empty => cases h
  | wall =>
      cases h
      cases hvictim
  | goal =>
      simp only [collisionWith] at h
      split at h
      · cases h
        cases hvictim
      · cases h
  | attacker occupant mark =>
      rcases victim_of_collisionWithMissile h with ⟨heq, hne⟩
      have hsame : occupant = victim := Option.some.inj (heq.symm.trans hvictim)
      exact hsame ▸ ⟨rfl, hne⟩
  | defender occupant =>
      rcases victim_of_collisionWithMissile h with ⟨heq, hne⟩
      have hsame : occupant = victim := Option.some.inj (heq.symm.trans hvictim)
      exact hsame ▸ ⟨rfl, hne⟩

theorem eq_of_firstCollision_none {ps : List Position} (h : g.firstCollision mover ps = none)
    (hp : p ∈ ps) (hid : g.occupant? p = some id) : id = mover := by
  have hnone := List.findSome?_eq_none_iff.mp h p hp
  rw [Option.map_eq_none_iff] at hnone
  unfold occupant? at hid
  cases hc : g.cell? p with
  | none =>
      rw [hc] at hid
      cases hid
  | some c =>
      rw [hc] at hid hnone
      exact eq_of_collisionWith_none hnone hid

theorem victim_of_firstCollision {ps : List Position} {spot : Position} {c : Collision}
    (h : g.firstCollision mover ps = some (spot, c)) {victim : MissileId}
    (hvictim : c.victim? = some victim) :
    g.occupant? spot = some victim ∧ victim ≠ mover := by
  rcases List.exists_of_findSome?_eq_some h with ⟨p, _, hp⟩
  rcases Option.map_eq_some_iff.mp hp with ⟨c', hc', heq⟩
  injection heq with hspot hcollision
  subst hspot hcollision
  cases hcell : g.cell? p with
  | none =>
      rw [hcell] at hc'
      cases hc'
  | some cell =>
      rw [hcell] at hc'
      rw [occupant?, hcell]
      exact victim_of_collisionWith hc' hvictim

/-!
## Collisions on the grid
-/

theorem occupant?_settle_victim {c : Collision} {victim : MissileId}
    (hvictim : c.victim? = some victim) (hp : g.inBounds p = true) :
    (g.settle p c).occupant? q = if q = p then none else g.occupant? q := by
  cases c with
  | offGrid => cases hvictim
  | wall => cases hvictim
  | goal => cases hvictim
  | intercept v => exact occupant?_write hp .empty
  | friendly v => exact occupant?_write hp .empty

theorem occupant?_settle_none {c : Collision} (hvictim : c.victim? = none) :
    (g.settle p c).occupant? q = g.occupant? q := by
  cases c with
  | offGrid => rfl
  | wall => rfl
  | goal => rfl
  | intercept v => cases hvictim
  | friendly v => cases hvictim

@[simp] theorem width_settle (c : Collision) : (g.settle p c).width = g.width := by
  cases c <;> rfl

@[simp] theorem height_settle (c : Collision) : (g.settle p c).height = g.height := by
  cases c <;> rfl

theorem strike_victim {f : Fleet} {c : Collision} {victim : MissileId}
    (hvictim : c.victim? = some victim) : strike f c = f.markDeleted victim := by
  cases c with
  | offGrid => cases hvictim
  | wall => cases hvictim
  | goal => cases hvictim
  | intercept v =>
      injection hvictim with hvictim
      rw [← hvictim]
      rfl
  | friendly v =>
      injection hvictim with hvictim
      rw [← hvictim]
      rfl

theorem strike_none {f : Fleet} {c : Collision} (hvictim : c.victim? = none) :
    strike f c = f := by
  cases c with
  | offGrid => rfl
  | wall => rfl
  | goal => rfl
  | intercept v => cases hvictim
  | friendly v => cases hvictim

/-!
## Moves
-/

variable {f : Fleet} {g' : Grid} {f' : Fleet}

theorem resolve?_of_square (hp : g.inBounds p = true) {around : List Position}
    (haround : g.square? p radius = .ok around) (fleet : Fleet) (mover : MissileId) :
    g.resolve? fleet mover p radius = .ok
      (match g.firstCollision mover around with
        | none => (none, g, fleet)
        | some (spot, c) => (some c, g.settle spot c, strike fleet c)) := by
  unfold resolve?
  rw [hp, haround]
  rfl

theorem HasRoom.resolve? (h : g.HasRoom radius) (f : Fleet) (mover : MissileId) (p : Position) :
    exists outcome, g.resolve? f mover p radius = .ok outcome := by
  cases hp : g.inBounds p with
  | false => exact ⟨(some .offGrid, g, f), by rw [Grid.resolve?, hp]; rfl⟩
  | true =>
      rcases h.square? hp with ⟨ps, hps⟩
      exact ⟨_, resolve?_of_square hp hps f mover⟩

/-- All that a move can come to. -/
theorem resolve?_cases {c? : Option Collision}
    (h : g.resolve? f mover p radius = .ok (c?, g', f')) :
    (g.inBounds p = false ∧ c? = some .offGrid ∧ g' = g ∧ f' = f) ∨
      g.inBounds p = true ∧ exists ps, g.square? p radius = .ok ps ∧
        ((g.firstCollision mover ps = none ∧ c? = none ∧ g' = g ∧ f' = f) ∨
          exists spot c, g.firstCollision mover ps = some (spot, c) ∧ c? = some c ∧
            g' = g.settle spot c ∧ f' = strike f c) := by
  cases hp : g.inBounds p with
  | false =>
      rw [resolve?, hp] at h
      cases h
      exact .inl ⟨rfl, rfl, rfl, rfl⟩
  | true =>
      unfold resolve? at h
      rw [hp] at h
      rcases bind_eq_ok.mp h with ⟨ps, hps, h⟩
      have heq := pure_eq_ok.mp h
      refine .inr ⟨rfl, ps, hps, ?_⟩
      cases hfirst : g.firstCollision mover ps with
      | none =>
          rw [hfirst] at heq
          cases heq
          exact .inl ⟨rfl, rfl, rfl, rfl⟩
      | some found =>
          rw [hfirst] at heq
          cases heq
          exact .inr ⟨found.1, found.2, rfl, rfl, rfl, rfl⟩

theorem resolve?_eq_none (h : g.resolve? f mover p radius = .ok (none, g', f')) :
    g.inBounds p = true ∧ g' = g ∧ f' = f ∧
      exists ps, g.square? p radius = .ok ps ∧ g.firstCollision mover ps = none := by
  rcases resolve?_cases h with ⟨_, hc, _⟩ | ⟨hp, ps, hps, ⟨hnone, _, hg, hf⟩ | ⟨_, _, _, hc, _⟩⟩
  · cases hc
  · exact ⟨hp, hg, hf, ps, hps, hnone⟩
  · cases hc

theorem resolve?_free (h : g.resolve? f mover p radius = .ok (none, g', f')) :
    g.inBounds p = true ∧
      forall q id, q.x <= p.x + radius -> p.x - radius <= q.x ->
        q.y <= p.y + radius -> p.y - radius <= q.y ->
        g.occupant? q = some id -> id = mover := by
  rcases resolve?_eq_none h with ⟨hp, _, _, ps, hps, hnone⟩
  refine ⟨hp, fun q id hright hleft hbottom htop hid => ?_⟩
  have hq := inBounds_of_occupant? hid
  exact eq_of_firstCollision_none hnone
    ((mem_square hps).mpr ⟨hq, hleft, hright, htop, hbottom⟩) hid

theorem resolve?_eq_some {c : Collision}
    (h : g.resolve? f mover p radius = .ok (some c, g', f')) :
    (c = .offGrid ∧ g' = g ∧ f' = f) ∨
      exists ps spot, g.firstCollision mover ps = some (spot, c) ∧ g' = g.settle spot c ∧
        f' = strike f c := by
  rcases resolve?_cases h with ⟨_, hc, hg, hf⟩ |
    ⟨_, ps, _, ⟨_, hc, _⟩ | ⟨spot, c', hfirst, hc, hg, hf⟩⟩
  · exact .inl ⟨Option.some.inj hc, hg, hf⟩
  · cases hc
  · rw [Option.some.inj hc]
    exact .inr ⟨ps, spot, hfirst, hg, hf⟩

theorem resolve?_collided {c : Collision}
    (h : g.resolve? f mover p radius = .ok (some c, g', f')) :
    g'.width = g.width ∧ g'.height = g.height ∧
      ((f' = f ∧ forall q, g'.occupant? q = g.occupant? q) ∨
        exists spot victim, g.occupant? spot = some victim ∧ victim ≠ mover ∧
          f' = f.markDeleted victim ∧
          forall q, g'.occupant? q = if q = spot then none else g.occupant? q) := by
  rcases resolve?_eq_some h with ⟨_, hg, hf⟩ | ⟨ps, spot, hfirst, hg, hf⟩
  · rw [hg, hf]
    exact ⟨rfl, rfl, .inl ⟨rfl, fun q => rfl⟩⟩
  · rw [hg, hf]
    refine ⟨width_settle _, height_settle _, ?_⟩
    cases hvictim : c.victim? with
    | none =>
        exact .inl ⟨strike_none hvictim, fun q => occupant?_settle_none hvictim⟩
    | some victim =>
        rcases victim_of_firstCollision hfirst hvictim with ⟨hspot, hne⟩
        exact .inr ⟨spot, victim, hspot, hne, strike_victim hvictim,
          fun q => occupant?_settle_victim hvictim (inBounds_of_occupant? hspot)⟩

end Grid
end AirDefense

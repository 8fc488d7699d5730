import AirDefense.Proofs.Field.Separation

/-!
# The bands of a fresh grid

A fresh grid shows at each position on it what was painted there: wall near the border,
goal in the rows below the first one of the goal band, and nothing in between.  A missile
that moves where there is nothing else in its square collides with nothing; one that has
walls in its square, and nothing else, collides with a wall.
-/

namespace AirDefense
namespace Grid

variable {g : Grid} {f : FieldSettings} {p q : Position} {radius : Int}

/-!
## What was painted
-/

theorem painted_eq_wall_iff {wall right bottom goalStart x y : Int} :
    painted wall right bottom goalStart x y = .wall ↔
      x < wall ∨ y < wall ∨ right <= x ∨ bottom <= y := by
  unfold painted
  simp only [Bool.or_eq_true, decide_eq_true_eq, or_assoc]
  split
  · rename_i hwall
    simp [hwall]
  · rename_i hinside
    simp only [hinside, iff_false]
    split <;> simp

theorem painted_of_inside {wall right bottom goalStart x y : Int} (hleft : wall <= x)
    (htop : wall <= y) (hright : x < right) (hbottom : y < bottom) :
    painted wall right bottom goalStart x y = if goalStart < y then .goal else .empty := by
  unfold painted
  rw [if_neg]
  simp only [Bool.or_eq_true, decide_eq_true_eq]
  omega

def bandAt (f : FieldSettings) (p : Position) : Cell :=
  painted f.wallThickness (f.width - f.wallThickness) (f.height - f.wallThickness)
    f.goalStartRow p.x p.y

theorem getElem?_paint {width height : Nat} {wall right bottom goalStart : Int} {i : Nat}
    (hi : i < width * height) :
    (paint width height wall right bottom goalStart)[i]? =
      some (painted wall right bottom goalStart (i % width : Nat) (i / width : Nat)) := by
  simp [paint, hi]

theorem cells_of_ofSettings? (h : ofSettings? f = .ok g) (hp : g.inBounds p = true) :
    g.cells = paint f.width.toNat f.height.toNat f.wallThickness (f.width - f.wallThickness)
      (f.height - f.wallThickness) f.goalStartRow := by
  rcases ofSettings?_spec h with ⟨_, hwidth, hheight, _⟩
  rcases inBounds_iff.mp hp with ⟨hx, hxw, hy, hyh⟩
  rcases bind_eq_ok.mp h with ⟨area, _, h⟩
  split at h
  · cases h
  · split at h
    · rename_i hempty
      omega
    · rcases bind_eq_ok.mp h with ⟨right, hright, h⟩
      rcases bind_eq_ok.mp h with ⟨bottom, hbottom, h⟩
      rw [← pure_eq_ok.mp h, (Bounded.sub?_eq_ok.mp hright).2, (Bounded.sub?_eq_ok.mp hbottom).2]

theorem cell?_of_ofSettings? (h : ofSettings? f = .ok g) (hp : g.inBounds p = true) :
    g.cell? p = some (bandAt f p) := by
  rcases ofSettings?_spec h with ⟨_, hwidth, hheight, _⟩
  rcases inBounds_iff.mp hp with ⟨hx, hxw, hy, hyh⟩
  have hcolumn : ((g.place p : Nat) : Int) % g.width = p.x :=
    congrArg Position.x (positionOf_place hp)
  have hrow : ((g.place p : Nat) : Int) / g.width = p.y :=
    congrArg Position.y (positionOf_place hp)
  have hlt := place_lt hp
  rw [g.size_cells, hwidth, hheight] at hlt
  have hnonneg : ((f.width.toNat : Nat) : Int) = g.width := by omega
  rw [cell?, if_pos hp, cells_of_ofSettings? h hp, getElem?_paint hlt, bandAt,
    Int.natCast_emod, Int.natCast_ediv, hnonneg, hcolumn, hrow]

/-!
## Moves among bands
-/

variable {around : List Position} {mover : MissileId}

theorem firstCollision_of_empty (hcells : forall q, q ∈ around -> g.cell? q = some .empty) :
    g.firstCollision mover around = none := by
  refine List.findSome?_eq_none_iff.mpr fun q hq => ?_
  rw [hcells q hq]
  rfl

theorem firstCollision_of_wall
    (hcells : forall q, q ∈ around -> g.cell? q = some .empty ∨ g.cell? q = some .wall)
    (hwall : exists q, q ∈ around ∧ g.cell? q = some .wall) :
    exists spot, g.firstCollision mover around = some (spot, .wall) := by
  cases hfirst : g.firstCollision mover around with
  | none =>
      rcases hwall with ⟨q, hq, hcell⟩
      have hnone := List.findSome?_eq_none_iff.mp hfirst q hq
      rw [hcell] at hnone
      cases hnone
  | some found =>
      rcases List.exists_of_findSome?_eq_some hfirst with ⟨q, hq, hfound⟩
      rcases hcells q hq with hcell | hcell <;> rw [hcell] at hfound
      · cases hfound
      · exact ⟨q, by rw [← Option.some.inj hfound]⟩

theorem resolve?_of_empty (hroom : g.HasRoom radius) (hp : g.inBounds p = true)
    (hcells : forall q, g.inBounds q = true -> p.distance q <= radius -> g.cell? q = some .empty)
    (fleet : Fleet) (mover : MissileId) :
    g.resolve? fleet mover p radius = .ok (none, g, fleet) := by
  rcases hroom.square? hp with ⟨around, haround⟩
  have hnone : g.firstCollision mover around = none := by
    refine firstCollision_of_empty fun q hq => ?_
    rcases (mem_square haround).mp hq with ⟨hin, hnear⟩
    exact hcells q hin (Position.distance_le_iff.mpr hnear)
  rw [resolve?_of_square hp haround, hnone]

theorem resolve?_of_wall (hroom : g.HasRoom radius) (hp : g.inBounds p = true)
    (hcells : forall q, g.inBounds q = true -> p.distance q <= radius ->
      g.cell? q = some .empty ∨ g.cell? q = some .wall)
    (hq : g.inBounds q = true) (hnear : p.distance q <= radius) (hwall : g.cell? q = some .wall)
    (fleet : Fleet) (mover : MissileId) :
    g.resolve? fleet mover p radius = .ok (some .wall, g, fleet) := by
  rcases hroom.square? hp with ⟨around, haround⟩
  have hfirst : exists spot, g.firstCollision mover around = some (spot, .wall) := by
    refine firstCollision_of_wall (fun r hr => ?_)
      ⟨q, (mem_square haround).mpr ⟨hq, Position.distance_le_iff.mp hnear⟩, hwall⟩
    rcases (mem_square haround).mp hr with ⟨hin, hclose⟩
    exact hcells r hin (Position.distance_le_iff.mpr hclose)
  rcases hfirst with ⟨spot, hspot⟩
  rw [resolve?_of_square hp haround, hspot]
  rfl

end Grid
end AirDefense

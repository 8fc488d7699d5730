import AirDefense.Intercept.Launch
import AirDefense.Proofs.Field.Bands
import AirDefense.Proofs.Settings.Rules
import AirDefense.Proofs.Spawn.Draw
import Mathlib.Control.Monad.Basic

/-!
# Where missiles begin

Attackers begin in the first row that a missile fits into below the top wall, interceptors
in the launch row, and both between the columns that a missile fits into beside the walls.
Under valid settings the squares around such positions reach neither the walls at the sides
nor the one at the top nor the goal band.  As for the wall at the bottom, the row of the
attackers is clear of it; the launch row need not be, as no rule compares it with that wall.
-/

namespace AirDefense
namespace FieldSettings

variable {f : FieldSettings} {g : Grid} {p q : Position}

/-!
## Squares that reach no wall but the one at the bottom
-/

/-- A missile at the position touches neither the other three walls nor the goal band. -/
structure Sheltered (f : FieldSettings) (p : Position) : Prop where
  left : f.wallThickness + f.missileRadius < p.x
  right : p.x + f.missileRadius < f.width - f.wallThickness
  top : f.wallThickness + f.missileRadius < p.y
  goal : p.y + f.missileRadius <= f.goalStartRow

theorem sheltered_of_interior {x y : Int} (hmin : f.wallThickness + f.missileRadius + 1 <= x)
    (hmax : x <= f.width - f.wallThickness - f.missileRadius - 2)
    (htop : f.wallThickness + f.missileRadius < y) (hgoal : y + f.missileRadius <= f.goalStartRow) :
    f.Sheltered ⟨x, y⟩ :=
  { left := Int.lt_of_add_one_le hmin
    right := by
      show x + f.missileRadius < _
      omega
    top := htop
    goal := hgoal }

theorem Sheltered.inBounds (h : f.Sheltered p) (hf : f.HasInterior)
    (hg : Grid.ofSettings? f = .ok g) : g.inBounds p = true := by
  rcases Grid.ofSettings?_spec hg with ⟨_, hwidth, hheight, _⟩
  have hleft := h.left
  have hright := h.right
  have htop := h.top
  have hgoal := h.goal
  have hwall := hf.wall_pos
  have hradius := hf.radius_pos
  have hlow := hf.goal_lt_height
  exact Grid.inBounds_iff.mpr ⟨by omega, by omega, by omega, by omega⟩

theorem Sheltered.bandAt_eq (h : f.Sheltered p) (hnear : p.distance q <= f.missileRadius) :
    Grid.bandAt f q = if f.height - f.wallThickness <= q.y then .wall else .empty := by
  rcases Position.distance_le_iff.mp hnear with ⟨hleft, hright, htop, hbottom⟩
  have hleast := h.left
  have hgreatest := h.right
  have hupper := h.top
  have hlower := h.goal
  split
  · rename_i hwall
    exact Grid.painted_eq_wall_iff.mpr (.inr (.inr (.inr hwall)))
  · rename_i hinside
    rw [Grid.bandAt, Grid.painted_of_inside (by omega) (by omega) (by omega) (by omega)]
    exact if_neg (by omega)

theorem Sheltered.cell?_eq (h : f.Sheltered p) (hg : Grid.ofSettings? f = .ok g)
    (hnear : p.distance q <= f.missileRadius) (hq : g.inBounds q = true) :
    g.cell? q = some (if f.height - f.wallThickness <= q.y then .wall else .empty) := by
  rw [Grid.cell?_of_ofSettings? hg hq, h.bandAt_eq hnear]

theorem Sheltered.cell?_ne_goal (h : f.Sheltered p) (hg : Grid.ofSettings? f = .ok g)
    (hnear : p.distance q <= f.missileRadius) : g.cell? q ≠ some .goal := by
  intro hgoal
  rw [h.cell?_eq hg hnear (Grid.inBounds_of_cell? hgoal)] at hgoal
  split at hgoal <;> cases hgoal

theorem Sheltered.exists_wall (h : f.Sheltered p) (hf : f.HasInterior)
    (hg : Grid.ofSettings? f = .ok g)
    (hreach : f.height - f.wallThickness <= p.y + f.missileRadius) :
    exists q, p.distance q <= f.missileRadius ∧ g.cell? q = some .wall := by
  rcases (⟨⟨p.x, p.y + f.missileRadius⟩, rfl, rfl⟩ :
    exists q : Position, q.x = p.x ∧ q.y = p.y + f.missileRadius) with ⟨q, hx, hy⟩
  rcases Grid.ofSettings?_spec hg with ⟨_, hwidth, hheight, _⟩
  have hradius := hf.radius_pos
  have hgoal := h.goal
  have hlow := hf.goal_lt_height
  have hp := Grid.inBounds_iff.mp (h.inBounds hf hg)
  have hnear : p.distance q <= f.missileRadius :=
    Position.distance_le_iff.mpr ⟨by omega, by omega, by omega, by omega⟩
  have hin : g.inBounds q = true :=
    Grid.inBounds_iff.mpr ⟨by omega, by omega, by omega, by omega⟩
  exact ⟨q, hnear, by rw [h.cell?_eq hg hnear hin, if_pos (by omega)]⟩

theorem Sheltered.cell?_ne_wall_iff (h : f.Sheltered p) (hf : f.HasInterior)
    (hg : Grid.ofSettings? f = .ok g) :
    (forall q, p.distance q <= f.missileRadius -> g.cell? q ≠ some .wall) ↔
      p.y + f.missileRadius < f.height - f.wallThickness := by
  constructor
  · intro hclear
    by_contra hreach
    rcases h.exists_wall hf hg (Int.not_lt.mp hreach) with ⟨q, hnear, hwall⟩
    exact hclear q hnear hwall
  · intro hclear q hnear hwall
    have hbelow := (Position.distance_le_iff.mp hnear).2.2.2
    rw [h.cell?_eq hg hnear (Grid.inBounds_of_cell? hwall), if_neg (by omega)] at hwall
    cases hwall

/-- Nobody runs into anything at such a position but into the wall at the bottom. -/
theorem Sheltered.resolve?_eq (h : f.Sheltered p) (hf : f.HasInterior)
    (hg : Grid.ofSettings? f = .ok g) (fleet : Fleet) (mover : MissileId) :
    g.resolve? fleet mover p f.missileRadius = .ok
      (if p.y + f.missileRadius < f.height - f.wallThickness then none else some .wall,
        g, fleet) := by
  have hroom := hf.hasRoom hg
  have hp := h.inBounds hf hg
  split
  · rename_i hclear
    refine Grid.resolve?_of_empty hroom hp (fun q hq hnear => ?_) fleet mover
    have hbelow := (Position.distance_le_iff.mp hnear).2.2.2
    rw [h.cell?_eq hg hnear hq, if_neg (by omega)]
  · rename_i hreach
    rcases h.exists_wall hf hg (Int.not_lt.mp hreach) with ⟨r, hnear, hwall⟩
    refine Grid.resolve?_of_wall hroom hp (fun q hq hclose => ?_)
      (Grid.inBounds_of_cell? hwall) hnear hwall fleet mover
    rw [h.cell?_eq hg hclose hq]
    split
    · exact .inr rfl
    · exact .inl rfl

end FieldSettings

namespace Settings

/-!
## Where interceptors begin
-/

variable {s : Settings} {g : Grid}

theorem launchBounds?_of_validate (h : s.validate = .ok (.ok ()))
    (hg : Grid.ofSettings? s.field = .ok g) :
    exists b, s.launchBounds? = .ok b ∧
      forall x, b.least <= x -> x <= b.greatest -> s.field.Sheltered ⟨x, b.row⟩ := by
  rcases launchRow?_of_validate h with ⟨row, hrow, hbelow, habove⟩
  rcases (hasInterior_of_validate h).interior hg with ⟨hleast, hgreatest⟩
  refine ⟨_, bind_eq_ok.mpr ⟨row, hrow, bind_eq_ok.mpr ⟨_, hleast,
    bind_eq_ok.mpr ⟨_, hgreatest, rfl⟩⟩⟩, fun x hmin hmax => ?_⟩
  exact FieldSettings.sheltered_of_interior hmin hmax hbelow (Int.le_of_lt habove)

/--
Under valid settings an interceptor that begins in the launch row touches no goal and no
wall but the one at the bottom, which it touches just when its square reaches that far down.
-/
theorem launch_row_clear_above_bottom_wall {s : Settings} {g : Grid}
    (h : s.validate = .ok (.ok ())) (hg : Grid.ofSettings? s.field = .ok g) :
    exists b, s.launchBounds? = .ok b ∧
      forall x, b.least <= x -> x <= b.greatest ->
        let p : Position := ⟨x, b.row⟩
        let r := s.field.missileRadius
        let bottom := s.field.height - s.field.wallThickness
        (forall q, p.distance q <= r -> g.cell? q ≠ some .goal) ∧
          ((forall q, p.distance q <= r -> g.cell? q ≠ some .wall) ↔ b.row + r < bottom) ∧
          forall fleet mover, g.resolve? fleet mover p r =
            .ok (if b.row + r < bottom then none else some .wall, g, fleet) := by
  have hf := hasInterior_of_validate h
  rcases launchBounds?_of_validate h hg with ⟨b, hb, hsheltered⟩
  refine ⟨b, hb, fun x hmin hmax => ?_⟩
  have hp := hsheltered x hmin hmax
  exact ⟨fun q hnear => hp.cell?_ne_goal hg hnear, hp.cell?_ne_wall_iff hf hg,
    hp.resolve?_eq hf hg⟩

def buried (row : Option Int) : Settings :=
  { field :=
      { width := 20, height := 20, wallThickness := 3, goalStartRow := 19, missileRadius := 1 }
    defender := { launchRow := row } }

theorem launch_row_clear_above_bottom_wall_buried :
    (buried (some 15)).validate = .ok (.ok ()) ∧ exists g,
      Grid.ofSettings? (buried (some 15)).field = .ok g ∧
        forall mover, g.resolve? (.ofCapacities 1 1) mover ⟨10, 15⟩ 1 =
          .ok (none, g, .ofCapacities 1 1) := by
  have hvalid : (buried (some 15)).validate = .ok (.ok ()) := by decide +kernel
  rcases (hasInterior_of_validate hvalid).exists_grid (by decide) with ⟨g, hg⟩
  rcases launch_row_clear_above_bottom_wall hvalid hg with ⟨b, hb, hclear⟩
  have hbounds : (buried (some 15)).launchBounds? = .ok ⟨15, 5, 14⟩ := rfl
  cases hb.symm.trans hbounds
  exact ⟨hvalid, g, hg, (hclear 10 (by decide) (by decide)).2.2 _⟩

/--
The launch row that the field itself gives is too low for it, and so is a lower one that the
settings name: an interceptor that begins there runs into the wall at the bottom.
-/
theorem interceptor_begins_in_wall :
    ((buried none).validate = .ok (.ok ()) ∧ (buried none).launchBounds? = .ok ⟨16, 5, 14⟩) ∧
      ((buried (some 17)).validate = .ok (.ok ()) ∧
        (buried (some 17)).launchBounds? = .ok ⟨17, 5, 14⟩) ∧
        exists g, Grid.ofSettings? (buried none).field = .ok g ∧
          g.cell? ⟨10, 17⟩ = some .wall ∧ forall fleet row, row = 16 ∨ row = 17 ->
            g.resolve? fleet ⟨.defender, 0, 1⟩ ⟨10, row⟩ 1 = .ok (some .wall, g, fleet) := by
  have hvalid : (buried none).validate = .ok (.ok ()) := by decide +kernel
  have hlower : (buried (some 17)).validate = .ok (.ok ()) := by decide +kernel
  have hf := hasInterior_of_validate hvalid
  rcases hf.exists_grid (by decide) with ⟨g, hg⟩
  rcases Grid.ofSettings?_spec hg with ⟨_, hwidth, hheight, _⟩
  have hwall : g.inBounds ⟨10, 17⟩ = true := by
    rw [Grid.inBounds, hwidth, hheight]
    rfl
  refine ⟨⟨hvalid, rfl⟩, ⟨hlower, rfl⟩, g, hg, Grid.cell?_of_ofSettings? hg hwall, ?_⟩
  intro fleet row hrow
  have hsheltered : (buried none).field.Sheltered ⟨10, row⟩ := by
    refine FieldSettings.sheltered_of_interior (by decide) (by decide) ?_ ?_
    · show 3 + 1 < row
      omega
    · show row + 1 <= 19
      omega
  refine (hsheltered.resolve?_eq hf hg fleet _).trans ?_
  rw [if_neg]
  show ¬ row + 1 < 20 - 3
  omega

/-!
## Where attackers begin
-/

/--
Under valid settings there are columns for attackers to begin in, and one of them is drawn
from any key stream that the draw comes to an end with.  An attacker that begins in any of
them, in the first row that a missile fits into, is on the grid and touches nothing.
-/
theorem spawn_row_is_clear {s : Settings} {g : Grid} (h : s.validate = .ok (.ok ()))
    (hg : Grid.ofSettings? s.field = .ok g) :
    exists least greatest, s.field.leastInterior? = .ok least ∧
      s.field.greatestInterior? = .ok greatest ∧ least <= greatest ∧
        (forall stream, (Draw.integer least greatest).Ends stream ->
          exists x, (Draw.integer least greatest stream).1 = .ok x ∧
            least <= x ∧ x <= greatest) ∧
        forall x, least <= x -> x <= greatest ->
          let p : Position := ⟨x, s.field.wallThickness + s.field.missileRadius + 1⟩
          g.inBounds p = true ∧
            forall fleet mover, g.resolve? fleet mover p s.field.missileRadius =
              .ok (none, g, fleet) := by
  have hf := hasInterior_of_validate h
  rcases hf.interior hg with ⟨hleast, hgreatest⟩
  rcases launchRow?_of_validate h with ⟨row, _, hbelow, habove⟩
  have hwall := hf.wall_pos
  have hradius := hf.radius_pos
  have hwidth := hf.margin_lt_width
  have hheight := hf.margin_lt_height
  refine ⟨_, _, hleast, hgreatest, by omega, fun stream hends => ?_,
    fun x hmin hmax => ?_⟩
  · have hroom := (hf.hasRoom hg).width_le
    rw [(Grid.ofSettings?_spec hg).2.1] at hroom
    refine Draw.exists_integer (by omega) ?_ hends
    unfold Bounded.greatest at hroom
    unfold wordCount
    omega
  · have hp := FieldSettings.sheltered_of_interior hmin hmax (Int.lt_succ _) (by omega)
    refine ⟨hp.inBounds hf hg, fun fleet mover => ?_⟩
    rw [hp.resolve?_eq hf hg, if_pos (by simp only; omega)]

theorem spawn_row_is_clear_buried :
    (buried none).validate = .ok (.ok ()) ∧ exists g,
      Grid.ofSettings? (buried none).field = .ok g ∧ g.inBounds ⟨14, 5⟩ = true ∧
        forall mover, g.resolve? (.ofCapacities 1 1) mover ⟨14, 5⟩ 1 =
          .ok (none, g, .ofCapacities 1 1) := by
  have hvalid : (buried none).validate = .ok (.ok ()) := by decide +kernel
  rcases (hasInterior_of_validate hvalid).exists_grid (by decide) with ⟨g, hg⟩
  rcases spawn_row_is_clear hvalid hg with ⟨least, greatest, hleast, hgreatest, _, _, hclear⟩
  have hfive : (buried none).field.leastInterior? = .ok 5 := rfl
  have hfourteen : (buried none).field.greatestInterior? = .ok 14 := rfl
  cases hleast.symm.trans hfive
  cases hgreatest.symm.trans hfourteen
  rcases hclear 14 (by decide) (by decide) with ⟨hin, hfree⟩
  exact ⟨hvalid, g, hg, hin, hfree _⟩

end Settings
end AirDefense

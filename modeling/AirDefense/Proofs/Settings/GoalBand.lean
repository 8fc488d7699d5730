import AirDefense.Proofs.Field.Bands
import AirDefense.Proofs.Settings.Rules
import Mathlib.Control.Monad.Basic

/-!
# The goal band of a valid field

What is painted as goal lies below the first row of the goal band, between the walls at the
sides and above the one at the bottom.  Every column between the walls has the same rows of
goal.  No rule compares the first row of the band with the wall at the bottom, so a valid
field may have no goal at all.
-/

namespace AirDefense
namespace FieldSettings

variable {f : FieldSettings} {g : Grid}

theorem HasInterior.cell?_eq_goal_iff (h : f.HasInterior) (hg : Grid.ofSettings? f = .ok g)
    {x : Int} (hleft : f.wallThickness <= x) (hright : x < f.width - f.wallThickness) (y : Int) :
    g.cell? ⟨x, y⟩ = some .goal ↔ f.goalStartRow < y ∧ y < f.height - f.wallThickness := by
  rcases Grid.ofSettings?_spec hg with ⟨_, hwidth, hheight, _⟩
  have hwall := h.wall_pos
  have htop := h.wall_lt_goal
  constructor
  · intro hcell
    rw [Grid.cell?_of_ofSettings? hg (Grid.inBounds_of_cell? hcell), Grid.bandAt] at hcell
    have hpainted := Option.some.inj hcell
    have hnot : ¬ (x < f.wallThickness ∨ y < f.wallThickness ∨ f.width - f.wallThickness <= x ∨
        f.height - f.wallThickness <= y) := by
      intro hborder
      rw [Grid.painted_eq_wall_iff.mpr hborder] at hpainted
      cases hpainted
    have hupper : f.wallThickness <= y := by omega
    have hlower : y < f.height - f.wallThickness := by omega
    rw [Grid.painted_of_inside hleft hupper hright hlower] at hpainted
    split at hpainted
    · rename_i hbelow
      exact ⟨hbelow, hlower⟩
    · cases hpainted
  · rintro ⟨hbelow, habove⟩
    have hupper : f.wallThickness <= y := by omega
    have hin : g.inBounds ⟨x, y⟩ = true := by
      rw [Grid.inBounds_iff, hwidth, hheight]
      show 0 <= x ∧ x < f.width ∧ 0 <= y ∧ y < f.height
      omega
    rw [Grid.cell?_of_ofSettings? hg hin, Grid.bandAt,
      Grid.painted_of_inside hleft hupper hright habove, if_pos hbelow]

theorem HasInterior.exists_goal_iff (h : f.HasInterior) (hg : Grid.ofSettings? f = .ok g)
    {x : Int} (hleft : f.wallThickness <= x) (hright : x < f.width - f.wallThickness) :
    (exists y, g.cell? ⟨x, y⟩ = some .goal) ↔
      f.goalStartRow + 1 < f.height - f.wallThickness := by
  constructor
  · rintro ⟨y, hcell⟩
    have hrow := (h.cell?_eq_goal_iff hg hleft hright y).mp hcell
    omega
  · intro hroom
    exact ⟨f.goalStartRow + 1, (h.cell?_eq_goal_iff hg hleft hright _).mpr ⟨by omega, hroom⟩⟩

end FieldSettings

namespace Settings

/--
In a valid field a column between the walls has goal in the rows from the first one of the
goal band down to the wall at the bottom, and nowhere else.  So it has a goal just when there
is such a row.
-/
theorem goal_rows_of_column {s : Settings} {g : Grid} (h : s.validate = .ok (.ok ()))
    (hg : Grid.ofSettings? s.field = .ok g) {x : Int} (hleft : s.field.wallThickness <= x)
    (hright : x < s.field.width - s.field.wallThickness) :
    (forall y, g.cell? ⟨x, y⟩ = some .goal ↔
        s.field.goalStartRow < y ∧ y < s.field.height - s.field.wallThickness) ∧
      ((exists y, g.cell? ⟨x, y⟩ = some .goal) ↔
        s.field.goalStartRow + 1 < s.field.height - s.field.wallThickness) := by
  have hf := hasInterior_of_validate h
  constructor
  · exact hf.cell?_eq_goal_iff hg hleft hright
  · exact hf.exists_goal_iff hg hleft hright

def goalBelow (row : Int) : Settings :=
  { field := { goalStartRow := row } }

theorem goal_rows_of_column_single :
    (goalBelow 476).validate = .ok (.ok ()) ∧ exists g,
      Grid.ofSettings? (goalBelow 476).field = .ok g ∧
        forall y, g.cell? ⟨320, y⟩ = some .goal ↔ y = 477 := by
  have hvalid : (goalBelow 476).validate = .ok (.ok ()) := by decide +kernel
  rcases (hasInterior_of_validate hvalid).exists_grid (by decide) with ⟨g, hg⟩
  refine ⟨hvalid, g, hg, fun y => ?_⟩
  have hrows := (goal_rows_of_column hvalid hg (x := 320) (by decide) (by decide)).1 y
  rw [hrows]
  show 476 < y ∧ y < 480 - 2 ↔ y = 477
  omega

/-- With the band one row lower the field is still valid, but no column has a goal. -/
theorem valid_field_without_goal :
    (goalBelow 477).validate = .ok (.ok ()) ∧ exists g,
      Grid.ofSettings? (goalBelow 477).field = .ok g ∧
        forall x, 2 <= x -> x < 640 - 2 -> ¬ exists y, g.cell? ⟨x, y⟩ = some .goal := by
  have hvalid : (goalBelow 477).validate = .ok (.ok ()) := by decide +kernel
  have hf := hasInterior_of_validate hvalid
  rcases hf.exists_grid (by decide) with ⟨g, hg⟩
  refine ⟨hvalid, g, hg, fun x hleft hright => ?_⟩
  rw [hf.exists_goal_iff hg hleft hright]
  decide

end Settings
end AirDefense

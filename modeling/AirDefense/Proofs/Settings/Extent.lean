import AirDefense.Proofs.Field.Collision
import AirDefense.Settings.Validation

/-!
# The extent of a valid field

Settings that pass validation leave an interior: a missile fits in between the
walls with a row to spare.  As the area of the field is a number of 32 bits, so
are all sums of a position on it and the radius of a missile.
-/

namespace AirDefense

structure FieldSettings.HasInterior (f : FieldSettings) : Prop where
  wall_pos : 1 <= f.wallThickness
  radius_pos : 1 <= f.missileRadius
  margin_lt_width : 2 * (f.wallThickness + f.missileRadius + 1) < f.width
  margin_lt_height : 2 * (f.wallThickness + f.missileRadius + 1) < f.height
  wall_lt_goal : f.wallThickness < f.goalStartRow
  goal_lt_height : f.goalStartRow < f.height

namespace Settings

theorem hasInterior_of_validateExtent {f : FieldSettings}
    (h : validateExtent f = .ok (.ok ())) : f.HasInterior := by
  unfold validateExtent at h
  split at h
  · cases h
  · rename_i hwall
    split at h
    · cases h
    · rename_i hradius
      rcases bind_eq_ok.mp h with ⟨edge, hedge, h⟩
      rcases bind_eq_ok.mp h with ⟨margin, hmargin, h⟩
      rcases bind_eq_ok.mp hedge with ⟨inner, hinner, hedge⟩
      have hsum := (Bounded.add?_eq_ok.mp hinner).2
      have hinterior := (Bounded.add?_eq_ok.mp hedge).2
      have hdouble := (Bounded.mul?_eq_ok.mp hmargin).2
      split at h
      · cases h
      · rename_i hroom
        split at h
        · cases h
        · rename_i hgoal
          simp only [Bool.or_eq_true, decide_eq_true_eq, not_or] at hroom hgoal
          exact
            { wall_pos := by omega
              radius_pos := by omega
              margin_lt_width := by omega
              margin_lt_height := by omega
              wall_lt_goal := by omega
              goal_lt_height := by omega }

theorem hasInterior_of_validate {s : Settings} (h : s.validate = .ok (.ok ())) :
    s.field.HasInterior := by
  rcases bind_eq_ok.mp h with ⟨extent, hextent, h⟩
  cases extent with
  | error i => cases h
  | ok u => exact hasInterior_of_validateExtent hextent

end Settings

namespace FieldSettings

variable {f : FieldSettings} {g : Grid}

theorem HasInterior.sides_le (h : f.HasInterior) :
    f.width * 2 <= f.width * f.height ∧ 2 * f.height <= f.width * f.height := by
  have hwall := h.wall_pos
  have hradius := h.radius_pos
  have hinner := h.margin_lt_width
  have houter := h.margin_lt_height
  exact ⟨Int.mul_le_mul_of_nonneg_left (by omega) (by omega),
    Int.mul_le_mul_of_nonneg_right (by omega) (by omega)⟩

theorem HasInterior.hasRoom (h : f.HasInterior) (hg : Grid.ofSettings? f = .ok g) :
    g.HasRoom f.missileRadius := by
  rcases Grid.ofSettings?_spec hg with ⟨harea, hwidth, hheight, _⟩
  rcases h.sides_le with ⟨hrows, hcolumns⟩
  have hwall := h.wall_pos
  have hradius := h.radius_pos
  have hinner := h.margin_lt_width
  have houter := h.margin_lt_height
  have hgreatest := harea.2
  exact
    { radius_nonneg := by omega
      width_le := by omega
      height_le := by omega }

/-!
## Whether there is a grid
-/

/-- With an area of 32 bits everything else about the grid has 32 bits. -/
theorem HasInterior.exists_grid (h : f.HasInterior)
    (harea : f.width * f.height <= Bounded.greatest) : exists g, Grid.ofSettings? f = .ok g := by
  rcases h.sides_le with ⟨hrows, hcolumns⟩
  have hwall := h.wall_pos
  have hradius := h.radius_pos
  have hinner := h.margin_lt_width
  have houter := h.margin_lt_height
  have hfits : forall n : Int, 0 <= n -> n <= f.width * f.height -> Bounded.Fits n := by
    intro n hnonneg hle
    unfold Bounded.Fits Bounded.least
    omega
  have hright : Bounded.sub? f.width f.wallThickness = .ok (f.width - f.wallThickness) :=
    Bounded.sub?_eq_ok.mpr ⟨hfits _ (by omega) (by omega), rfl⟩
  have hbottom : Bounded.sub? f.height f.wallThickness = .ok (f.height - f.wallThickness) :=
    Bounded.sub?_eq_ok.mpr ⟨hfits _ (by omega) (by omega), rfl⟩
  have hproduct : Bounded.mul? f.width f.height = .ok (f.width * f.height) :=
    Bounded.mul?_eq_ok.mpr ⟨hfits _ (by omega) (by omega), rfl⟩
  have hnonneg : ¬ f.width * f.height < 0 := by omega
  have hcells : ¬ (f.width <= 0 ∨ f.height <= 0) := by omega
  unfold Grid.ofSettings?
  rw [hproduct, hright, hbottom]
  simp only [bind, Except.bind, if_neg hnonneg, dif_neg hcells]
  exact ⟨_, rfl⟩

theorem HasInterior.interior_of_width (h : f.HasInterior)
    (hgreatest : f.width <= Bounded.greatest) :
    f.leastInterior? = .ok (f.wallThickness + f.missileRadius + 1) ∧
      f.greatestInterior? = .ok (f.width - f.wallThickness - f.missileRadius - 2) := by
  have hwall := h.wall_pos
  have hradius := h.radius_pos
  have hinner := h.margin_lt_width
  have hfits : forall n : Int, 0 <= n -> n <= f.width -> Bounded.Fits n := by
    intro n hnonneg hle
    unfold Bounded.Fits Bounded.least
    omega
  constructor
  · exact bind_eq_ok.mpr ⟨_, Bounded.add?_eq_ok.mpr ⟨hfits _ (by omega) (by omega), rfl⟩,
      Bounded.add?_eq_ok.mpr ⟨hfits _ (by omega) (by omega), rfl⟩⟩
  · exact bind_eq_ok.mpr ⟨_, Bounded.sub?_eq_ok.mpr ⟨hfits _ (by omega) (by omega), rfl⟩,
      bind_eq_ok.mpr ⟨_, Bounded.sub?_eq_ok.mpr ⟨hfits _ (by omega) (by omega), rfl⟩,
        Bounded.sub?_eq_ok.mpr ⟨hfits _ (by omega) (by omega), rfl⟩⟩⟩

theorem HasInterior.interior (h : f.HasInterior) (hg : Grid.ofSettings? f = .ok g) :
    f.leastInterior? = .ok (f.wallThickness + f.missileRadius + 1) ∧
      f.greatestInterior? = .ok (f.width - f.wallThickness - f.missileRadius - 2) := by
  rcases Grid.ofSettings?_spec hg with ⟨harea, _⟩
  rcases h.sides_le with ⟨hrows, _⟩
  have hwall := h.wall_pos
  have hradius := h.radius_pos
  have hinner := h.margin_lt_width
  have hgreatest := harea.2
  exact h.interior_of_width (by omega)

theorem ofSettings?_of_lt_area (harea : Bounded.greatest < f.width * f.height) :
    Grid.ofSettings? f = .error .multiplyOverflow := by
  have hproduct : Bounded.mul? f.width f.height = .error .multiplyOverflow :=
    Bounded.check_eq_error.mpr ⟨fun hfits => Int.not_le.mpr harea hfits.2, rfl⟩
  exact bind_eq_error.mpr (.inl hproduct)

end FieldSettings
end AirDefense

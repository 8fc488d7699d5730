import AirDefense.Field.Grid
import AirDefense.Proofs.Faults

/-!
# Who is where on the grid

A grid is the map from positions to cells that `cell?` shows, and a write changes
that map at one position.  What each operation does to the missiles on the grid
follows from this.
-/

namespace AirDefense
namespace Grid

variable {g : Grid} {p q : Position} {id other : MissileId}

/-!
## Cells as a map
-/

theorem inBounds_iff :
    g.inBounds p = true ↔ 0 <= p.x ∧ p.x < g.width ∧ 0 <= p.y ∧ p.y < g.height := by
  simp [inBounds, and_assoc]

theorem place_nonneg (hp : g.inBounds p = true) : 0 <= p.y * g.width + p.x := by
  rcases inBounds_iff.mp hp with ⟨hx, hxw, hy, _⟩
  have hrows : 0 <= p.y * g.width := Int.mul_nonneg hy (by omega)
  omega

theorem size_eq (g : Grid) (hwidth : 0 <= g.width) (hheight : 0 <= g.height) :
    (g.cells.size : Int) = g.width * g.height := by
  rw [g.size_cells, Int.natCast_mul, Int.toNat_of_nonneg hwidth, Int.toNat_of_nonneg hheight]

theorem place_lt (hp : g.inBounds p = true) : g.place p < g.cells.size := by
  rcases inBounds_iff.mp hp with ⟨hx, hxw, hy, hyh⟩
  have hrows : p.y * g.width <= (g.height - 1) * g.width :=
    Int.mul_le_mul_of_nonneg_right (by omega) (by omega)
  have hall : (g.height - 1) * g.width = g.width * g.height - g.width := by
    rw [Int.sub_mul, Int.one_mul, Int.mul_comm]
  have hsize := g.size_eq (by omega) (by omega)
  have hplace : ((g.place p : Nat) : Int) = p.y * g.width + p.x :=
    Int.toNat_of_nonneg (place_nonneg hp)
  omega

theorem positionOf_place (hp : g.inBounds p = true) : g.positionOf (g.place p) = p := by
  rcases inBounds_iff.mp hp with ⟨hx, hxw, hy, _⟩
  have hplace : ((g.place p : Nat) : Int) = p.x + p.y * g.width :=
    (Int.toNat_of_nonneg (place_nonneg hp)).trans (Int.add_comm ..)
  have hcolumn : (p.x + p.y * g.width) % g.width = p.x := by
    rw [Int.add_mul_emod_self_right, Int.emod_eq_of_lt hx hxw]
  have hrow : (p.x + p.y * g.width) / g.width = p.y := by
    rw [Int.add_mul_ediv_right _ _ (by omega), Int.ediv_eq_zero_of_lt hx hxw, Int.zero_add]
  rw [positionOf, hplace, hcolumn, hrow]

theorem inBounds_positionOf {i : Nat} (hi : i < g.cells.size) :
    g.inBounds (g.positionOf i) = true := by
  have hwidth : 0 < g.width.toNat := Nat.pos_of_ne_zero fun hzero => by
    rw [g.size_cells, hzero, Nat.zero_mul] at hi
    exact Nat.not_lt_zero i hi
  have hheight : 0 < g.height.toNat := Nat.pos_of_ne_zero fun hzero => by
    rw [g.size_cells, hzero, Nat.mul_zero] at hi
    exact Nat.not_lt_zero i hi
  have hsize := g.size_eq (by omega) (by omega)
  have hrow : (i : Int) < g.height * g.width := by
    rw [Int.mul_comm]
    omega
  exact inBounds_iff.mpr ⟨Int.emod_nonneg _ (by omega), Int.emod_lt_of_pos _ (by omega),
    Int.ediv_nonneg (by omega) (by omega), Int.ediv_lt_of_lt_mul (by omega) hrow⟩

theorem place_positionOf {i : Nat} : g.place (g.positionOf i) = i := by
  have hsum : (i : Int) / g.width * g.width + (i : Int) % g.width = i := by
    rw [Int.mul_comm]
    exact Int.mul_ediv_add_emod ..
  simp only [place, positionOf, hsum, Int.toNat_natCast]

theorem cell?_positionOf {i : Nat} (hi : i < g.cells.size) :
    g.cell? (g.positionOf i) = g.cells[i]? := by
  rw [cell?, if_pos (inBounds_positionOf hi), place_positionOf]

theorem inBounds_of_cell? {c : Cell} (h : g.cell? p = some c) : g.inBounds p = true := by
  unfold cell? at h
  split at h
  · assumption
  · cases h

@[simp] theorem inBounds_write (c : Cell) : (g.write p c).inBounds q = g.inBounds q := rfl

@[simp] theorem place_write (c : Cell) : (g.write p c).place q = g.place q := rfl

theorem cell?_write (hp : g.inBounds p = true) (c : Cell) :
    (g.write p c).cell? q = if q = p then some c else g.cell? q := by
  unfold cell?
  rw [inBounds_write, place_write]
  by_cases hq : q = p
  · rw [if_pos hq, hq, if_pos hp]
    have hlt : g.place p < (g.write p c).cells.size := by
      simpa [write] using place_lt hp
    rw [Array.getElem?_eq_getElem hlt]
    simp [write]
  · rw [if_neg hq]
    by_cases hin : g.inBounds q = true
    · have hne : g.place p ≠ g.place q := by
        intro heq
        apply hq
        rw [← positionOf_place hin, ← heq, positionOf_place hp]
      rw [if_pos hin, if_pos hin]
      simp [write, Array.getElem?_setIfInBounds_ne hne]
    · rw [if_neg hin, if_neg hin]

/-!
## Occupants
-/

/-- The missile at a position. -/
def occupant? (g : Grid) (p : Position) : Option MissileId :=
  (g.cell? p).bind Cell.occupant?

theorem inBounds_of_occupant? (h : g.occupant? p = some id) : g.inBounds p = true := by
  cases hc : g.cell? p with
  | none =>
      rw [occupant?, hc] at h
      cases h
  | some c => exact inBounds_of_cell? hc

theorem occupant?_write (hp : g.inBounds p = true) (c : Cell) :
    (g.write p c).occupant? q = if q = p then c.occupant? else g.occupant? q := by
  unfold occupant?
  rw [cell?_write hp]
  split <;> rfl

theorem put?_of_inBounds {c : Cell} (hp : g.inBounds p = true) :
    g.put? p c = .ok (g.write p c) := if_pos hp

theorem put?_eq_ok {g' : Grid} {c : Cell} (h : g.put? p c = .ok g') :
    g'.width = g.width ∧ g'.height = g.height := by
  unfold put? at h
  split at h
  · cases h
    exact ⟨rfl, rfl⟩
  · cases h

theorem occupant?_put {g' : Grid} {c : Cell} (h : g.put? p c = .ok g') :
    g'.occupant? q = if q = p then c.occupant? else g.occupant? q := by
  unfold put? at h
  split at h
  · rename_i hp
    injection h with h
    rw [← h]
    exact occupant?_write hp c
  · cases h

theorem occupant?_clear :
    (g.clear p id).2.occupant? q =
      if q = p ∧ g.occupant? p = some id then none else g.occupant? q := by
  unfold clear
  cases hc : g.cell? p with
  | none =>
      have hp : g.occupant? p ≠ some id := by simp [occupant?, hc]
      rw [if_neg fun h => hp h.2]
  | some c =>
      have hp : g.occupant? p = c.occupant? := by simp [occupant?, hc]
      simp only [hp]
      by_cases hid : c.occupant? = some id
      · rw [if_pos hid, occupant?_write (inBounds_of_cell? hc)]
        simp only [hid, and_true]
        rfl
      · rw [if_neg hid, if_neg fun h => hid h.2]

theorem occupant?_clear_self (honly : forall r, g.occupant? r = some id -> r = p) :
    (g.clear p id).2.occupant? q ≠ some id := by
  intro hq
  rw [occupant?_clear] at hq
  split at hq
  · cases hq
  · rename_i hnot
    have heq := honly q hq
    exact hnot ⟨heq, heq ▸ hq⟩

theorem occupant?_clear_other (hother : other ≠ id) :
    (g.clear p id).2.occupant? q = some other ↔ g.occupant? q = some other := by
  rw [occupant?_clear]
  split
  · rename_i hq
    rw [hq.1, hq.2]
    simp [Ne.symm hother]
  · exact Iff.rfl

@[simp] theorem width_clear : (g.clear p id).2.width = g.width := by
  unfold clear
  split
  · split <;> rfl
  · rfl

@[simp] theorem height_clear : (g.clear p id).2.height = g.height := by
  unfold clear
  split
  · split <;> rfl
  · rfl

@[simp] theorem occupant?_stamp : (g.stamp p id).occupant? q = g.occupant? q := by
  unfold stamp
  split
  · rename_i attacker mark hc
    rw [occupant?_write (inBounds_of_cell? hc)]
    split
    · rename_i hq
      rw [hq, occupant?, hc]
      rfl
    · rfl
  · rfl

@[simp] theorem width_stamp : (g.stamp p id).width = g.width := by
  unfold stamp
  split <;> rfl

@[simp] theorem height_stamp : (g.stamp p id).height = g.height := by
  unfold stamp
  split <;> rfl

theorem cell?_of_mem_entries {c : Cell} (h : (p, c) ∈ g.entries) : g.cell? p = some c := by
  rcases List.mem_mapIdx.mp h with ⟨i, hi, heq⟩
  rw [Array.length_toList] at hi
  injection heq with hp hc
  rw [← hp, ← hc, cell?_positionOf hi]
  simp [hi]

theorem cell?_of_mem_missileEntries {c : Cell} (h : (p, c) ∈ g.missileEntries) :
    g.cell? p = some c ∧ c.occupant?.isSome = true := by
  rw [missileEntries_eq_filter, List.mem_filter] at h
  exact ⟨cell?_of_mem_entries h.1, h.2⟩

theorem missileEntries_eq_nil (h : forall p id, g.occupant? p ≠ some id) :
    g.missileEntries = [] := by
  apply List.eq_nil_iff_forall_not_mem.mpr
  rintro ⟨p, c⟩ hmem
  rcases cell?_of_mem_missileEntries hmem with ⟨hcell, hoccupied⟩
  rcases Option.isSome_iff_exists.mp hoccupied with ⟨id, hid⟩
  exact h p id (by rw [occupant?, hcell, Option.bind_some, hid])

/-!
## Fresh grids
-/

theorem occupant?_painted (wall right bottom goalStart x y : Int) :
    (painted wall right bottom goalStart x y).occupant? = none := by
  unfold painted
  split
  · rfl
  · split <;> rfl

theorem occupant?_of_cells (h : forall c, c ∈ g.cells -> c.occupant? = none) :
    g.occupant? p = none := by
  unfold occupant? cell?
  split
  · cases hc : g.cells[g.place p]? with
    | none => rfl
    | some c => exact h c (Array.mem_of_getElem? hc)
  · rfl

theorem ofSettings?_spec {f : FieldSettings} (h : ofSettings? f = .ok g) :
    Bounded.Fits (f.width * f.height) ∧ g.width = f.width ∧ g.height = f.height ∧
      forall p, g.occupant? p = none := by
  rcases bind_eq_ok.mp h with ⟨area, harea, h⟩
  refine ⟨(Bounded.mul?_eq_ok.mp harea).1, ?_⟩
  split at h
  · cases h
  · split at h
    · rw [← pure_eq_ok.mp h]
      exact ⟨rfl, rfl, fun p => occupant?_of_cells (by simp)⟩
    · rcases bind_eq_ok.mp h with ⟨right, _, h⟩
      rcases bind_eq_ok.mp h with ⟨bottom, _, h⟩
      rw [← pure_eq_ok.mp h]
      refine ⟨rfl, rfl, fun p => occupant?_of_cells ?_⟩
      intro c hc
      rcases Array.mem_ofFn.mp hc with ⟨i, hi⟩
      rw [← hi]
      exact occupant?_painted ..

end Grid
end AirDefense

import AirDefense.Proofs.Field.Resolution

/-!
# The grid row by row

The missiles of a grid are listed row by row: all that there are, each once.
-/

namespace AirDefense

theorem Position.Precedes.ne {p q : Position} (h : p.Precedes q) : p ≠ q := by
  rintro rfl
  exact h.asymm h

namespace Grid

variable {g : Grid} {p : Position} {c : Cell}

theorem map_fst_entries (g : Grid) :
    g.entries.map Prod.fst = (List.range g.cells.size).map g.positionOf := by
  apply List.ext_getElem
  · simp [entries]
  · intro i hi hj
    simp [entries]

theorem precedes_positionOf {i j : Nat} (hij : i < j) (hwidth : 0 < g.width) :
    (g.positionOf i).Precedes (g.positionOf j) := by
  have hi := Int.mul_ediv_add_emod i g.width
  have hj := Int.mul_ediv_add_emod j g.width
  have hrow : (i : Int) / g.width <= (j : Int) / g.width :=
    Int.ediv_le_ediv hwidth (by omega)
  rcases Int.lt_or_eq_of_le hrow with hbelow | hsame
  · exact .inl hbelow
  · refine .inr ⟨hsame, ?_⟩
    rw [hsame] at hi
    simp only [positionOf]
    omega

theorem pairwise_precedes_entries (g : Grid) :
    (g.entries.map Prod.fst).Pairwise Position.Precedes := by
  rw [map_fst_entries, List.pairwise_map]
  refine List.pairwise_lt_range.imp_of_mem fun hi _ hij => precedes_positionOf hij ?_
  have hin := inBounds_iff.mp (g.inBounds_positionOf (List.mem_range.mp hi))
  omega

theorem pairwise_precedes_missileEntries (g : Grid) :
    g.missileEntries.Pairwise fun e d => e.1.Precedes d.1 := by
  rw [missileEntries_eq_filter]
  exact (List.pairwise_map.mp (pairwise_precedes_entries g)).filter _

theorem mem_missileEntries :
    (p, c) ∈ g.missileEntries ↔ g.cell? p = some c ∧ c.occupant?.isSome = true := by
  refine ⟨cell?_of_mem_missileEntries, fun ⟨hcell, hoccupied⟩ => ?_⟩
  have hp := inBounds_of_cell? hcell
  rw [cell?, if_pos hp] at hcell
  rcases Array.getElem?_eq_some_iff.mp hcell with ⟨hlt, hc⟩
  rw [missileEntries_eq_filter, List.mem_filter]
  refine ⟨List.mem_mapIdx.mpr ⟨g.place p, by simpa using hlt, ?_⟩, hoccupied⟩
  rw [positionOf_place hp, Array.getElem_toList, hc]

end Grid
end AirDefense

import Mathlib.Data.List.Basic

/-!
# Callers in a list

Whoever shares a pool or a lock is one entry of a list, and each call replaces
that entry.  Here is what the replacement does to a count over all callers.
-/

namespace AirDefense

theorem countP_set_add {p : α -> Bool} {callers : List α} {caller : Nat} {c d : α}
    (hc : callers[caller]? = some c) :
    (callers.set caller d).countP p + (p c).toNat = callers.countP p + (p d).toNat := by
  induction callers generalizing caller with
  | nil =>
      cases hc
  | cons b rest ih =>
      cases caller with
      | zero =>
          rw [List.getElem?_cons_zero] at hc
          injection hc with hc
          subst hc
          simp only [List.set_cons_zero, List.countP_cons]
          cases p b <;> cases p d <;> simp
      | succ caller =>
          rw [List.getElem?_cons_succ] at hc
          have hrest := ih hc
          simp only [List.set_cons_succ, List.countP_cons]
          omega

theorem getElem?_set_cases {callers : List α} {i j : Nat} {c d : α}
    (h : (callers.set i d)[j]? = some c) :
    (j = i ∧ c = d) ∨ (j ≠ i ∧ callers[j]? = some c) := by
  rw [List.getElem?_set] at h
  split at h
  · rename_i heq
    split at h
    · injection h with h
      exact .inl ⟨heq.symm, h.symm⟩
    · cases h
  · rename_i hne
    exact .inr ⟨Ne.symm hne, h⟩

theorem getElem?_concat_cases {callers : List α} {j : Nat} {c d : α}
    (h : (callers ++ [d])[j]? = some c) :
    callers[j]? = some c ∨ (j = callers.length ∧ c = d) := by
  by_cases hlt : j < callers.length
  · rw [List.getElem?_append_left hlt] at h
    exact .inl h
  · rw [List.getElem?_append_right (Nat.le_of_not_lt hlt), List.getElem?_singleton] at h
    split at h
    · injection h with h
      exact .inr ⟨by omega, h.symm⟩
    · cases h

/-- Where at most one caller has a property, it is one place. -/
theorem eq_of_countP_le_one {p : α -> Bool} {callers : List α} {i j : Nat} {c d : α}
    (hle : callers.countP p <= 1) (hi : callers[i]? = some c) (hj : callers[j]? = some d)
    (hc : p c = true) (hd : p d = true) : i = j := by
  induction callers generalizing i j with
  | nil =>
      cases hi
  | cons b rest ih =>
      rw [List.countP_cons] at hle
      cases i with
      | zero =>
          cases j with
          | zero => rfl
          | succ j =>
              injection hi with hi
              rw [hi, if_pos hc] at hle
              have hpos : 0 < rest.countP p :=
                List.countP_pos_iff.mpr ⟨d, List.mem_of_getElem? hj, hd⟩
              omega
      | succ i =>
          cases j with
          | zero =>
              injection hj with hj
              rw [hj, if_pos hd] at hle
              have hpos : 0 < rest.countP p :=
                List.countP_pos_iff.mpr ⟨c, List.mem_of_getElem? hi, hc⟩
              omega
          | succ j =>
              have hrest : rest.countP p <= 1 := by omega
              rw [ih hrest hi hj]

end AirDefense

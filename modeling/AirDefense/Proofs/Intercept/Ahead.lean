import AirDefense.Proofs.Intercept.Search
import AirDefense.Proofs.Number.Singles

/-!
# Where a search looks

The middle of two numbers lies between them, rounded as it is, as long as their sum does not
overflow.  A search therefore never leaves its first stretch, from the target to the far end.
Where the far end is ahead of the target the search looks ahead; but a target may be beyond the
last usable column, and then the search looks behind it.
-/

namespace AirDefense

open PlaneArithmetic Rounding

namespace Single

/-- A finite number; twice the number is finite too. -/
structure IsModerate (x : Float32) : Prop where
  finite : x.isFinite = true
  abs_le : |value x| <= 2 ^ 126

structure Lies (p q : Rat) (x : Float32) : Prop where
  finite : x.isFinite = true
  ge : p <= value x
  le : value x <= q

variable {x y z : Float32} {p q : Rat}

theorem value_half : value (half : Float32) = 1 / 2 := by decide +kernel

theorem Lies.mid (hx : Lies p q x) (hy : Lies p q y) (hp : IsDigital p) (hq : IsDigital q)
    (hleast : -2 ^ 126 <= p) (hgreatest : q <= 2 ^ 126) : Lies p q (half * (x + y)) := by
  have hlo : 2 * p <= value x + value y := by linarith [hx.ge, hy.ge]
  have hhi : value x + value y <= 2 * q := by linarith [hx.le, hy.le]
  have hgreat : value (Float32.ofBits 0x7f000000) = 2 ^ 127 := by decide +kernel
  have hbound : |value x + value y| <= |value (Float32.ofBits 0x7f000000)| := by
    rw [hgreat, abs_of_nonneg (by norm_num : (0 : Rat) <= 2 ^ 127)]
    exact abs_le.mpr ⟨by linarith, by linarith⟩
  rcases isRounded_add hx.finite hy.finite hbound with ⟨hsum, hrounded⟩
  have hlo := (hrounded _ hp.double).1 hlo
  have hhi := (hrounded _ hq.double).2 hhi
  have hhalf : (half : Float32).isFinite = true := by decide +kernel
  have hless : |value half * value (x + y)| <= |value (x + y)| := by
    rw [abs_mul, value_half]
    have hnonneg := abs_nonneg (value (x + y))
    norm_num
    linarith
  rcases isRounded_mul hhalf hsum hless with ⟨hmid, hrounded'⟩
  rw [value_half] at hrounded'
  exact ⟨hmid, (hrounded' p hp).1 (by linarith), (hrounded' q hq).2 (by linarith)⟩

/-!
## The lesser and the greater of two
-/

theorem isNaN_of_isFinite (h : x.isFinite = true) : x.isNaN = false := by
  change x.toModel.unpack.isFinite = true at h
  show x.toModel.unpack.isNaN = false
  cases hu : x.toModel.unpack <;> rw [hu] at h <;> trivial

theorem isInf_of_not_isFinite (hnumber : x.isNaN = false) (h : ¬ x.isFinite = true) :
    x.isInf = true := by
  change x.toModel.unpack.isNaN = false at hnumber
  change ¬ x.toModel.unpack.isFinite = true at h
  show x.toModel.unpack.isInf = true
  cases hu : x.toModel.unpack <;> rw [hu] at hnumber h <;> trivial

theorem le_of_lt (h : x < y) : x <= y := by
  rw [le_iff_compare, lt_iff_compare.mp h]
  rfl

theorem le_of_not_lt (hx : x.isNaN = false) (hz : z.isFinite = true) (h : ¬ x < z) : z <= x := by
  by_cases hfinite : x.isFinite = true
  · rw [lt_iff hfinite hz, not_lt] at h
    exact (le_iff hz hfinite).mpr h
  · exact le_of_lt (lt_of_isInf hz h (isInf_of_not_isFinite hx hfinite))

/-- The lesser of a finite number and one that is not less than `z`. -/
theorem lies_least (hx : x.isFinite = true) (hz : z.isFinite = true) (hle : value z <= value x)
    (h : ¬ y < z) : Lies (value z) (value x) (least x y) := by
  have hfirst : Lies (value z) (value x) x := ⟨hx, hle, le_rfl⟩
  simp only [least, isNaN_of_isFinite hx, Bool.false_eq_true, if_false]
  split
  · exact hfirst
  · rename_i hnumber
    split
    · rename_i hlt
      have hzy := le_of_not_lt (Bool.eq_false_iff.mpr hnumber) hz h
      have hy := isFinite_of_between hz hx hzy hlt
      exact ⟨hy, (le_iff hz hy).mp hzy, ((lt_iff hy hx).mp hlt).le⟩
    · exact hfirst

theorem lies_greatest (hx : x.isFinite = true) (hz : z.isFinite = true)
    (hle : value x <= value z) (h : ¬ z < y) : Lies (value x) (value z) (greatest x y) := by
  have hfirst : Lies (value x) (value z) x := ⟨hx, le_rfl, hle⟩
  simp only [greatest, isNaN_of_isFinite hx, Bool.false_eq_true, if_false]
  split
  · exact hfirst
  · rename_i hnumber
    split
    · rename_i hlt
      have hy : y.isFinite = true := by
        by_contra hinfinite
        have hinf := isInf_of_not_isFinite (Bool.eq_false_iff.mpr hnumber) hinfinite
        have hnot : ¬ y < z := fun hyz =>
          hinfinite (isFinite_of_between hx hz (le_of_lt hlt) hyz)
        exact h (lt_of_isInf hz hnot hinf)
      refine ⟨hy, ((lt_iff hx hy).mp hlt).le, ?_⟩
      rwa [lt_iff hz hy, not_lt] at h
    · exact hfirst

end Single

/-!
## Stretches
-/

namespace Bracket

open Single

variable {limits : SearchLimits Float32} {gap : Float32 -> Float32} {r : Bracket Float32}
  {p q : Rat} {x : Float32} {n : Nat}

structure Spans (p q : Rat) (r : Bracket Float32) : Prop where
  lo : Lies p q r.lo
  hi : Lies p q r.hi

structure AreBounds (p q : Rat) : Prop where
  least : IsDigital p
  greatest : IsDigital q
  ge : -2 ^ 126 <= p
  le : q <= 2 ^ 126

theorem Spans.mid (h : Spans p q r) (hb : AreBounds p q) : Lies p q r.mid :=
  h.lo.mid h.hi hb.least hb.greatest hb.ge hb.le

theorem Spans.halve (h : Spans p q r) (hb : AreBounds p q) : Spans p q (r.halve gap) := by
  unfold Bracket.halve
  split
  · exact ⟨h.mid hb, h.hi⟩
  · exact ⟨h.lo, h.mid hb⟩

theorem Spans.iterate (h : Spans p q r) (hb : AreBounds p q) (n : Nat) :
    Spans p q ((Bracket.halve gap)^[n] r) := by
  induction n with
  | zero => exact h
  | succ n ih =>
      rw [Function.iterate_succ_apply']
      exact ih.halve hb

theorem Found.lies (h : Found limits gap r x n) (hspans : Spans p q r) (hb : AreBounds p q) :
    Lies p q x := by
  rcases Nat.eq_zero_or_pos limits.maxIterations with hmax | hmax
  · rw [h.untried hmax]
    exact hspans.hi
  · rw [(h.tried hmax).2]
    exact (hspans.iterate hb _).mid hb

end Bracket

/-!
## Meeting places
-/

namespace Prediction

open Single

variable {limits : SearchLimits Float32} {geometry : InterceptGeometry Float32}
  {fallback x : Float32} {earlier : List (Sample Float32)} {a b : Sample Float32} {n : Nat}
  {line : Trajectory Float32}

theorem found_of_solved (h : predict limits geometry fallback (earlier ++ [a, b]) = .solved x n) :
    exists line, Trajectory.through? a b = some line ∧
      Bracket.Found limits (line.gap geometry b) ⟨b.x, line.far geometry a b⟩ x n := by
  rw [predict_append] at h
  rcases predictFrom_cases limits geometry a b with hlast | hdirect | ⟨line, hline, halong⟩
  · rw [hlast] at h
    cases h
  · rw [hdirect] at h
    cases h
  · rw [halong] at h
    rcases predicted_cases limits geometry a b line with
      ⟨_, hpredicted⟩ | ⟨_, x', n', hpredicted, hfound⟩
    · rw [hpredicted] at h
      cases h
    · rw [hpredicted] at h
      cases h
      exact ⟨line, hline, hfound⟩

/-- A search between two numbers ends between them. -/
theorem between_of_found {lo hi : Float32} (hlo : IsModerate lo) (hhi : IsModerate hi)
    (hb : Lies (value lo) (value hi) b.x)
    (hfar : Lies (value lo) (value hi) (line.far geometry a b))
    (h : Bracket.Found limits (line.gap geometry b) ⟨b.x, line.far geometry a b⟩ x n) :
    lo <= x ∧ x <= hi := by
  have hbounds : Bracket.AreBounds (value lo) (value hi) :=
    { least := isDigital_value lo
      greatest := isDigital_value hi
      ge := (abs_le.mp hlo.abs_le).1
      le := (abs_le.mp hhi.abs_le).2 }
  have hx := h.lies ⟨hb, hfar⟩ hbounds
  exact ⟨(le_iff hlo.finite hx.finite).mpr hx.ge, (le_iff hx.finite hhi.finite).mpr hx.le⟩

theorem far_of_rightward (h : a.x < b.x) :
    line.far geometry a b = Single.least geometry.maxX (line.xAt geometry.launchY) :=
  if_pos (decide_eq_true h)

theorem far_of_leftward (ha : a.x.isFinite = true) (hb : b.x.isFinite = true) (h : b.x < a.x) :
    line.far geometry a b = Single.greatest geometry.minX (line.xAt geometry.launchY) := by
  have hnot : ¬ a.x < b.x := by
    rw [lt_iff hb ha] at h
    rw [lt_iff ha hb]
    exact h.asymm
  exact if_neg fun hbelow => hnot (of_decide_eq_true hbelow)

/--
A target that has not passed the last usable column, nor the place where it is to land, is met
between where it is and that column: ahead of it.  One that has passed the column is met between
the two as well: behind it.
-/
theorem solved_ahead_of_target
    (hsolved : predict limits geometry fallback (earlier ++ [a, b]) = .solved x n)
    (ha : a.x.isFinite = true) (hb : IsModerate b.x) (hmin : IsModerate geometry.minX)
    (hmax : IsModerate geometry.maxX) :
    exists line, Trajectory.through? a b = some line ∧
      (a.x < b.x -> b.x <= geometry.maxX -> ¬ line.xAt geometry.launchY < b.x ->
        b.x <= x ∧ x <= geometry.maxX) ∧
      (b.x < a.x -> geometry.minX <= b.x -> ¬ b.x < line.xAt geometry.launchY ->
        geometry.minX <= x ∧ x <= b.x) ∧
      (a.x < b.x -> geometry.maxX < b.x -> ¬ line.xAt geometry.launchY < geometry.maxX ->
        geometry.maxX <= x ∧ x <= b.x) ∧
      (b.x < a.x -> b.x < geometry.minX -> ¬ geometry.minX < line.xAt geometry.launchY ->
        b.x <= x ∧ x <= geometry.minX) := by
  rcases found_of_solved hsolved with ⟨line, hline, hfound⟩
  refine ⟨line, hline, fun hright hin hland => ?_, fun hleft hin hland => ?_,
    fun hright hout hland => ?_, fun hleft hout hland => ?_⟩
  · have hle := (le_iff hb.finite hmax.finite).mp hin
    refine between_of_found hb hmax ⟨hb.finite, le_rfl, hle⟩ ?_ hfound
    rw [far_of_rightward hright]
    exact lies_least hmax.finite hb.finite hle hland
  · have hle := (le_iff hmin.finite hb.finite).mp hin
    refine between_of_found hmin hb ⟨hb.finite, hle, le_rfl⟩ ?_ hfound
    rw [far_of_leftward ha hb.finite hleft]
    exact lies_greatest hmin.finite hb.finite hle hland
  · have hle := ((lt_iff hmax.finite hb.finite).mp hout).le
    refine between_of_found hmax hb ⟨hb.finite, hle, le_rfl⟩ ?_ hfound
    rw [far_of_rightward hright]
    have hfar := lies_least hmax.finite hmax.finite le_rfl hland
    exact ⟨hfar.finite, hfar.ge, hfar.le.trans hle⟩
  · have hle := ((lt_iff hb.finite hmin.finite).mp hout).le
    refine between_of_found hb hmin ⟨hb.finite, le_rfl, hle⟩ ?_ hfound
    rw [far_of_leftward ha hb.finite hleft]
    have hfar := lies_greatest hmin.finite hmin.finite le_rfl hland
    exact ⟨hfar.finite, hle.trans hfar.ge, hfar.le⟩

theorem solved_ahead_of_target_midfield :
    exists (a b : Sample Float32) (x : Float32),
      predict ({} : PredictorSettings).searchLimits columns (Single.ofInt 0) [a, b] =
        .solved x 7 ∧ a.x < b.x ∧ b.x <= x ∧ x <= columns.maxX := by
  let a : Sample Float32 := ⟨Single.ofInt 90, Single.ofInt 30, Single.ofInt 0⟩
  let b : Sample Float32 := ⟨Single.ofInt 100, Single.ofInt 50, Single.ofInt 1⟩
  let x := Float32.ofBits 0x42edda00
  have hsolved : predict ({} : PredictorSettings).searchLimits columns (Single.ofInt 0)
      ([] ++ [a, b]) = .solved x 7 := by
    decide +kernel
  have hright : a.x < b.x := by decide +kernel
  rcases solved_ahead_of_target hsolved (by decide +kernel)
    ⟨by decide +kernel, by decide +kernel⟩ ⟨by decide +kernel, by decide +kernel⟩
    ⟨by decide +kernel, by decide +kernel⟩ with ⟨line, hline, hahead, _⟩
  have hland : (Trajectory.through? a b).map (fun l => decide (l.xAt columns.launchY < b.x)) =
      some false := by
    decide +kernel
  rw [hline, Option.map_some, Option.some.injEq, decide_eq_false_iff_not] at hland
  exact ⟨a, b, x, hsolved, hright, hahead hright (by decide +kernel) hland⟩

/-- A steep target beyond the last column is met behind where it is. -/
theorem solved_behind_target :
    exists a b : Sample Float32, a.x < b.x ∧ columns.minX <= columns.maxX ∧
      Single.ofInt 0 < columns.interceptorSpeed ∧
      (forall v, v ∈ [a.x, a.y, a.t, b.x, b.y, b.t, columns.launchY, columns.interceptorSpeed,
        columns.minX, columns.maxX] -> v.isFinite = true) ∧
      exists x n, predict ({} : PredictorSettings).searchLimits columns (Single.ofInt 0) [a, b] =
        .solved x n ∧ x < b.x := by
  refine ⟨⟨Single.ofInt 632, Single.ofInt 290, Single.ofInt 0⟩,
    ⟨Float32.ofBits 0x441e2000, Single.ofInt 300, half⟩, by decide +kernel, by decide +kernel,
    by decide +kernel, ?_, Float32.ofBits 0x441dfc00, 3, by decide +kernel, by decide +kernel⟩
  decide +kernel

end Prediction
end AirDefense

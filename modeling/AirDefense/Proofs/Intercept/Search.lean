import AirDefense.Intercept.Launch
import Mathlib.Logic.Function.Iterate

/-!
# What a search has found

A search halves its stretch at most so often.  It ends at the first middle whose gap is within
the tolerance, or at the last middle it tried.  At the near end of the stretch, unless that is
where the search began, an interceptor is late; at the far end it is not, unless it was so when
the search began.  All of this holds in any arithmetic, also where numbers do not compare.
-/

namespace AirDefense

open PlaneArithmetic

section

variable {α : Type} [PlaneArithmetic α] {limits : SearchLimits α} {geometry : InterceptGeometry α}
  {fallback : α} {a b : Sample α} {samples : List (Sample α)} {gap : α -> α}

/-!
## Halvings
-/

namespace Bracket

def IsClosed (limits : SearchLimits α) (gap : α -> α) (x : α) : Prop :=
  upTo (abs (gap x)) limits.tolerance = true

structure Encloses (gap : α -> α) (start b : Bracket α) : Prop where
  lo : b.lo = start.lo ∨ below (gap b.lo) zero = true
  hi : b.hi = start.hi ∨ below (gap b.hi) zero = false

variable {start r : Bracket α}

theorem Encloses.refl (gap : α -> α) (start : Bracket α) : Encloses gap start start :=
  ⟨.inl rfl, .inl rfl⟩

theorem Encloses.halve (h : Encloses gap start r) : Encloses gap start (r.halve gap) := by
  cases hlate : below (gap r.mid) zero with
  | true =>
      rw [Bracket.halve, hlate, if_pos rfl]
      exact ⟨.inr hlate, h.hi⟩
  | false =>
      rw [Bracket.halve, hlate, if_neg Bool.false_ne_true]
      exact ⟨h.lo, .inr hlate⟩

theorem encloses_iterate (gap : α -> α) (start : Bracket α) (n : Nat) :
    Encloses gap start ((halve gap)^[n] start) := by
  induction n with
  | zero => exact .refl gap start
  | succ n ih =>
      rw [Function.iterate_succ_apply']
      exact ih.halve

theorem search_succ (limits : SearchLimits α) (gap : α -> α) (remaining tried : Nat) (last : α)
    (b : Bracket α) (hmax : tried + (remaining + 1) = limits.maxIterations) :
    exists n, n <= remaining ∧
      search limits gap (remaining + 1) tried last b =
        .solved ((halve gap)^[n] b).mid (tried + n + 1) ∧
      (n < remaining -> IsClosed limits gap ((halve gap)^[n] b).mid) ∧
      forall k, k < n -> ¬ IsClosed limits gap ((halve gap)^[k] b).mid := by
  induction remaining generalizing tried last b with
  | zero =>
      refine ⟨0, Nat.le_refl _, ?_, fun h => absurd h (Nat.lt_irrefl _),
        fun k hk => absurd hk (Nat.not_lt_zero k)⟩
      unfold search
      split
      · rfl
      · rw [search, ← hmax]
        rfl
  | succ remaining ih =>
      by_cases hclosed : IsClosed limits gap b.mid
      · refine ⟨0, Nat.zero_le _, ?_, fun _ => hclosed, fun k hk => absurd hk (Nat.not_lt_zero k)⟩
        rw [search]
        exact if_pos hclosed
      · rcases ih (tried + 1) b.mid (b.halve gap) (by omega) with ⟨n, hn, hsearch, hmet, hearlier⟩
        refine ⟨n + 1, by omega, ?_, fun h => hmet (by omega), fun k hk => ?_⟩
        · rw [search]
          refine (if_neg hclosed).trans ?_
          rw [hsearch, Function.iterate_succ_apply]
          congr 1
          omega
        · cases k with
          | zero => exact hclosed
          | succ k => exact hearlier k (by omega)

/-- A search from `start` has come to `x` with its `n`-th try. -/
structure Found (limits : SearchLimits α) (gap : α -> α) (start : Bracket α) (x : α) (n : Nat) :
    Prop where
  le_max : n <= limits.maxIterations
  closed : n < limits.maxIterations -> IsClosed limits gap x
  untried : limits.maxIterations = 0 -> x = start.hi
  tried : 1 <= limits.maxIterations -> 1 <= n ∧ x = ((halve gap)^[n - 1] start).mid
  earliest : forall k, k + 1 < n -> ¬ IsClosed limits gap ((halve gap)^[k] start).mid

theorem found_search (limits : SearchLimits α) (gap : α -> α) (start : Bracket α) :
    exists x n, search limits gap limits.maxIterations 0 start.hi start = .solved x n ∧
      Found limits gap start x n := by
  cases hmax : limits.maxIterations with
  | zero =>
      refine ⟨start.hi, 0, by rw [search, hmax], ?_⟩
      exact
        { le_max := Nat.zero_le _
          closed := fun h => absurd h (by omega)
          untried := fun _ => rfl
          tried := fun h => absurd h (by omega)
          earliest := fun k hk => absurd hk (by omega) }
  | succ remaining =>
      rcases search_succ limits gap remaining 0 start.hi start (by omega) with
        ⟨n, hn, hsearch, hmet, hearlier⟩
      rw [Nat.zero_add] at hsearch
      refine ⟨_, n + 1, hsearch, ?_⟩
      exact
        { le_max := by omega
          closed := fun h => hmet (by omega)
          untried := fun h => absurd h (by omega)
          tried := fun _ => ⟨by omega, rfl⟩
          earliest := fun k hk => hearlier k (by omega) }

end Bracket

/-!
## Predictions
-/

def Trajectory.predicted (limits : SearchLimits α) (geometry : InterceptGeometry α)
    (a b : Sample α) (line : Trajectory α) : Prediction α :=
  let far := line.far geometry a b
  let gap := line.gap geometry b
  if below (gap far) zero then .outOfReach far
  else Bracket.search limits gap limits.maxIterations 0 far ⟨b.x, far⟩

theorem predictFrom_cases (limits : SearchLimits α) (geometry : InterceptGeometry α)
    (a b : Sample α) :
    predictFrom limits geometry a b = .lastKnown b.x ∨
      predictFrom limits geometry a b = .direct b.x ∨
      exists line, Trajectory.through? a b = some line ∧
        predictFrom limits geometry a b = line.predicted limits geometry a b := by
  unfold predictFrom
  split
  · exact .inl rfl
  · split
    · exact .inr (.inl rfl)
    · cases hline : Trajectory.through? a b with
      | none => exact .inl rfl
      | some line =>
          simp only
          split
          · exact .inl rfl
          · exact .inr (.inr ⟨line, rfl, rfl⟩)

theorem predict_append (limits : SearchLimits α) (geometry : InterceptGeometry α) (fallback : α)
    (earlier : List (Sample α)) (a b : Sample α) :
    predict limits geometry fallback (earlier ++ [a, b]) = predictFrom limits geometry a b := by
  induction earlier with
  | nil => rfl
  | cons s rest ih => rcases rest with _ | ⟨r, _ | ⟨q, rest⟩⟩ <;> exact ih

theorem predict_cases (limits : SearchLimits α) (geometry : InterceptGeometry α) (fallback : α)
    (samples : List (Sample α)) :
    (exists x, predict limits geometry fallback samples = .lastKnown x) ∨
      (exists x, predict limits geometry fallback samples = .direct x) ∨
      exists earlier a b line, samples = earlier ++ [a, b] ∧ Trajectory.through? a b = some line ∧
        predict limits geometry fallback samples = line.predicted limits geometry a b := by
  rcases List.eq_nil_or_concat samples with hnil | ⟨front, b, hlast⟩
  · exact .inl ⟨fallback, by rw [hnil]; rfl⟩
  · rcases List.eq_nil_or_concat front with hnil | ⟨earlier, a, hfront⟩
    · exact .inl ⟨b.x, by rw [hlast, hnil]; rfl⟩
    · have hsamples : samples = earlier ++ [a, b] := by
        rw [hlast, hfront]
        simp
      have hpredict := predict_append limits geometry fallback earlier a b
      rw [← hsamples] at hpredict
      rw [hpredict]
      rcases predictFrom_cases limits geometry a b with hlast | hdirect | ⟨line, hline, halong⟩
      · exact .inl ⟨_, hlast⟩
      · exact .inr (.inl ⟨_, hdirect⟩)
      · exact .inr (.inr ⟨earlier, a, b, line, hsamples, hline, halong⟩)

/-- Whoever is out of reach is so at the far end; all others are searched for. -/
theorem predicted_cases (limits : SearchLimits α) (geometry : InterceptGeometry α)
    (a b : Sample α) (line : Trajectory α) :
    (below (line.gap geometry b (line.far geometry a b)) zero = true ∧
        line.predicted limits geometry a b = .outOfReach (line.far geometry a b)) ∨
      (below (line.gap geometry b (line.far geometry a b)) zero = false ∧
        exists x n, line.predicted limits geometry a b = .solved x n ∧
          Bracket.Found limits (line.gap geometry b) ⟨b.x, line.far geometry a b⟩ x n) := by
  cases hlate : below (line.gap geometry b (line.far geometry a b)) zero with
  | true =>
      refine .inl ⟨rfl, ?_⟩
      simp only [Trajectory.predicted, hlate, if_true]
  | false =>
      refine .inr ⟨rfl, ?_⟩
      rcases Bracket.found_search limits (line.gap geometry b) ⟨b.x, line.far geometry a b⟩ with
        ⟨x, n, hsearch, hfound⟩
      refine ⟨x, n, ?_, hfound⟩
      simp only [Trajectory.predicted, hlate, Bool.false_eq_true, if_false]
      exact hsearch

end

/-!
## In single precision
-/

namespace Prediction

variable {limits : SearchLimits Float32} {geometry : InterceptGeometry Float32}

/-- The abscissa `x` was found along `line`, with the `n`-th middle that was tried. -/
structure SolvedBy (limits : SearchLimits Float32) (geometry : InterceptGeometry Float32)
    (a b : Sample Float32) (line : Trajectory Float32) (x : Float32) (n : Nat) : Prop where
  le_max : n <= limits.maxIterations
  closed : n < limits.maxIterations -> (line.gap geometry b x).abs <= limits.tolerance
  untried : limits.maxIterations = 0 -> x = line.far geometry a b
  bracketed : 1 <= limits.maxIterations -> 1 <= n ∧ exists r : Bracket Float32,
    r = (Bracket.halve (line.gap geometry b))^[n - 1] ⟨b.x, line.far geometry a b⟩ ∧
      x = Float32.ofBits 0x3f000000 * (r.lo + r.hi) ∧
      (r.lo = b.x ∨ line.gap geometry b r.lo < Single.ofInt 0) ∧
      ¬ line.gap geometry b r.hi < Single.ofInt 0
  earliest : forall k, k + 1 < n ->
    ¬ (line.gap geometry b ((Bracket.halve (line.gap geometry b))^[k]
        ⟨b.x, line.far geometry a b⟩).mid).abs <= limits.tolerance

theorem solvedBy_of_found {a b : Sample Float32} {line : Trajectory Float32} {x : Float32} {n : Nat}
    (hfar : below (line.gap geometry b (line.far geometry a b)) zero = false)
    (h : Bracket.Found limits (line.gap geometry b) ⟨b.x, line.far geometry a b⟩ x n) :
    SolvedBy limits geometry a b line x n := by
  refine
    { le_max := h.le_max
      closed := fun hn => of_decide_eq_true (h.closed hn)
      untried := h.untried
      bracketed := fun hmax => ⟨(h.tried hmax).1, _, rfl, (h.tried hmax).2, ?_⟩
      earliest := fun k hk hclosed => h.earliest k hk (decide_eq_true hclosed) }
  have hends := Bracket.encloses_iterate (line.gap geometry b) ⟨b.x, line.far geometry a b⟩ (n - 1)
  refine ⟨hends.lo.imp_right fun hlo => of_decide_eq_true hlo, ?_⟩
  rcases hends.hi with hhi | hhi
  · rw [hhi]
    exact of_decide_eq_false hfar
  · exact of_decide_eq_false hhi

/--
For all numbers, infinities and what is no number among them: what a search reports lies in
the middle of a stretch that halvings of the first one have left, at whose near end an
interceptor is late, unless the target is there, and at whose far end it is not.  If tries are
left, the gap is within the tolerance.  Who is out of reach is so at the far end.
-/
theorem solved_in_bracket (limits : SearchLimits Float32) (geometry : InterceptGeometry Float32)
    (fallback : Float32) (samples : List (Sample Float32)) :
    (forall x n, predict limits geometry fallback samples = .solved x n ->
        exists earlier a b line, samples = earlier ++ [a, b] ∧
          Trajectory.through? a b = some line ∧ SolvedBy limits geometry a b line x n) ∧
      forall x, predict limits geometry fallback samples = .outOfReach x ->
        exists earlier a b line, samples = earlier ++ [a, b] ∧
          Trajectory.through? a b = some line ∧ x = line.far geometry a b ∧
          line.gap geometry b x < Single.ofInt 0 := by
  rcases predict_cases limits geometry fallback samples with
    ⟨x, hlast⟩ | ⟨x, hdirect⟩ | ⟨earlier, a, b, line, hsamples, hline, halong⟩
  · rw [hlast]
    exact ⟨nofun, nofun⟩
  · rw [hdirect]
    exact ⟨nofun, nofun⟩
  · rw [halong]
    rcases predicted_cases limits geometry a b line with
      ⟨hlate, hpredicted⟩ | ⟨hfar, x, n, hpredicted, hfound⟩
    · rw [hpredicted]
      refine ⟨nofun, ?_⟩
      rintro x ⟨⟩
      exact ⟨earlier, a, b, line, hsamples, hline, rfl, of_decide_eq_true hlate⟩
    · rw [hpredicted]
      refine ⟨?_, nofun⟩
      rintro x' n' ⟨⟩
      exact ⟨earlier, a, b, line, hsamples, hline, solvedBy_of_found hfar hfound⟩

def columns : InterceptGeometry Float32 :=
  ⟨Single.ofInt 373, Single.ofInt 150, Single.ofInt 8, Single.ofInt 631⟩

theorem solved_in_bracket_seventh :
    exists (samples : List (Sample Float32)) (x : Float32),
      let limits := ({} : PredictorSettings).searchLimits
      predict limits columns (Single.ofInt 0) samples = .solved x 7 ∧
        exists earlier a b line, samples = earlier ++ [a, b] ∧
          Trajectory.through? a b = some line ∧
          (line.gap columns b x).abs <= limits.tolerance ∧
          SolvedBy limits columns a b line x 7 := by
  let samples : List (Sample Float32) :=
    [⟨Single.ofInt 90, Single.ofInt 30, Single.ofInt 0⟩,
      ⟨Single.ofInt 100, Single.ofInt 50, Single.ofInt 1⟩]
  have hsolved : predict ({} : PredictorSettings).searchLimits columns (Single.ofInt 0) samples =
      .solved (Float32.ofBits 0x42edda00) 7 := by
    decide +kernel
  rcases (solved_in_bracket _ _ _ _).1 _ _ hsolved with
    ⟨earlier, a, b, line, hsamples, hline, hsolvedBy⟩
  exact ⟨samples, _, hsolved, earlier, a, b, line, hsamples, hline,
    hsolvedBy.closed (by decide), hsolvedBy⟩

end Prediction
end AirDefense

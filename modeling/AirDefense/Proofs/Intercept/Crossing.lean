import AirDefense.Proofs.Intercept.Search
import Mathlib.Algebra.Order.Group.Pointwise.Interval
import Mathlib.Analysis.Real.Sqrt

/-!
# The one place where a target is met

Read over an ordered field, without rounding, the gap grows all the way from where the target is
to the far end of the stretch.  An interceptor that is late at the far end is therefore late
everywhere before it.  If it is not, there is at most one place where both arrive at the same
time, and no halving loses it.
-/

namespace AirDefense

/-!
## What is searched for
-/

section

variable {α : Type} [PlaneArithmetic α] {limits : SearchLimits α} {geometry : InterceptGeometry α}
  {a b : Sample α} {line : Trajectory α}

open PlaneArithmetic

namespace Prediction

/-- The prediction comes from a search, and not from a look at the samples alone. -/
def IsSearched : Prediction α -> Prop
  | solved _ _ => True
  | outOfReach _ => True
  | direct _ => False
  | lastKnown _ => False

end Prediction

theorem Trajectory.through?_eq (hmoved : same (b.x - a.x) zero = false)
    (hlater : upTo (b.t - a.t) zero = false) :
    Trajectory.through? a b =
      some
        { slope := (b.y - a.y) / (b.x - a.x)
          intercept := b.y - (b.y - a.y) / (b.x - a.x) * b.x
          speed := hypot (b.x - a.x) (b.y - a.y) / (b.t - a.t) } := by
  simp only [Trajectory.through?, Sample.speedTo?, hmoved, hlater, Bool.false_eq_true, if_false]

/-- Two samples that a search can start from: nothing keeps it from looking along their line. -/
structure Trajectory.IsSearchable (geometry : InterceptGeometry α) (a b : Sample α)
    (line : Trajectory α) : Prop where
  through : Trajectory.through? a b = some line
  later : upTo (b.t - a.t) zero = false
  sideways : same b.x a.x = false
  upright : same b.y a.y = false
  approaching : same (signum (geometry.launchY - b.y)) (signum (b.y - a.y)) = true
  moving : upTo line.speed zero = false

theorem Trajectory.IsSearchable.predictFrom_eq (h : line.IsSearchable geometry a b)
    (limits : SearchLimits α) :
    predictFrom limits geometry a b = line.predicted limits geometry a b := by
  simp only [predictFrom, h.later, h.sideways, h.upright, h.through, h.approaching, h.moving,
    Bool.or_self, Bool.not_true, Bool.false_eq_true, if_false]
  rfl

theorem Trajectory.IsSearchable.isSearched (h : line.IsSearchable geometry a b)
    (limits : SearchLimits α) : (predictFrom limits geometry a b).IsSearched := by
  rw [h.predictFrom_eq]
  rcases predicted_cases limits geometry a b line with ⟨_, hout⟩ | ⟨_, x, n, hsolved, _⟩
  · rw [hout]
    trivial
  · rw [hsolved]
    trivial

theorem exists_isSearchable (h : (predictFrom limits geometry a b).IsSearched) :
    exists line : Trajectory α, line.IsSearchable geometry a b := by
  unfold predictFrom at h
  split at h
  · exact h.elim
  · rename_i hlater
    split at h
    · exact h.elim
    · rename_i hmoved
      split at h
      · exact h.elim
      · rename_i line hline
        simp only at h
        split at h
        · exact h.elim
        · rename_i hguard
          simp only [Bool.or_eq_true, not_or, Bool.not_eq_true, Bool.not_eq_false']
            at hlater hmoved hguard
          exact ⟨line, hline, hlater, hmoved.1, hmoved.2, hguard.1, hguard.2⟩

end

/-!
## Arithmetic without rounding
-/

/-- The operations of an ordered field; `hypot` is the length of a vector. -/
@[reducible] def PlaneArithmetic.exact {α : Type} [Field α] [LinearOrder α]
    (hypot : α -> α -> α) : PlaneArithmetic α where
  zero := 0
  half := 1 / 2
  abs x := |x|
  signum x := if x < 0 then -1 else 1
  least := min
  greatest := max
  hypot := hypot
  same x y := x = y
  below x y := x < y
  upTo x y := x <= y

/-- A length is zero at the origin only, and grows with either coordinate. -/
structure IsLength {α : Type} [Field α] [LinearOrder α] (hypot : α -> α -> α) : Prop where
  nonneg : forall u v, 0 <= hypot u v
  eq_zero_iff : forall u v, hypot u v = 0 <-> u = 0 ∧ v = 0
  lt_left : forall u u' v, |u| < |u'| -> hypot u v < hypot u' v
  lt_right : forall u v v', |v| < |v'| -> hypot u v < hypot u v'

theorem IsLength.lt {α : Type} [Field α] [LinearOrder α] {hypot : α -> α -> α} {u u' v v' : α}
    (h : IsLength hypot) (hu : |u| < |u'|) (hv : |v| < |v'|) : hypot u v < hypot u' v' :=
  (h.lt_left _ _ _ hu).trans (h.lt_right _ _ _ hv)

namespace Unrounded

section

variable {α : Type} [Field α] [LinearOrder α] (hypot : α -> α -> α)

/-!
The functions of an interception, computed without rounding.
-/

def predict (limits : SearchLimits α) (geometry : InterceptGeometry α) (fallback : α)
    (samples : List (Sample α)) : Prediction α :=
  @AirDefense.predict α (.exact hypot) limits geometry fallback samples

def line? (a b : Sample α) : Option (Trajectory α) :=
  @Trajectory.through? α (.exact hypot) a b

def gap (line : Trajectory α) (geometry : InterceptGeometry α) (b : Sample α) : α -> α :=
  @Trajectory.gap α (.exact hypot) line geometry b

def far (line : Trajectory α) (geometry : InterceptGeometry α) (a b : Sample α) : α :=
  @Trajectory.far α (.exact hypot) line geometry a b

def halve (gap : α -> α) (r : Bracket α) : Bracket α :=
  @Bracket.halve α (.exact hypot) gap r

def middle (r : Bracket α) : α := 1 / 2 * (r.lo + r.hi)

theorem halve_cases (gap : α -> α) (r : Bracket α) :
    halve hypot gap r = ⟨middle r, r.hi⟩ ∨ halve hypot gap r = ⟨r.lo, middle r⟩ := by
  by_cases hlate : gap (middle r) < 0
  · exact .inl (if_pos (decide_eq_true hlate))
  · exact .inr (if_neg fun hbelow => hlate (of_decide_eq_true hbelow))

end

section

variable {α : Type} [Field α] [LinearOrder α] {hypot : α -> α -> α} {geometry : InterceptGeometry α}
  {a b : Sample α} {line : Trajectory α} {x y z : α}

def lineThrough (hypot : α -> α -> α) (a b : Sample α) : Trajectory α :=
  let slope := (b.y - a.y) / (b.x - a.x)
  { slope
    intercept := b.y - slope * b.x
    speed := hypot (b.x - a.x) (b.y - a.y) / (b.t - a.t) }

structure IsFlight (hypot : α -> α -> α) (geometry : InterceptGeometry α) (a b : Sample α)
    (line : Trajectory α) : Prop where
  slope_eq : line.slope = (b.y - a.y) / (b.x - a.x)
  intercept_eq : line.intercept = b.y - line.slope * b.x
  later : a.t < b.t
  sideways : b.x ≠ a.x
  upright : b.y ≠ a.y
  approaching : geometry.launchY < b.y <-> b.y < a.y
  moving : 0 < line.speed

theorem IsFlight.slope_ne_zero (h : IsFlight hypot geometry a b line) : line.slope ≠ 0 := by
  rw [h.slope_eq]
  exact div_ne_zero (sub_ne_zero.mpr h.upright) (sub_ne_zero.mpr h.sideways)

/-- The gap grows with the way covered from `start` to `stop`. -/
def Rises (gap : α -> α) (start stop : α) : Prop :=
  forall x, x ∈ Set.uIcc start stop -> forall y, y ∈ Set.uIcc start stop ->
    |x - start| < |y - start| -> gap x < gap y

theorem Rises.mono {gap : α -> α} {start stop : α} (h : Rises gap start stop)
    (hmem : z ∈ Set.uIcc start stop) : Rises gap start z := by
  have hsub : Set.uIcc start z ⊆ Set.uIcc start stop :=
    Set.uIcc_subset_uIcc Set.left_mem_uIcc hmem
  exact fun x hx y hy => h x (hsub hx) y (hsub hy)

def IsFlight.landing (geometry : InterceptGeometry α) (line : Trajectory α) : α :=
  (geometry.launchY - line.intercept) / line.slope

theorem IsFlight.far_eq_min (hright : a.x < b.x) :
    far hypot line geometry a b = min geometry.maxX (landing geometry line) :=
  if_pos (decide_eq_true hright)

theorem IsFlight.far_eq_max (hleft : ¬ a.x < b.x) :
    far hypot line geometry a b = max geometry.minX (landing geometry line) :=
  if_neg fun hbelow => hleft (of_decide_eq_true hbelow)

variable [IsStrictOrderedRing α]

theorem sign_eq_iff {u v : α} :
    (if u < 0 then (-1 : α) else 1) = (if v < 0 then -1 else 1) <-> (u < 0 <-> v < 0) := by
  have hne : (-1 : α) ≠ 1 := (neg_lt_self one_pos).ne
  by_cases hu : u < 0 <;> by_cases hv : v < 0 <;> simp [hu, hv, hne, hne.symm]

theorem isFlight (h : @Trajectory.IsSearchable α (.exact hypot) geometry a b line) :
    IsFlight hypot geometry a b line := by
  rcases h with ⟨hline, hlater, hsideways, hupright, happroaching, hmoving⟩
  have hmoved : b.x ≠ a.x := of_decide_eq_false hsideways
  have heq : lineThrough hypot a b = line :=
    Option.some.inj ((@Trajectory.through?_eq α (.exact hypot) a b
      (decide_eq_false (sub_ne_zero.mpr hmoved)) hlater).symm.trans hline)
  have htime : ¬ b.t - a.t <= 0 := of_decide_eq_false hlater
  have hspeed : ¬ line.speed <= 0 := of_decide_eq_false hmoving
  have hsigns : geometry.launchY - b.y < 0 <-> b.y - a.y < 0 :=
    sign_eq_iff.mp (of_decide_eq_true happroaching)
  rw [sub_neg, sub_neg] at hsigns
  exact
    { slope_eq := by rw [← heq]; rfl
      intercept_eq := by rw [← heq]; rfl
      later := by linarith
      sideways := hmoved
      upright := of_decide_eq_false hupright
      approaching := hsigns
      moving := not_le.mp hspeed }

theorem isSearchable (hlength : IsLength hypot) (hlater : a.t < b.t) (hsideways : b.x ≠ a.x)
    (hupright : b.y ≠ a.y) (happroaching : geometry.launchY < b.y <-> b.y < a.y) :
    @Trajectory.IsSearchable α (.exact hypot) geometry a b (lineThrough hypot a b) := by
  have htime : ¬ b.t - a.t <= 0 := by linarith
  have hspeed : 0 < (lineThrough hypot a b).speed := by
    refine div_pos (lt_of_le_of_ne (hlength.nonneg _ _) fun hzero => ?_) (sub_pos.mpr hlater)
    exact hsideways (sub_eq_zero.mp ((hlength.eq_zero_iff _ _).mp hzero.symm).1)
  have hsigns : geometry.launchY - b.y < 0 <-> b.y - a.y < 0 := by
    rw [sub_neg, sub_neg]
    exact happroaching
  exact @Trajectory.IsSearchable.mk α (.exact hypot) _ _ _ _
    (@Trajectory.through?_eq α (.exact hypot) a b
      (decide_eq_false (sub_ne_zero.mpr hsideways)) (decide_eq_false htime))
    (decide_eq_false htime) (decide_eq_false hsideways) (decide_eq_false hupright)
    (decide_eq_true (sign_eq_iff.mpr hsigns)) (decide_eq_false hspeed.not_ge)

/-!
## Distances on a stretch
-/

/-- On the way from `p` to `q`, what is left of the way is what has not been covered. -/
theorem abs_left_of_mem_uIcc {p q : α} (h : x ∈ Set.uIcc p q) : |q - x| = |q - p| - |x - p| := by
  rcases Set.mem_uIcc.mp h with ⟨hp, hq⟩ | ⟨hq, hp⟩
  · rw [abs_of_nonneg (by linarith), abs_of_nonneg (by linarith), abs_of_nonneg (by linarith)]
    ring
  · rw [abs_of_nonpos (by linarith), abs_of_nonpos (by linarith), abs_of_nonpos (by linarith)]
    ring

theorem mem_uIcc_of_abs_le {p q : α} (hx : x ∈ Set.uIcc p q) (hy : y ∈ Set.uIcc p q)
    (hz : z ∈ Set.uIcc p q) (hxz : |x - p| <= |z - p|) (hzy : |z - p| <= |y - p|) :
    z ∈ Set.uIcc x y := by
  rcases le_total p q with hpq | hqp
  · rw [Set.uIcc_of_le hpq, Set.mem_Icc] at hx hy hz
    rw [abs_of_nonneg (by linarith), abs_of_nonneg (by linarith)] at hxz hzy
    exact Set.mem_uIcc.mpr (.inl ⟨by linarith, by linarith⟩)
  · rw [Set.uIcc_of_ge hqp, Set.mem_Icc] at hx hy hz
    rw [abs_of_nonpos (by linarith), abs_of_nonpos (by linarith)] at hxz hzy
    exact Set.mem_uIcc.mpr (.inr ⟨by linarith, by linarith⟩)

theorem eq_of_abs_sub_eq {p q : α} (hx : x ∈ Set.uIcc p q) (hy : y ∈ Set.uIcc p q)
    (heq : |x - p| = |y - p|) : x = y := by
  have hmem := mem_uIcc_of_abs_le hy hy hx heq.ge heq.le
  rwa [Set.uIcc_self, Set.mem_singleton_iff] at hmem

/-- Nowhere before the end is the gap greater than there. -/
theorem Rises.le_stop {gap : α -> α} {start stop : α} (h : Rises gap start stop)
    (hx : x ∈ Set.uIcc start stop) : gap x <= gap stop := by
  rcases (Set.abs_sub_left_of_mem_uIcc hx).lt_or_eq with hlt | heq
  · exact (h x hx stop Set.right_mem_uIcc hlt).le
  · rw [eq_of_abs_sub_eq hx Set.right_mem_uIcc heq]

theorem Rises.eq_of_eq {gap : α -> α} {start stop : α} (h : Rises gap start stop)
    (hx : x ∈ Set.uIcc start stop) (hy : y ∈ Set.uIcc start stop) (heq : gap x = gap y) :
    x = y := by
  refine eq_of_abs_sub_eq hx hy (le_antisymm ?_ ?_) <;> refine not_lt.mp fun hlt => ?_
  · exact (h y hy x hx hlt).ne heq.symm
  · exact (h x hx y hy hlt).ne heq

namespace IsFlight

theorem gap_eq (h : IsFlight hypot geometry a b line) (x : α) :
    gap hypot line geometry b x =
      hypot (x - b.x) (line.slope * (x - b.x)) -
        |line.slope| * |landing geometry line - x| *
          (line.speed / geometry.interceptorSpeed) := by
  have hrow : line.slope * x + line.intercept - b.y = line.slope * (x - b.x) := by
    rw [h.intercept_eq]
    ring
  have hclimb : geometry.launchY - (line.slope * x + line.intercept) =
      line.slope * (landing geometry line - x) := by
    have hslope := h.slope_ne_zero
    unfold landing
    field_simp
    ring
  show hypot (x - b.x) (line.slope * x + line.intercept - b.y) -
    |geometry.launchY - (line.slope * x + line.intercept)| * _ = _
  rw [hrow, hclimb, abs_mul]

theorem rises (h : IsFlight hypot geometry a b line) (hlength : IsLength hypot)
    (hspeed : 0 < geometry.interceptorSpeed) :
    Rises (gap hypot line geometry b) b.x (landing geometry line) := by
  intro x hx y hy hlt
  have hslope : 0 < |line.slope| := abs_pos.mpr h.slope_ne_zero
  have hratio : 0 < line.speed / geometry.interceptorSpeed := div_pos h.moving hspeed
  have hway : hypot (x - b.x) (line.slope * (x - b.x)) <
      hypot (y - b.x) (line.slope * (y - b.x)) := by
    refine hlength.lt hlt ?_
    rw [abs_mul, abs_mul]
    exact mul_lt_mul_of_pos_left hlt hslope
  have hclimb : |landing geometry line - y| < |landing geometry line - x| := by
    rw [abs_left_of_mem_uIcc hx, abs_left_of_mem_uIcc hy]
    linarith
  have hlate := mul_lt_mul_of_pos_right (mul_lt_mul_of_pos_left hclimb hslope) hratio
  rw [h.gap_eq, h.gap_eq]
  linarith

theorem landing_ahead (h : IsFlight hypot geometry a b line) :
    0 <= (landing geometry line - b.x) * (b.x - a.x) := by
  have hup : b.y - a.y ≠ 0 := sub_ne_zero.mpr h.upright
  have hside : b.x - a.x ≠ 0 := sub_ne_zero.mpr h.sideways
  have hfall : 0 <= (geometry.launchY - b.y) / (b.y - a.y) := by
    by_cases hbelow : geometry.launchY < b.y
    · have hya := h.approaching.mp hbelow
      exact div_nonneg_of_nonpos (by linarith) (by linarith)
    · have hya := mt h.approaching.mpr hbelow
      exact div_nonneg (by linarith) (by linarith)
  have hahead : (landing geometry line - b.x) * (b.x - a.x) =
      (geometry.launchY - b.y) / (b.y - a.y) * (b.x - a.x) ^ 2 := by
    rw [landing, h.intercept_eq, h.slope_eq]
    field_simp
    ring
  rw [hahead]
  exact mul_nonneg hfall (sq_nonneg _)

theorem le_landing (h : IsFlight hypot geometry a b line) (hright : a.x < b.x) :
    b.x <= landing geometry line := by
  have hnonneg := nonneg_of_mul_nonneg_left h.landing_ahead (sub_pos.mpr hright)
  linarith

theorem landing_le (h : IsFlight hypot geometry a b line) (hleft : b.x < a.x) :
    landing geometry line <= b.x := by
  have hnonpos := nonpos_of_mul_nonneg_left h.landing_ahead (sub_neg.mpr hleft)
  linarith

theorem far_of_right (h : IsFlight hypot geometry a b line) (hmax : b.x <= geometry.maxX)
    (hright : a.x < b.x) :
    b.x <= far hypot line geometry a b ∧
      far hypot line geometry a b <= landing geometry line := by
  rw [far_eq_min hright]
  exact ⟨le_min hmax (h.le_landing hright), min_le_right _ _⟩

theorem far_of_left (h : IsFlight hypot geometry a b line) (hmin : geometry.minX <= b.x)
    (hleft : b.x < a.x) :
    landing geometry line <= far hypot line geometry a b ∧
      far hypot line geometry a b <= b.x := by
  rw [far_eq_max hleft.not_gt]
  exact ⟨le_max_right _ _, max_le hmin (h.landing_le hleft)⟩

theorem far_mem (h : IsFlight hypot geometry a b line) (hmin : geometry.minX <= b.x)
    (hmax : b.x <= geometry.maxX) :
    far hypot line geometry a b ∈ Set.uIcc b.x (landing geometry line) := by
  rcases lt_or_gt_of_ne h.sideways with hleft | hright
  · rcases h.far_of_left hmin hleft with ⟨hge, hle⟩
    exact Set.mem_uIcc.mpr (.inr ⟨hge, hle⟩)
  · exact Set.mem_uIcc.mpr (.inl (h.far_of_right hmax hright))

theorem gap_start_neg (h : IsFlight hypot geometry a b line) (hlength : IsLength hypot)
    (hspeed : 0 < geometry.interceptorSpeed) (hrow : geometry.launchY ≠ b.y) :
    gap hypot line geometry b b.x < 0 := by
  have hland : landing geometry line ≠ b.x := by
    intro hland
    rw [landing, h.intercept_eq, div_eq_iff h.slope_ne_zero] at hland
    exact hrow (by linarith)
  have hclimb : 0 < |line.slope| * |landing geometry line - b.x| :=
    mul_pos (abs_pos.mpr h.slope_ne_zero) (abs_pos.mpr (sub_ne_zero.mpr hland))
  have hlate := mul_pos hclimb (div_pos h.moving hspeed)
  rw [h.gap_eq, sub_self, mul_zero, (hlength.eq_zero_iff 0 0).mpr ⟨rfl, rfl⟩]
  linarith

end IsFlight

/-!
## Halvings
-/

variable {gap : α -> α} {start r : Bracket α}

theorem middle_mem (r : Bracket α) : middle r ∈ Set.uIcc r.lo r.hi := by
  unfold middle
  rcases le_total r.lo r.hi with hle | hge
  · exact Set.mem_uIcc.mpr (.inl ⟨by linarith, by linarith⟩)
  · exact Set.mem_uIcc.mpr (.inr ⟨by linarith, by linarith⟩)

theorem abs_middle_sub_le (hz : z ∈ Set.uIcc r.lo r.hi) :
    |middle r - z| <= |r.hi - r.lo| / 2 := by
  unfold middle
  rcases Set.mem_uIcc.mp hz with ⟨hlo, hhi⟩ | ⟨hhi, hlo⟩
  · rw [abs_of_nonneg (by linarith : 0 <= r.hi - r.lo), abs_le]
    constructor <;> linarith
  · rw [abs_of_nonpos (by linarith : r.hi - r.lo <= 0), abs_le]
    constructor <;> linarith

theorem halve_mem (hypot : α -> α -> α) (gap : α -> α) (r : Bracket α) :
    (halve hypot gap r).lo ∈ Set.uIcc r.lo r.hi ∧ (halve hypot gap r).hi ∈ Set.uIcc r.lo r.hi := by
  rcases halve_cases hypot gap r with hhalve | hhalve <;> rw [hhalve]
  · exact ⟨middle_mem r, Set.right_mem_uIcc⟩
  · exact ⟨Set.left_mem_uIcc, middle_mem r⟩

theorem halve_length (hypot : α -> α -> α) (gap : α -> α) (r : Bracket α) :
    |(halve hypot gap r).hi - (halve hypot gap r).lo| = |r.hi - r.lo| / 2 := by
  have hhalf : |r.hi - r.lo| / 2 = |(r.hi - r.lo) / 2| := by rw [abs_div, abs_two]
  rw [hhalf]
  rcases halve_cases hypot gap r with hhalve | hhalve <;> rw [hhalve] <;> unfold middle <;>
    exact congrArg _ (by ring)

theorem iterate_halve_mem (hypot : α -> α -> α) (gap : α -> α) (start : Bracket α) (k : Nat) :
    ((halve hypot gap)^[k] start).lo ∈ Set.uIcc start.lo start.hi ∧
      ((halve hypot gap)^[k] start).hi ∈ Set.uIcc start.lo start.hi := by
  induction k with
  | zero => exact ⟨Set.left_mem_uIcc, Set.right_mem_uIcc⟩
  | succ k ih =>
      rw [Function.iterate_succ_apply']
      have hsub := Set.uIcc_subset_uIcc ih.1 ih.2
      have hmem := halve_mem hypot gap ((halve hypot gap)^[k] start)
      exact ⟨hsub hmem.1, hsub hmem.2⟩

theorem iterate_halve_length (hypot : α -> α -> α) (gap : α -> α) (start : Bracket α) (k : Nat) :
    |((halve hypot gap)^[k] start).hi - ((halve hypot gap)^[k] start).lo| =
      |start.hi - start.lo| / 2 ^ k := by
  induction k with
  | zero => simp
  | succ k ih =>
      rw [Function.iterate_succ_apply', halve_length, ih, pow_succ, div_div]

/-- Both ends of a stretch stay on their sides of a crossing. -/
theorem mem_iterate_halve (hrises : Rises gap start.lo start.hi) (hlo : gap start.lo < 0)
    (hhi : ¬ gap start.hi < 0) (hz : z ∈ Set.uIcc start.lo start.hi) (hzero : gap z = 0)
    (k : Nat) :
    z ∈ Set.uIcc ((halve hypot gap)^[k] start).lo ((halve hypot gap)^[k] start).hi := by
  have hmem := iterate_halve_mem hypot gap start k
  rcases @Bracket.encloses_iterate α (.exact hypot) gap start k with ⟨hnear, hfar⟩
  have hlate : gap ((halve hypot gap)^[k] start).lo < 0 := by
    rcases hnear with hstart | hlate
    · exact hstart ▸ hlo
    · exact of_decide_eq_true hlate
  have hearly : ¬ gap ((halve hypot gap)^[k] start).hi < 0 := by
    rcases hfar with hstart | hearly
    · exact hstart ▸ hhi
    · exact of_decide_eq_false hearly
  refine mem_uIcc_of_abs_le hmem.1 hmem.2 hz (not_lt.mp fun hlt => ?_) (not_lt.mp fun hlt => ?_)
  · have hgap := hrises _ hz _ hmem.1 hlt
    linarith
  · have hgap := hrises _ hmem.2 _ hz hlt
    exact hearly (by linarith)

/-!
## Predictions
-/

variable {limits : SearchLimits α} {fallback : α} {earlier : List (Sample α)} {n : Nat}

theorem abs_sub_le_of_found (hrises : Rises gap start.lo start.hi) (hlo : gap start.lo < 0)
    (hhi : ¬ gap start.hi < 0) (hz : z ∈ Set.uIcc start.lo start.hi) (hzero : gap z = 0)
    (h : @Bracket.Found α (.exact hypot) limits gap start x n) :
    |x - z| <= |start.hi - start.lo| / 2 ^ n := by
  rcases h with ⟨hle, _, huntried, htried, _⟩
  rcases Nat.eq_zero_or_pos limits.maxIterations with hmax | hmax
  · have hn : n = 0 := by omega
    rw [huntried hmax, hn, pow_zero, div_one]
    exact Set.abs_sub_right_of_mem_uIcc hz
  · rcases htried hmax with ⟨hn, hx⟩
    have hmiddle := abs_middle_sub_le
      (mem_iterate_halve hrises hlo hhi hz hzero (n - 1) :
        z ∈ Set.uIcc ((halve hypot gap)^[n - 1] start).lo ((halve hypot gap)^[n - 1] start).hi)
    rw [iterate_halve_length, div_div, ← pow_succ, Nat.sub_add_cancel hn] at hmiddle
    rw [hx]
    exact hmiddle

/--
Without rounding, and with any length there is: let a target be searched for that is between the
usable columns and not on the row that interceptors start from.  Where it is an interceptor is
late, and from there to the far end, which is ahead of it, the gap grows.  If the target is found
out of reach, an interceptor is late wherever it comes on the stretch.  If it is not, there is at
most one place where both arrive at the same time; after each halving it is still in the stretch,
which has half the length, and what is reported is that close to it.
-/
theorem at_most_one_crossing (hlength : IsLength hypot)
    (hsearched : (predict hypot limits geometry fallback (earlier ++ [a, b])).IsSearched)
    (hspeed : 0 < geometry.interceptorSpeed) (hrow : geometry.launchY ≠ b.y)
    (hmin : geometry.minX <= b.x) (hmax : b.x <= geometry.maxX) :
    exists line, line? hypot a b = some line ∧ 0 < line.speed ∧
      let prediction := predict hypot limits geometry fallback (earlier ++ [a, b])
      let gap := Unrounded.gap hypot line geometry b
      let far := Unrounded.far hypot line geometry a b
      let after (k : Nat) : Bracket α := (halve hypot gap)^[k] ⟨b.x, far⟩
      gap b.x < 0 ∧ (a.x < b.x -> b.x <= far) ∧ (b.x < a.x -> far <= b.x) ∧
        Rises gap b.x far ∧
        (forall k, |(after k).hi - (after k).lo| = |far - b.x| / 2 ^ k) ∧
        ((prediction = .outOfReach far ∧ forall x, x ∈ Set.uIcc b.x far -> gap x < 0) ∨
          (exists x n, prediction = .solved x n ∧ n <= limits.maxIterations ∧
            (forall z, z ∈ Set.uIcc b.x far -> gap z = 0 ->
              (forall w, w ∈ Set.uIcc b.x far -> gap w = 0 -> w = z) ∧
                (forall k, z ∈ Set.uIcc (after k).lo (after k).hi) ∧
                |x - z| <= |far - b.x| / 2 ^ n))) := by
  have hpredict := @predict_append α (.exact hypot) limits geometry fallback earlier a b
  have hsearched : (@predictFrom α (.exact hypot) limits geometry a b).IsSearched :=
    hpredict ▸ hsearched
  rcases @exists_isSearchable α (.exact hypot) limits geometry a b hsearched with ⟨line, hline⟩
  have hflight := isFlight hline
  have hpredicted := hpredict.trans
    (@Trajectory.IsSearchable.predictFrom_eq α (.exact hypot) geometry a b line hline limits)
  have hrises := (hflight.rises hlength hspeed).mono (hflight.far_mem hmin hmax)
  have hlo := hflight.gap_start_neg hlength hspeed hrow
  refine ⟨line, by rcases hline with ⟨hthrough, _⟩; exact hthrough, hflight.moving, hlo,
    fun hright => (hflight.far_of_right hmax hright).1,
    fun hleft => (hflight.far_of_left hmin hleft).2, hrises,
    iterate_halve_length hypot _ _, ?_⟩
  rcases @predicted_cases α (.exact hypot) limits geometry a b line with
    ⟨hlate, hout⟩ | ⟨hearly, x, n, hsolved, hfound⟩
  · refine .inl ⟨hpredicted.trans hout, fun x hx => ?_⟩
    exact (hrises.le_stop hx).trans_lt (of_decide_eq_true hlate)
  · have hhi : ¬ gap hypot line geometry b (far hypot line geometry a b) < 0 :=
      of_decide_eq_false hearly
    have hle : n <= limits.maxIterations := by
      rcases hfound with ⟨hle, _⟩
      exact hle
    refine .inr ⟨x, n, hpredicted.trans hsolved, hle, fun z hz hzero => ⟨?_, ?_, ?_⟩⟩
    · exact fun w hw hzero' => hrises.eq_of_eq hw hz (hzero'.trans hzero.symm)
    · exact fun k => mem_iterate_halve hrises hlo hhi hz hzero k
    · exact abs_sub_le_of_found hrises hlo hhi hz hzero hfound

end

/-- The length of a vector in the plane. -/
noncomputable def euclidean (u v : ℝ) : ℝ := Real.sqrt (u ^ 2 + v ^ 2)

theorem isLength_euclidean : IsLength euclidean := by
  refine
    { nonneg := fun u v => Real.sqrt_nonneg _
      eq_zero_iff := fun u v => ?_
      lt_left := fun u u' v hlt => ?_
      lt_right := fun u v v' hlt => ?_ }
  · rw [euclidean, Real.sqrt_eq_zero (by positivity)]
    constructor
    · intro hzero
      constructor <;> nlinarith [sq_nonneg u, sq_nonneg v]
    · rintro ⟨rfl, rfl⟩
      norm_num
  · refine Real.sqrt_lt_sqrt (by positivity) ?_
    linarith [sq_lt_sq.mpr hlt]
  · refine Real.sqrt_lt_sqrt (by positivity) ?_
    linarith [sq_lt_sq.mpr hlt]

theorem at_most_one_crossing_eleventh_column :
    let a : Sample ℝ := ⟨0, 0, 0⟩
    let b : Sample ℝ := ⟨3, 4, 1⟩
    let geometry : InterceptGeometry ℝ := ⟨28, 5, 0, 100⟩
    let limits : SearchLimits ℝ := ⟨1 / 2, 32⟩
    exists line x n, line? euclidean a b = some line ∧ gap euclidean line geometry b 11 = 0 ∧
      predict euclidean limits geometry 0 [a, b] = .solved x n ∧ n <= 32 ∧
      |x - 11| <= 18 / 2 ^ n := by
  intro a b geometry limits
  have hlength (u v w : ℝ) (hw : 0 <= w) (hsq : w * w = u ^ 2 + v ^ 2) : euclidean u v = w :=
    (Real.sqrt_eq_iff_mul_self_eq (hsq ▸ mul_self_nonneg w) hw).mpr hsq.symm
  have hline : @Trajectory.IsSearchable ℝ (.exact euclidean) geometry a b
      (lineThrough euclidean a b) :=
    isSearchable isLength_euclidean (by norm_num [a, b]) (by norm_num [a, b])
      (by norm_num [a, b]) (by norm_num [a, b, geometry])
  have hsearched : (predict euclidean limits geometry 0 ([] ++ [a, b])).IsSearched :=
    @Trajectory.IsSearchable.isSearched ℝ (.exact euclidean) geometry a b _ hline limits
  have hflight := isFlight hline
  have hslope : (lineThrough euclidean a b).slope = 4 / 3 := by norm_num [lineThrough, a, b]
  have hspeed : (lineThrough euclidean a b).speed = 5 := by
    norm_num [lineThrough, a, b, hlength 3 4 5]
  have hlanding : IsFlight.landing geometry (lineThrough euclidean a b) = 21 := by
    norm_num [IsFlight.landing, lineThrough, a, b, geometry]
  have hfar : far euclidean (lineThrough euclidean a b) geometry a b = 21 := by
    rw [IsFlight.far_eq_min (by norm_num [a, b]), hlanding]
    exact min_eq_right (by norm_num [geometry])
  have hmet : gap euclidean (lineThrough euclidean a b) geometry b 11 = 0 := by
    rw [hflight.gap_eq, hslope, hspeed, hlanding]
    norm_num [b, geometry, hlength 8 (32 / 3) (40 / 3)]
  rcases at_most_one_crossing isLength_euclidean hsearched
    (by norm_num [geometry]) (by norm_num [geometry, b]) (by norm_num [geometry, b])
    (by norm_num [geometry, b]) with ⟨line, hthrough, _, _, _, _, _, _, hcases⟩
  rcases hline with ⟨hline, _⟩
  have heq : lineThrough euclidean a b = line := Option.some.inj (hline.symm.trans hthrough)
  rw [← heq, hfar] at hcases
  have hmem : (11 : ℝ) ∈ Set.uIcc b.x 21 := Set.mem_uIcc.mpr (.inl (by norm_num [b]))
  rcases hcases with ⟨_, hlate⟩ | ⟨x, n, hsolved, hle, hcrossing⟩
  · exact absurd hmet (hlate 11 hmem).ne
  · refine ⟨_, x, n, hline, hmet, hsolved, hle, ?_⟩
    have hnear := (hcrossing 11 hmem hmet).2.2
    norm_num [b] at hnear
    exact hnear

end Unrounded
end AirDefense

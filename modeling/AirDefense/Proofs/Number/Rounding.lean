import Mathlib

/-!
# Rounding to single precision

A result is computed exactly and then rounded: digits are shifted out one by one, and two bits
remember what has been lost.  What comes out is one of the two numbers of single precision next
to what went in, and so none lies between the two.
-/

namespace AirDefense
namespace Rounding

open Float.Model (Format UnpackedFloat totalExponent)
open Float.Model.UnpackedFloat

/-!
## Mantissas and exponents
-/

def value (m : Nat) (e : Int) : Rat :=
  m * 2 ^ e

/--
A mantissa and an exponent as single precision has them: no more than 24 digits, and no
fewer unless the exponent is the least one.
-/
structure Canonical (m : Nat) (e : Int) : Prop where
  lt : m < 2 ^ 24
  least_le : -149 <= e
  normal : e = -149 ∨ 2 ^ 23 <= m

variable {m M d : Nat} {e E s : Int} {x : Rat}

theorem value_nonneg (m : Nat) (e : Int) : 0 <= value m e := by
  unfold value
  positivity

theorem value_pos (hm : 0 < m) (e : Int) : 0 < value m e := by
  unfold value
  positivity

theorem value_shift (m : Nat) (e : Int) (k : Nat) : value (m * 2 ^ k) e = value m (e + k) := by
  unfold value
  rw [zpow_add₀ (by norm_num), zpow_natCast]
  push_cast
  ring

theorem value_lt_iff : value m e < value M e ↔ m < M := by
  unfold value
  rw [mul_lt_mul_iff_left₀ (by positivity), Nat.cast_lt]

theorem value_le_iff : value m e <= value M e ↔ m <= M := by
  rw [← not_lt, value_lt_iff, not_lt]

theorem Canonical.succ_le (h : Canonical m e) (H : Canonical M E) (he : e < E) :
    value (m + 1) e <= value M E := by
  have hnormal : 2 ^ 23 <= M := by
    rcases H.normal with hleast | hnormal
    · have hle := h.least_le
      omega
    · exact hnormal
  have hlt := h.lt
  calc value (m + 1) e <= value (2 ^ 23 * 2 ^ 1) e := value_le_iff.mpr (by omega)
    _ = value (2 ^ 23) (e + 1) := value_shift (2 ^ 23) e 1
    _ <= value (M * 2 ^ (E - (e + 1)).toNat) (e + 1) :=
        value_le_iff.mpr (hnormal.trans (Nat.le_mul_of_pos_right M (Nat.two_pow_pos _)))
    _ = value M E := by rw [value_shift, Int.toNat_of_nonneg (by omega), add_sub_cancel]

theorem Canonical.exponent_le (h : Canonical m e) (H : Canonical M E)
    (hle : value m e <= value M E) : e <= E := by
  by_contra hgt
  have hgap := H.succ_le h (not_le.mp hgt)
  exact absurd (hgap.trans hle) (not_le.mpr (value_lt_iff.mpr M.lt_succ_self))

theorem Canonical.le_or_succ_le (h : Canonical m e) (H : Canonical M E) :
    value M E <= value m e ∨ value (m + 1) e <= value M E := by
  rcases lt_trichotomy e E with hlt | rfl | hgt
  · exact .inr (h.succ_le H hlt)
  · exact (Nat.lt_or_ge m M).symm.imp value_le_iff.mpr value_le_iff.mpr
  · exact .inl ((value_lt_iff.mpr M.lt_succ_self).le.trans (H.succ_le h hgt))

/-!
## Numbers next to each other
-/

def IsDigital (q : Rat) : Prop :=
  exists m e, Canonical m e ∧ |q| = value m e

/-- No number of single precision lies between `x` and `y`. -/
def IsRounded (x y : Rat) : Prop :=
  forall q, IsDigital q -> (q <= x -> q <= y) ∧ (x <= q -> y <= q)

variable {y : Rat}

theorem Canonical.isDigital (h : Canonical m e) : IsDigital (value m e) :=
  ⟨m, e, h, abs_of_nonneg (value_nonneg m e)⟩

theorem IsDigital.neg (h : IsDigital x) : IsDigital (-x) := by
  rcases h with ⟨m, e, hcanonical, hx⟩
  exact ⟨m, e, hcanonical, (abs_neg x).trans hx⟩

theorem IsDigital.double (h : IsDigital x) : IsDigital (2 * x) := by
  rcases h with ⟨m, e, hcanonical, hx⟩
  have hdouble : |2 * x| = value (m * 2 ^ 1) e := by
    rw [value_shift, abs_mul, hx, value, value, zpow_add₀ (by norm_num)]
    norm_num
    ring
  by_cases hnormal : 2 ^ 23 <= m
  · refine ⟨m, e + 1, ?_, hdouble.trans (value_shift m e 1)⟩
    exact ⟨hcanonical.lt, by linarith [hcanonical.least_le], .inr hnormal⟩
  · refine ⟨m * 2 ^ 1, e, ⟨by omega, hcanonical.least_le, .inl ?_⟩, hdouble⟩
    exact hcanonical.normal.resolve_right hnormal

theorem isRounded_self (x : Rat) : IsRounded x x :=
  fun _ _ => ⟨id, id⟩

theorem IsRounded.neg (h : IsRounded x y) : IsRounded (-x) (-y) :=
  fun q hq => ⟨fun hle => le_neg.mp ((h (-q) hq.neg).2 (le_neg.mp hle)),
    fun hle => neg_le.mp ((h (-q) hq.neg).1 (neg_le.mp hle))⟩

/-- Both neighbours of a number are rounded to; the greater one only if something is lost. -/
theorem Canonical.isRounded (h : Canonical m e) (hle : value m e <= x)
    (hlt : x < value (m + 1) e)
    (hy : y = value m e ∨ y = value (m + 1) e ∧ value m e < x) : IsRounded x y := by
  have hends : value m e <= y ∧ y <= value (m + 1) e := by
    rcases hy with rfl | ⟨rfl, hlost⟩
    · exact ⟨le_rfl, hle.trans hlt.le⟩
    · exact ⟨hle.trans hlt.le, le_rfl⟩
  have hnonneg := value_nonneg m e
  rintro q ⟨M, E, H, hq⟩
  by_cases hsign : q < 0
  · exact ⟨fun _ => by linarith, fun hxq => by linarith⟩
  · rw [abs_of_nonneg (not_lt.mp hsign)] at hq
    subst hq
    rcases h.le_or_succ_le H with hbelow | habove
    · refine ⟨fun _ => hbelow.trans hends.1, fun hxq => ?_⟩
      rcases hy with rfl | ⟨_, hlost⟩
      · exact hle.trans hxq
      · exact absurd (hlost.trans_le (hxq.trans hbelow)) (lt_irrefl _)
    · exact ⟨fun hqx => absurd (habove.trans hqx) (not_le.mpr hlt), fun _ => hends.2.trans habove⟩

/-!
## Shifting digits out
-/

variable {em : ExtendedMantissa} {k r : Nat}

/--
The mantissa is what is left of `d` without its last `k` digits, and the bits tell how the
number `r` that these write compares with half of a unit.
-/
structure Truncates (em : ExtendedMantissa) (d k r : Nat) : Prop where
  eq : d = em.mantissa * 2 ^ k + r
  lt : r < 2 ^ k
  roundBit : em.roundBit = true ↔ 2 ^ k <= 2 * r
  stickyBit : em.stickyBit = true ↔ r ≠ 0 ∧ 2 * r ≠ 2 ^ k

theorem truncates_exact (d : Nat) :
    Truncates (.ofMantissaAndAccuracy d .exact) d 0 0 where
  eq := by simp [ExtendedMantissa.ofMantissaAndAccuracy]
  lt := by decide
  roundBit := by simp [ExtendedMantissa.ofMantissaAndAccuracy]
  stickyBit := by simp [ExtendedMantissa.ofMantissaAndAccuracy]

theorem Truncates.shiftRightOne (h : Truncates em d k r) :
    Truncates em.shiftRightOne d (k + 1) (em.mantissa % 2 * 2 ^ k + r) := by
  have hlt := h.lt
  have heq := h.eq
  have hround := h.roundBit
  have hsticky := h.stickyBit
  have hpow : 2 ^ (k + 1) = 2 * 2 ^ k := Nat.pow_succ'
  have hsplit : em.mantissa * 2 ^ k =
      em.mantissa / 2 * 2 ^ (k + 1) + em.mantissa % 2 * 2 ^ k := by
    conv_lhs => rw [← Nat.div_add_mod em.mantissa 2]
    rw [hpow]
    ring
  have hbit : em.mantissa % 2 = 0 ∧ em.mantissa % 2 * 2 ^ k = 0 ∨
      em.mantissa % 2 = 1 ∧ em.mantissa % 2 * 2 ^ k = 2 ^ k := by
    rcases Nat.mod_two_eq_zero_or_one em.mantissa with hbit | hbit <;> simp [hbit]
  exact
    { eq := by
        show d = em.mantissa / 2 * _ + _
        omega
      lt := by omega
      roundBit := by
        simp only [ExtendedMantissa.shiftRightOne, bne_iff_ne, ne_eq]
        omega
      stickyBit := by
        simp only [ExtendedMantissa.shiftRightOne, Bool.or_eq_true, hround, hsticky]
        omega }

theorem exists_truncates (d k : Nat) :
    exists r, Truncates (ExtendedMantissa.ofMantissaAndAccuracy d .exact >>> k) d k r := by
  induction k with
  | zero => exact ⟨0, truncates_exact d⟩
  | succ k ih =>
      rcases ih with ⟨r, h⟩
      exact ⟨_, h.shiftRightOne⟩

theorem Truncates.mantissa_eq (h : Truncates em d k r) : em.mantissa = d / 2 ^ k := by
  have hpos : 0 < 2 ^ k := Nat.two_pow_pos k
  rw [h.eq, Nat.mul_comm, Nat.mul_add_div hpos, Nat.div_eq_of_lt h.lt, Nat.add_zero]

theorem Truncates.rounded_cases (h : Truncates em d k r) :
    em.roundedMantissa = em.mantissa ∨ em.roundedMantissa = em.mantissa + 1 ∧ 0 < r := by
  have hround := h.roundBit
  have hpos := Nat.two_pow_pos k
  rcases em with ⟨m, roundBit, stickyBit⟩
  cases roundBit with
  | false => exact .inl (by cases stickyBit <;> rfl)
  | true =>
      simp only [true_iff] at hround
      cases stickyBit with
      | true => exact .inr ⟨rfl, by omega⟩
      | false =>
          have heven : ExtendedMantissa.roundedMantissa ⟨m, true, false⟩ = m + m % 2 := rfl
          rcases Nat.mod_two_eq_zero_or_one m with hbit | hbit
          · exact .inl (by rw [heven, hbit, Nat.add_zero])
          · exact .inr ⟨by rw [heven, hbit], by omega⟩

theorem Truncates.isRounded (h : Truncates em d k r)
    (hcanonical : Canonical em.mantissa (s + k)) :
    IsRounded (value d s) (value em.roundedMantissa (s + k)) := by
  have heq := h.eq
  have hlt := h.lt
  have hnext : (em.mantissa + 1) * 2 ^ k = em.mantissa * 2 ^ k + 2 ^ k := Nat.succ_mul _ _
  apply hcanonical.isRounded
  · rw [← value_shift, value_le_iff]
    omega
  · rw [← value_shift, value_lt_iff]
    omega
  · refine h.rounded_cases.imp (fun hdown => by rw [hdown]) fun ⟨hup, hlost⟩ => ⟨by rw [hup], ?_⟩
    rw [← value_shift, value_lt_iff]
    omega

/-!
## Rounding
-/

theorem targetExponent_eq (m : Nat) (e : Int) :
    Format.binary32.targetExponent (totalExponent m e) = max (m.log2 + e - 23) (-149) := by
  show max ((m.log2 : Int) + 1 + e - 24) (-149) = _
  omega

theorem shiftToTargetExponent_eq (hk : (max ((d.log2 : Int) + s - 23) (-149) - s).toNat = k) :
    shiftToTargetExponent Format.binary32 d s .exact =
      (ExtendedMantissa.ofMantissaAndAccuracy d .exact >>> k, s + k) := by
  unfold shiftToTargetExponent shiftToExponent
  simp only [targetExponent_eq, hk]

theorem Canonical.shiftToTargetExponent_eq (h : Canonical m e) :
    shiftToTargetExponent Format.binary32 m e .exact = (⟨m, false, false⟩, e) := by
  have hlog : m.log2 <= 23 := by
    by_cases hzero : m = 0
    · simp [hzero]
    · exact Nat.le_of_lt_succ ((Nat.log2_lt hzero).mpr h.lt)
  have hleast := h.least_le
  rw [Rounding.shiftToTargetExponent_eq (k := 0) (by omega), Nat.cast_zero, add_zero]
  rfl

theorem shiftToTargetExponent_carry (hleast : -149 <= e) :
    shiftToTargetExponent Format.binary32 (2 ^ 24) e .exact =
      (⟨2 ^ 23, false, false⟩, e + 1) := by
  have hlog : Nat.log2 (2 ^ 24) = 24 := Nat.log2_two_pow
  rw [shiftToTargetExponent_eq (k := 1) (by omega)]
  rfl

theorem canonical_quotient (hk : s + k = max (d.log2 + s - 23) (-149)) (hd : 0 < d) :
    Canonical (d / 2 ^ k) (s + k) := by
  have hpos : 0 < 2 ^ k := Nat.two_pow_pos k
  refine ⟨?_, by omega, ?_⟩
  · rw [Nat.div_lt_iff_lt_mul hpos, ← Nat.pow_add]
    exact Nat.lt_of_lt_of_le Nat.lt_log2_self (Nat.pow_le_pow_right (by decide) (by omega))
  · by_cases hleast : s + k = -149
    · exact .inl hleast
    · have hlog : d.log2 = 23 + k := by omega
      right
      rw [Nat.le_div_iff_mul_le hpos, ← Nat.pow_add, ← hlog]
      exact Nat.log2_self_le hd.ne'

def ofDigits (sign : Sign) (m : Nat) (e : Int) : UnpackedFloat :=
  if h : m = 0 then .zero sign else .finite sign m e (Nat.pos_of_ne_zero h)

/-- The digits that stay are rounded, which may add a digit. -/
theorem roundWithAccuracy_eq (sign : Sign)
    (hshift : shiftToTargetExponent Format.binary32 d s .exact = (em, e))
    (h : Canonical em.mantissa e)
    (hrounded : em.roundedMantissa = em.mantissa ∨ em.roundedMantissa = em.mantissa + 1) :
    exists m e', roundWithAccuracy Format.binary32 sign d s .exact = ofDigits sign m e' ∧
      Canonical m e' ∧ value m e' = value em.roundedMantissa e := by
  have hlt := h.lt
  unfold roundWithAccuracy
  simp only [hshift]
  by_cases hcarry : em.roundedMantissa = 2 ^ 24
  · simp only [hcarry, shiftToTargetExponent_carry h.least_le]
    refine ⟨2 ^ 23, e + 1, rfl, ?_, (value_shift (2 ^ 23) e 1).symm⟩
    exact { lt := by decide, least_le := by linarith [h.least_le], normal := .inr le_rfl }
  · have hcanonical : Canonical em.roundedMantissa e :=
      { lt := by omega
        least_le := h.least_le
        normal := h.normal.imp_right fun hle => by omega }
    simp only [hcanonical.shiftToTargetExponent_eq]
    exact ⟨em.roundedMantissa, e, rfl, hcanonical, rfl⟩

/-- Rounding gives a number of single precision with none between. -/
theorem exists_roundWithAccuracy (sign : Sign)
    (hk : s <= max ((d.log2 : Int) + s - 23) (-149)) (hd : 0 < d) :
    exists m e, roundWithAccuracy Format.binary32 sign d s .exact = ofDigits sign m e ∧
      Canonical m e ∧ IsRounded (value d s) (value m e) := by
  rcases Int.eq_ofNat_of_zero_le (show 0 <= max ((d.log2 : Int) + s - 23) (-149) - s by omega)
    with ⟨k, hshift⟩
  rcases exists_truncates d k with ⟨r, htruncates⟩
  have hcanonical := canonical_quotient (s := s) (k := k) (by omega) hd
  rw [← htruncates.mantissa_eq] at hcanonical
  rcases roundWithAccuracy_eq sign (shiftToTargetExponent_eq (by omega)) hcanonical
    (htruncates.rounded_cases.imp_right And.left) with ⟨m, e, hround, hresult, hvalue⟩
  exact ⟨m, e, hround, hresult, hvalue ▸ htruncates.isRounded hcanonical⟩

theorem log2_shift (hd : 0 < d) (k : Nat) : (d * 2 ^ k).log2 = d.log2 + k := by
  induction k with
  | zero => rw [Nat.pow_zero, Nat.mul_one, Nat.add_zero]
  | succ k ih =>
      have hne : d * 2 ^ k ≠ 0 := (Nat.mul_pos hd (Nat.two_pow_pos k)).ne'
      rw [Nat.pow_succ, ← Nat.mul_assoc, Nat.mul_comm _ 2, Nat.log2_two_mul hne, ih,
        Nat.add_assoc]

theorem exists_round (sign : Sign) (s : Int) (hd : 0 < d) :
    exists m e, UnpackedFloat.round Format.binary32 sign d s = ofDigits sign m e ∧
      Canonical m e ∧ IsRounded (value d s) (value m e) := by
  obtain ⟨k, hk⟩ : exists k, (s - max ((d.log2 : Int) + s - 23) (-149)).toNat = k := ⟨_, rfl⟩
  have hround : UnpackedFloat.round Format.binary32 sign d s =
      roundWithAccuracy Format.binary32 sign (d * 2 ^ k) (s - k) .exact := by
    unfold UnpackedFloat.round decreaseExponent
    simp only [targetExponent_eq, hk, Nat.shiftLeft_eq]
  have hlog := log2_shift hd k
  rcases exists_roundWithAccuracy sign (d := d * 2 ^ k) (s := s - k) (by omega)
    (Nat.mul_pos hd (Nat.two_pow_pos k)) with ⟨m, e, hresult, hcanonical, hrounded⟩
  rw [value_shift, sub_add_cancel] at hrounded
  exact ⟨m, e, hround.trans hresult, hcanonical, hrounded⟩

end Rounding
end AirDefense

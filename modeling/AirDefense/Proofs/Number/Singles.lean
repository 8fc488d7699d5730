import AirDefense.Number.Single
import AirDefense.Proofs.Number.Rounding

/-!
# The values of single-precision numbers

A finite number of single precision has a value.  Comparison is comparison of the values, and
sums, differences and products are those of the values, rounded, unless they are too great.
-/

namespace AirDefense
namespace Rounding

open Float.Model (Format UnpackedFloat)
open Float.Model.UnpackedFloat

variable {m M : Nat} {e E : Int} {sign : Sign} {u v : UnpackedFloat}

/-!
## Bits
-/

def IsSingle : UnpackedFloat -> Prop
  | .finite _ m e _ => Canonical m e ∧ e <= 104
  | _ => True

theorem toNat_append_one (n : BitVec 23) : (1#1 ++ n).toNat = 2 ^ 23 + n.toNat := by
  rw [BitVec.toNat_append, ← Nat.shiftLeft_add_eq_or_of_lt n.isLt]
  rfl

theorem isSingle_unpack (bits : BitVec 32) : IsSingle (unpack Format.binary32 bits) := by
  have hmantissa : (@unpackMantissa Format.binary32 bits).toNat < 2 ^ 23 :=
    BitVec.isLt _
  have hexponent : (@unpackExponent Format.binary32 bits).toNat < 256 := BitVec.isLt _
  unfold unpack
  simp only
  split
  · split <;> trivial
  · rename_i hnotAll
    have hne : (@unpackExponent Format.binary32 bits).toNat ≠ 255 :=
      fun heq => hnotAll (BitVec.eq_of_toNat_eq heq)
    split
    · rename_i hzero
      split
      · trivial
      · rw [hzero]
        exact
          ⟨{ lt := by omega
             least_le := by decide
             normal := .inl rfl }, by decide⟩
    · rename_i hnotZero
      have hpos : (@unpackExponent Format.binary32 bits).toNat ≠ 0 :=
        fun heq => hnotZero (BitVec.eq_of_toNat_eq heq)
      have happend := toNat_append_one (@unpackMantissa Format.binary32 bits)
      have hbias : Format.binary32.exponentBias = 127 := rfl
      refine ⟨{ lt := ?_, least_le := ?_, normal := .inr ?_ }, ?_⟩
      · omega
      · omega
      · omega
      · omega

theorem unpack_normal {hm : 0 < m} {b : Nat} (hb : 0 < b) (hlast : b < 255)
    (hleast : 2 ^ 23 <= m) (hlt : m < 2 ^ 24) :
    unpack Format.binary32
        (packComponents Format.binary32 sign (BitVec.ofNat 8 b) (BitVec.ofNat 23 m)) =
      .finite sign m (b - 150) hm := by
  have hexponent : (BitVec.ofNat 8 b).toNat = b := by
    rw [BitVec.toNat_ofNat]
    exact Nat.mod_eq_of_lt (by omega)
  have hmantissa : (1#1 ++ BitVec.ofNat 23 m).toNat = m := by
    rw [toNat_append_one, BitVec.toNat_ofNat]
    omega
  have hnotAll : BitVec.ofNat 8 b ≠ -1#8 := by
    intro heq
    rw [heq] at hexponent
    exact hlast.ne hexponent.symm
  have hnotZero : BitVec.ofNat 8 b ≠ 0#8 := by
    intro heq
    rw [heq] at hexponent
    exact hb.ne hexponent
  unfold unpack
  simp only [unpackExponent_packComponents, unpackMantissa_packComponents,
    unpackSign_packComponents, Sign.ofBitVec_toBitVec]
  rw [if_neg hnotAll, if_neg hnotZero, UnpackedFloat.finite.injEq, hexponent]
  exact ⟨rfl, hmantissa, rfl⟩

theorem unpack_subnormal {hm : 0 < m} (hlt : m < 2 ^ 23) :
    unpack Format.binary32 (packComponents Format.binary32 sign 0#8 (BitVec.ofNat 23 m)) =
      .finite sign m (-149) hm := by
  have hmantissa : (BitVec.ofNat 23 m).toNat = m := by
    rw [BitVec.toNat_ofNat]
    exact Nat.mod_eq_of_lt (by omega)
  have hnotZero : BitVec.ofNat 23 m ≠ 0#23 := by
    intro heq
    rw [heq] at hmantissa
    exact hm.ne hmantissa
  unfold unpack
  simp only [unpackExponent_packComponents, unpackMantissa_packComponents,
    unpackSign_packComponents, Sign.ofBitVec_toBitVec]
  rw [if_neg (by decide), if_pos trivial, dif_neg hnotZero, UnpackedFloat.finite.injEq]
  exact ⟨rfl, hmantissa, rfl⟩

theorem unpack_pack {hm : 0 < m} (h : Canonical m e) (hle : e <= 104) :
    unpack Format.binary32 (pack Format.binary32 (.finite sign m e hm)) =
      .finite sign m e hm := by
  have hleast := h.least_le
  obtain ⟨b, hb⟩ : exists b : Nat, (e + Format.binary32.exponentBias +
      Format.binary32.mantissaBitsWithoutImplicit).toNat = b := ⟨_, rfl⟩
  have hexponent : e = b - 150 := by
    have hbias : Format.binary32.exponentBias = 127 := rfl
    simp only [hbias] at hb
    omega
  have hdigits : m.log2 + 1 = Format.binary32.mantissaBits ↔ 2 ^ 23 <= m := by
    show m.log2 + 1 = 24 ↔ _
    have hlog := Nat.le_log2 (k := 23) hm.ne'
    have hlog' := Nat.log2_lt (k := 24) hm.ne'
    have hlt := h.lt
    omega
  unfold pack
  simp only
  rw [hb, if_neg (show ¬ 2 ^ 8 <= b + 1 by omega)]
  by_cases hnormal : 2 ^ 23 <= m
  · rw [if_pos (hdigits.mpr hnormal), hexponent]
    exact unpack_normal (by omega) (by omega) hnormal h.lt
  · rw [if_neg (mt hdigits.mp hnormal)]
    rcases h.normal with rfl | hcontra
    · exact unpack_subnormal (by omega)
    · exact absurd hcontra hnormal

/-!
## Values
-/

def valueOf : UnpackedFloat -> Rat
  | .finite .positive m e _ => value m e
  | .finite .negative m e _ => -value m e
  | _ => 0

/-- Exponents come first, then mantissas. -/
theorem compare_value (h : Canonical m e) (H : Canonical M E) :
    (compare e E).then (compare m M) = compare (value m e) (value M E) := by
  rcases lt_trichotomy e E with hlt | rfl | hgt
  · have hvalue : value m e < value M E :=
      (value_lt_iff.mpr m.lt_succ_self).trans_le (h.succ_le H hlt)
    rw [compare_lt_iff_lt.mpr hlt, compare_lt_iff_lt.mpr hvalue]
    rfl
  · rw [compare_eq_iff_eq.mpr (rfl : e = e)]
    rcases lt_trichotomy m M with hlt | rfl | hgt
    · rw [compare_lt_iff_lt.mpr hlt, compare_lt_iff_lt.mpr (value_lt_iff.mpr hlt)]
      rfl
    · rw [compare_eq_iff_eq.mpr (rfl : m = m), compare_eq_iff_eq.mpr (rfl : value m e = _)]
      rfl
    · rw [compare_gt_iff_gt.mpr hgt, compare_gt_iff_gt.mpr (value_lt_iff.mpr hgt)]
      rfl
  · have hvalue : value M E < value m e :=
      (value_lt_iff.mpr M.lt_succ_self).trans_le (H.succ_le h hgt)
    rw [compare_gt_iff_gt.mpr hgt, compare_gt_iff_gt.mpr hvalue]
    rfl

theorem compare_neg (x y : Rat) : compare (-x) (-y) = (compare x y).swap := by
  rcases lt_trichotomy x y with hlt | rfl | hgt
  · rw [compare_lt_iff_lt.mpr hlt, compare_gt_iff_gt.mpr (neg_lt_neg hlt)]
    rfl
  · rw [compare_eq_iff_eq.mpr (rfl : x = x), compare_eq_iff_eq.mpr rfl]
    rfl
  · rw [compare_gt_iff_gt.mpr hgt, compare_lt_iff_lt.mpr (neg_lt_neg hgt)]
    rfl

theorem compare_eq (hu : u.isFinite = true) (hv : v.isFinite = true) (hsu : IsSingle u)
    (hsv : IsSingle v) : u.compare v = some (compare (valueOf u) (valueOf v)) := by
  cases u with
  | infinity sign => cases hu
  | notANumber => cases hu
  | zero sign =>
      cases v with
      | infinity sign => cases hv
      | notANumber => cases hv
      | zero sign' => cases sign <;> cases sign' <;> rfl
      | finite sign' M E hM =>
          have hpos := value_pos hM E
          cases sign' with
          | positive => exact congrArg some (compare_lt_iff_lt.mpr hpos).symm
          | negative => exact congrArg some (compare_gt_iff_gt.mpr (neg_lt_zero.mpr hpos)).symm
  | finite sign m e hm =>
      have hpos := value_pos hm e
      cases v with
      | infinity sign => cases hv
      | notANumber => cases hv
      | zero sign' =>
          cases sign with
          | positive => exact congrArg some (compare_gt_iff_gt.mpr hpos).symm
          | negative => exact congrArg some (compare_lt_iff_lt.mpr (neg_lt_zero.mpr hpos)).symm
      | finite sign' M E hM =>
          have hpos' := value_pos hM E
          have hsizes := compare_value hsu.1 hsv.1
          cases sign with
          | positive =>
              cases sign' with
              | positive => exact congrArg some hsizes
              | negative =>
                  exact congrArg some
                    (compare_gt_iff_gt.mpr ((neg_lt_zero.mpr hpos').trans hpos)).symm
          | negative =>
              cases sign' with
              | positive =>
                  exact congrArg some
                    (compare_lt_iff_lt.mpr ((neg_lt_zero.mpr hpos).trans hpos')).symm
              | negative =>
                  exact congrArg some ((congrArg Ordering.swap hsizes).trans (compare_neg _ _).symm)

/-!
## Operations
-/

/-- A number with the digits of single precision; its exponent may be too great. -/
def IsCanonical : UnpackedFloat -> Prop
  | .finite _ m e _ => Canonical m e
  | _ => True

/-- The number that `x` is rounded to, be its exponent too great or not. -/
structure Rounds (x : Rat) (u : UnpackedFloat) : Prop where
  finite : u.isFinite = true
  canonical : IsCanonical u
  isRounded : IsRounded x (valueOf u)

variable {d : Nat} {s : Int} {x : Rat}

theorem IsSingle.canonical (h : IsSingle u) : IsCanonical u := by
  cases u with
  | finite sign m e hm => exact h.1
  | infinity sign | notANumber | zero sign => trivial

theorem IsCanonical.isDigital (h : IsCanonical u) : IsDigital (valueOf u) := by
  have hzero : IsDigital 0 :=
    ⟨0, -149, ⟨by decide, by decide, .inl rfl⟩, by rw [abs_zero, value, Nat.cast_zero, zero_mul]⟩
  cases u with
  | finite sign m e hm =>
      cases sign with
      | positive => exact Canonical.isDigital h
      | negative => exact (Canonical.isDigital h).neg
  | infinity sign | notANumber | zero sign => exact hzero

theorem rounds_self (hu : u.isFinite = true) (h : IsCanonical u) : Rounds (valueOf u) u :=
  ⟨hu, h, isRounded_self _⟩

theorem rounds_zero (sign : Sign) : Rounds 0 (.zero sign) :=
  ⟨rfl, trivial, isRounded_self 0⟩

theorem valueOf_finite (sign : Sign) (m : Nat) (e : Int) (hm : 0 < m) :
    valueOf (.finite sign m e hm) = (sign.apply m : Int) * 2 ^ e := by
  cases sign <;> simp [valueOf, value, Sign.apply]

theorem rounds_ofDigits (sign : Sign) (h : Canonical m e)
    (hrounded : IsRounded (value d s) (value m e)) :
    Rounds ((sign.apply d : Int) * 2 ^ s) (ofDigits sign m e) := by
  have hsigned : IsRounded ((sign.apply d : Int) * 2 ^ s) ((sign.apply m : Int) * 2 ^ e) := by
    cases sign with
    | positive => simpa [value, Sign.apply] using hrounded
    | negative => simpa [value, Sign.apply] using hrounded.neg
  unfold ofDigits
  split
  · rename_i hzero
    refine ⟨rfl, trivial, ?_⟩
    have hnone : ((sign.apply m : Int) : Rat) * 2 ^ e = 0 := by
      rw [hzero]
      cases sign <;> simp [Sign.apply]
    rwa [hnone] at hsigned
  · exact ⟨rfl, h, by rwa [valueOf_finite]⟩

theorem rounds_normalize (z s : Int) (zeroSign : Sign) :
    Rounds (z * 2 ^ s) (UnpackedFloat.normalize Format.binary32 z s zeroSign) := by
  unfold UnpackedFloat.normalize
  rcases lt_trichotomy z 0 with hneg | rfl | hpos
  · rw [compare_lt_iff_lt.mpr hneg]
    rcases exists_round .negative s (d := (-z).toNat) (by omega) with ⟨m, e, hround, h, hrounded⟩
    have hz : Sign.negative.apply (-z).toNat = z := by
      show -((-z).toNat : Int) = z
      omega
    simp only [hround]
    exact hz ▸ rounds_ofDigits .negative h hrounded
  · rw [compare_eq_iff_eq.mpr rfl, Int.cast_zero, zero_mul]
    exact rounds_zero zeroSign
  · rw [compare_gt_iff_gt.mpr hpos]
    rcases exists_round .positive s (d := z.toNat) (by omega) with ⟨m, e, hround, h, hrounded⟩
    have hz : Sign.positive.apply z.toNat = z := by
      show (z.toNat : Int) = z
      omega
    simp only [hround]
    exact hz ▸ rounds_ofDigits .positive h hrounded

theorem apply_shiftLeft (sign : Sign) (hm : 0 < m) {i : Int} (hle : i <= e) :
    ((sign.apply (m <<< (e - i).toNat : Nat) : Int) : Rat) * 2 ^ i =
      valueOf (.finite sign m e hm) := by
  have hvalue : value (m <<< (e - i).toNat) i = value m e := by
    rw [Nat.shiftLeft_eq, value_shift, Int.toNat_of_nonneg (by omega), add_sub_cancel]
  cases sign with
  | positive => exact hvalue
  | negative =>
      show ((-((m <<< (e - i).toNat : Nat) : Int) : Int) : Rat) * 2 ^ i = -value m e
      rw [Int.cast_neg, neg_mul]
      exact congrArg Neg.neg hvalue

theorem rounds_add (hu : u.isFinite = true) (hv : v.isFinite = true) (hsu : IsCanonical u)
    (hsv : IsCanonical v) :
    Rounds (valueOf u + valueOf v) (UnpackedFloat.add Format.binary32 u v) := by
  cases u with
  | infinity sign => cases hu
  | notANumber => cases hu
  | zero sign =>
      cases v with
      | infinity sign => cases hv
      | notANumber => cases hv
      | zero sign' =>
          unfold UnpackedFloat.add
          simp only [valueOf, add_zero]
          split <;> exact rounds_zero _
      | finite sign' M E hM =>
          rw [show valueOf (.zero sign) = 0 from rfl, zero_add]
          exact rounds_self rfl hsv
  | finite sign m e hm =>
      cases v with
      | infinity sign => cases hv
      | notANumber => cases hv
      | zero sign' =>
          rw [show valueOf (.zero sign') = 0 from rfl, add_zero]
          exact rounds_self rfl hsu
      | finite sign' M E hM =>
          rw [← apply_shiftLeft sign hm (min_le_left e E), ← apply_shiftLeft sign' hM
            (min_le_right e E), ← add_mul, ← Int.cast_add]
          exact rounds_normalize _ _ .positive

theorem rounds_sub (hu : u.isFinite = true) (hv : v.isFinite = true) (hsu : IsCanonical u)
    (hsv : IsCanonical v) :
    Rounds (valueOf u - valueOf v) (UnpackedFloat.sub Format.binary32 u v) := by
  cases u with
  | infinity sign => cases hu
  | notANumber => cases hu
  | zero sign =>
      cases v with
      | infinity sign => cases hv
      | notANumber => cases hv
      | zero sign' =>
          unfold UnpackedFloat.sub
          simp only [valueOf, sub_zero]
          split <;> exact rounds_zero _
      | finite sign' M E hM =>
          have hneg : valueOf (.zero sign) - valueOf (.finite sign' M E hM) =
              valueOf (.finite (-sign') M E hM) := by
            cases sign' with
            | positive => exact zero_sub _
            | negative => exact (zero_sub _).trans (neg_neg _)
          rw [hneg]
          exact rounds_self rfl hsv
  | finite sign m e hm =>
      cases v with
      | infinity sign => cases hv
      | notANumber => cases hv
      | zero sign' =>
          rw [show valueOf (.zero sign') = 0 from rfl, sub_zero]
          exact rounds_self rfl hsu
      | finite sign' M E hM =>
          rw [← apply_shiftLeft sign hm (min_le_left e E), ← apply_shiftLeft sign' hM
            (min_le_right e E), ← sub_mul, ← Int.cast_sub]
          exact rounds_normalize _ _ .positive

/-- A product has digits enough, or the least exponent there is. -/
theorem Canonical.add_exponent_le (h : Canonical m e) (H : Canonical M E) (hm : 0 < m)
    (hM : 0 < M) : e + E <= max (((m * M).log2 : Int) + (e + E) - 23) (-149) := by
  rcases h.normal with rfl | hnormal
  · rcases H.normal with rfl | hnormal'
    · exact le_max_of_le_right (by decide)
    · have hlog := (Nat.le_log2 (Nat.mul_pos hm hM).ne').mpr
        (hnormal'.trans (Nat.le_mul_of_pos_left M hm))
      exact le_max_of_le_left (by omega)
  · have hlog := (Nat.le_log2 (Nat.mul_pos hm hM).ne').mpr
      (hnormal.trans (Nat.le_mul_of_pos_right m hM))
    exact le_max_of_le_left (by omega)

theorem apply_mul (sign sign' : Sign) (m M : Nat) :
    (sign * sign').apply (m * M : Nat) = sign.apply m * sign'.apply M := by
  have hcast : ((m * M : Nat) : Int) = m * M := Int.natCast_mul m M
  cases sign with
  | positive =>
      cases sign' with
      | positive => exact hcast
      | negative => exact (congrArg Neg.neg hcast).trans (mul_neg _ _).symm
  | negative =>
      cases sign' with
      | positive => exact (congrArg Neg.neg hcast).trans (neg_mul _ _).symm
      | negative => exact hcast.trans (neg_mul_neg _ _).symm

theorem rounds_mul (hu : u.isFinite = true) (hv : v.isFinite = true) (hsu : IsCanonical u)
    (hsv : IsCanonical v) :
    Rounds (valueOf u * valueOf v) (UnpackedFloat.mul Format.binary32 u v) := by
  cases u with
  | infinity sign => cases hu
  | notANumber => cases hu
  | zero sign =>
      rw [show valueOf (.zero sign) = 0 from rfl, zero_mul]
      cases v with
      | infinity sign => cases hv
      | notANumber => cases hv
      | zero sign' | finite sign' M E hM => exact rounds_zero _
  | finite sign m e hm =>
      cases v with
      | infinity sign => cases hv
      | notANumber => cases hv
      | zero sign' =>
          rw [show valueOf (.zero sign') = 0 from rfl, mul_zero]
          exact rounds_zero _
      | finite sign' M E hM =>
          have hproduct : valueOf (.finite sign m e hm) * valueOf (.finite sign' M E hM) =
              (((sign * sign').apply (m * M : Nat) : Int) : Rat) * 2 ^ (e + E) := by
            rw [valueOf_finite, valueOf_finite, apply_mul, Int.cast_mul, zpow_add₀ (by norm_num)]
            exact mul_mul_mul_comm ..
          rcases exists_roundWithAccuracy (sign * sign') (hsu.add_exponent_le hsv hm hM)
            (Nat.mul_pos hm hM) with ⟨n, i, hround, h, hrounded⟩
          rw [hproduct, UnpackedFloat.mul, hround]
          exact rounds_ofDigits _ h hrounded

theorem IsCanonical.unpack_pack (h : IsCanonical u) (hu : u.isFinite = true) (hv : IsSingle v)
    (hle : |valueOf u| <= |valueOf v|) :
    unpack Format.binary32 (pack Format.binary32 u) = u := by
  cases u with
  | infinity sign => cases hu
  | notANumber => cases hu
  | zero sign => cases sign <;> rfl
  | finite sign m e hm =>
      have habs : forall (sign : Sign) (m : Nat) (e : Int) (hm : 0 < m),
          |valueOf (.finite sign m e hm)| = value m e := by
        intro sign m e hm
        have hpos := value_nonneg m e
        cases sign with
        | positive => exact abs_of_nonneg hpos
        | negative => exact (abs_neg _).trans (abs_of_nonneg hpos)
      have hpos := value_pos hm e
      rw [habs] at hle
      cases v with
      | finite sign' M E hM =>
          rw [habs] at hle
          exact Rounding.unpack_pack h ((Canonical.exponent_le h hv.1 hle).trans hv.2)
      | infinity sign | notANumber | zero sign =>
          exact absurd (hpos.trans_le hle) (by simp [valueOf])

end Rounding

namespace Single

open Float.Model (Format UnpackedFloat)
open Rounding

variable {x y z : Float32}

def value (x : Float32) : Rat :=
  valueOf x.toModel.unpack

theorem value_ofInt_zero : value (ofInt 0) = 0 := by decide +kernel

theorem value_ofInt_one : value (ofInt 1) = 1 := by decide +kernel

theorem value_ofInt_ninety : value (ofInt 90) = 90 := by decide +kernel

theorem value_ofInt_halfTurn : value (ofInt 180) = 180 := by decide +kernel

theorem isSingle_unpack (x : Float32) : IsSingle x.toModel.unpack :=
  Rounding.isSingle_unpack _

theorem lt_iff_compare :
    x < y ↔ x.toModel.unpack.compare y.toModel.unpack = some .lt := by
  show decide ((x.toModel.unpack.compare y.toModel.unpack == some .lt) = true) = true ↔ _
  rw [decide_eq_true_iff, beq_iff_eq]

theorem le_iff_compare :
    x <= y ↔ (x.toModel.unpack.compare y.toModel.unpack).any (·.isLE) = true := by
  show decide ((x.toModel.unpack.compare y.toModel.unpack).any (·.isLE) = true) = true ↔ _
  rw [decide_eq_true_iff]

theorem lt_iff (hx : x.isFinite = true) (hy : y.isFinite = true) :
    x < y ↔ value x < value y := by
  rw [lt_iff_compare, compare_eq hx hy (isSingle_unpack x) (isSingle_unpack y),
    Option.some.injEq, compare_lt_iff_lt]
  rfl

theorem le_iff (hx : x.isFinite = true) (hy : y.isFinite = true) :
    x <= y ↔ value x <= value y := by
  rw [le_iff_compare, compare_eq hx hy (isSingle_unpack x) (isSingle_unpack y),
    Option.any_some]
  exact Ordering.ne_gt_iff_isLE.symm.trans compare_le_iff_le

theorem isFinite_of_between (hx : x.isFinite = true) (hz : z.isFinite = true) (hle : x <= y)
    (hlt : y < z) : y.isFinite = true := by
  rw [le_iff_compare] at hle
  rw [lt_iff_compare] at hlt
  change x.toModel.unpack.isFinite = true at hx
  change z.toModel.unpack.isFinite = true at hz
  show y.toModel.unpack.isFinite = true
  generalize x.toModel.unpack = u at *
  generalize y.toModel.unpack = v at *
  generalize z.toModel.unpack = w at *
  cases v with
  | zero sign => rfl
  | finite sign m e hm => rfl
  | notANumber => cases w <;> cases hlt
  | infinity sign =>
      cases sign with
      | positive =>
          cases w with
          | infinity sign => cases hz
          | notANumber => cases hz
          | zero sign => cases hlt
          | finite sign m e hm => cases hlt
      | negative =>
          cases u with
          | infinity sign => cases hx
          | notANumber => cases hx
          | zero sign => cases hle
          | finite sign m e hm => cases sign <;> cases hle

theorem isFinite_iff_of_lt (h : x < y) : y.isFinite = true ↔ y.isInf = false := by
  rw [lt_iff_compare] at h
  show y.toModel.unpack.isFinite = true ↔ y.toModel.unpack.isInf = false
  cases hy : y.toModel.unpack with
  | infinity sign => simp [UnpackedFloat.isFinite, UnpackedFloat.isInf]
  | zero sign => simp [UnpackedFloat.isFinite, UnpackedFloat.isInf]
  | finite sign m e hm => simp [UnpackedFloat.isFinite, UnpackedFloat.isInf]
  | notANumber =>
      rw [hy] at h
      cases hx : x.toModel.unpack <;> rw [hx] at h <;> cases h

theorem lt_of_isInf (hx : x.isFinite = true) (hle : ¬ y < x) (hy : y.isInf = true) : x < y := by
  rw [lt_iff_compare] at hle ⊢
  change x.toModel.unpack.isFinite = true at hx
  change y.toModel.unpack.isInf = true at hy
  generalize x.toModel.unpack = u at *
  generalize y.toModel.unpack = v at *
  cases v with
  | zero sign => cases hy
  | finite sign m e hm => cases hy
  | notANumber => cases hy
  | infinity sign =>
      cases u with
      | infinity sign => cases hx
      | notANumber => cases hx
      | zero sign' =>
          cases sign with
          | positive => rfl
          | negative => exact absurd rfl hle
      | finite sign' m e hm =>
          cases sign with
          | positive => cases sign' <;> rfl
          | negative => exact absurd rfl hle

/-!
## Sums, differences and products
-/

theorem isDigital_value (x : Float32) : IsDigital (value x) :=
  (isSingle_unpack x).canonical.isDigital

theorem isRounded_of_rounds {q : Rat} {u : UnpackedFloat} (h : Rounds q u)
    (hy : y.toModel.unpack = UnpackedFloat.unpack Format.binary32
      (UnpackedFloat.pack Format.binary32 u))
    (hbound : |q| <= |value z|) :
    y.isFinite = true ∧ IsRounded q (value y) := by
  have hz : IsDigital |value z| := by
    rcases abs_choice (value z) with heq | heq <;> rw [heq]
    · exact isDigital_value z
    · exact (isDigital_value z).neg
  have hvalue : |valueOf u| <= |valueOf z.toModel.unpack| :=
    abs_le.mpr ⟨(h.isRounded _ hz.neg).1 (abs_le.mp hbound).1,
      (h.isRounded _ hz).2 (abs_le.mp hbound).2⟩
  have hunpack : y.toModel.unpack = u :=
    hy.trans (h.canonical.unpack_pack h.finite (isSingle_unpack z) hvalue)
  constructor
  · show y.toModel.unpack.isFinite = true
    rw [hunpack]
    exact h.finite
  · show IsRounded q (valueOf y.toModel.unpack)
    rw [hunpack]
    exact h.isRounded

theorem isRounded_add (hx : x.isFinite = true) (hy : y.isFinite = true)
    (hbound : |value x + value y| <= |value z|) :
    (x + y).isFinite = true ∧ IsRounded (value x + value y) (value (x + y)) :=
  isRounded_of_rounds
    (rounds_add hx hy (isSingle_unpack x).canonical (isSingle_unpack y).canonical) rfl hbound

theorem isRounded_sub (hx : x.isFinite = true) (hy : y.isFinite = true)
    (hbound : |value x - value y| <= |value z|) :
    (x - y).isFinite = true ∧ IsRounded (value x - value y) (value (x - y)) :=
  isRounded_of_rounds
    (rounds_sub hx hy (isSingle_unpack x).canonical (isSingle_unpack y).canonical) rfl hbound

theorem isRounded_mul (hx : x.isFinite = true) (hy : y.isFinite = true)
    (hbound : |value x * value y| <= |value z|) :
    (x * y).isFinite = true ∧ IsRounded (value x * value y) (value (x * y)) :=
  isRounded_of_rounds
    (rounds_mul hx hy (isSingle_unpack x).canonical (isSingle_unpack y).canonical) rfl hbound

/--
The difference of two numbers, the greater one first, is a number, and no less than any that
the exact difference is no less than.
-/
theorem sub_spec (hx : x.isFinite = true) (hy : y.isFinite = true) (hnonneg : 0 <= value y)
    (hlt : value y < value x) :
    (x - y).isFinite = true ∧
      forall z : Float32, z.isFinite = true -> value z <= value x - value y ->
        value z <= value (x - y) := by
  have hbound : |value x - value y| <= |value x| := by
    rw [abs_of_pos (sub_pos.mpr hlt), abs_of_pos (hnonneg.trans_lt hlt)]
    linarith
  rcases isRounded_sub hx hy hbound with ⟨hfinite, hrounded⟩
  exact ⟨hfinite, fun z _ => (hrounded _ (isDigital_value z)).1⟩

end Single
end AirDefense

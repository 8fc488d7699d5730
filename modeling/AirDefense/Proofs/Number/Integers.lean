import AirDefense.Proofs.Number.Singles

/-!
# Integers in single precision

The bits of a positive number of single precision are in the order of the numbers, and the bits
of the number nearest to an integer are in the order of the integers.
-/

namespace AirDefense
namespace BinaryFormat

/-!
## Nearest numbers
-/

theorem nearest_mono {a b : Nat} (h : a <= b) (d : Nat) : nearest a d <= nearest b d := by
  have hquotient : a / d <= b / d := Nat.div_le_div_right h
  have ha := Nat.div_add_mod a d
  have hb := Nat.div_add_mod b d
  unfold nearest
  simp only
  rcases hquotient.lt_or_eq with hlt | heq
  · have hparity := Nat.mod_lt (a / d) Nat.zero_lt_two
    split_ifs <;> omega
  · rw [heq] at ha ⊢
    have hrest : a % d <= b % d := by omega
    split_ifs <;> omega

theorem nearest_mul (k : Nat) {d : Nat} (hd : 0 < d) : nearest (k * d) d = k := by
  unfold nearest
  simp only [Nat.mul_mod_left, Nat.mul_div_cancel k hd, mul_zero, if_pos hd]

theorem binaryExponent_one {n : Nat} (hn : 0 < n) : binaryExponent n 1 = n.log2 := by
  have hpower : 1 * powerOfTwo n.log2 <= n := by
    rw [Nat.one_mul]
    exact Nat.log2_self_le hn.ne'
  have hguess : (n.log2 : Int) - (Nat.log2 1 : Nat) = n.log2 := Int.sub_zero _
  unfold binaryExponent
  simp only [hguess]
  refine if_pos ?_
  rw [if_pos (Int.natCast_nonneg _), Int.toNat_natCast]
  exact hpower

def digits (n : Nat) : Nat :=
  if 23 <= n.log2 then nearest n (2 ^ (n.log2 - 23)) else n * 2 ^ (23 - n.log2)

theorem magnitudeBits_one {n : Nat} (hn : 0 < n) :
    single.magnitudeBits n 1 =
      min single.infinityBits (digits n + (n.log2 + 126) * 2 ^ 23) := by
  have hleast : single.leastExponent = -149 := by decide
  have hscale : max (binaryExponent n 1 - (single.precision - 1)) single.leastExponent =
      n.log2 - 23 := by
    rw [binaryExponent_one hn, hleast]
    show max ((n.log2 : Int) - (24 - 1)) (-149) = _
    omega
  have hcarry : ((n.log2 : Int) - 23 - single.leastExponent).toNat = n.log2 + 126 := by
    rw [hleast]
    omega
  unfold magnitudeBits
  simp only
  rw [if_neg hn.ne', hscale, hcarry]
  congr 2
  unfold digits
  split_ifs with hlarge hlog hlog
  · rw [Nat.one_mul, show ((n.log2 : Int) - 23).toNat = n.log2 - 23 by omega]
    rfl
  · omega
  · omega
  · rw [show (-((n.log2 : Int) - 23)).toNat = 23 - n.log2 by omega]
    exact (congrArg (nearest · 1) (Nat.mul_one _).symm).trans (nearest_mul _ Nat.one_pos)

theorem digits_bounds {n : Nat} (hn : 0 < n) : 2 ^ 23 <= digits n ∧ digits n <= 2 ^ 24 := by
  have hle : 2 ^ n.log2 <= n := Nat.log2_self_le hn.ne'
  have hlt : n < 2 ^ (n.log2 + 1) := Nat.lt_log2_self
  unfold digits
  split
  · rename_i hlog
    have hd : 0 < 2 ^ (n.log2 - 23) := Nat.two_pow_pos _
    have hlo : 2 ^ 23 * 2 ^ (n.log2 - 23) <= n := by
      rwa [← Nat.pow_add, Nat.add_sub_cancel' hlog]
    have hhi : n <= 2 ^ 24 * 2 ^ (n.log2 - 23) := by
      rw [← Nat.pow_add, show 24 + (n.log2 - 23) = n.log2 + 1 by omega]
      exact hlt.le
    constructor
    · exact (nearest_mul _ hd).symm.le.trans (nearest_mono hlo _)
    · exact (nearest_mono hhi _).trans (nearest_mul _ hd).le
  · rename_i hlog
    have hlog' : n.log2 + (23 - n.log2) = 23 := by omega
    constructor
    · calc 2 ^ 23 = 2 ^ n.log2 * 2 ^ (23 - n.log2) := by rw [← Nat.pow_add, hlog']
        _ <= n * 2 ^ (23 - n.log2) := Nat.mul_le_mul_right _ hle
    · calc n * 2 ^ (23 - n.log2) <= 2 ^ (n.log2 + 1) * 2 ^ (23 - n.log2) :=
          Nat.mul_le_mul_right _ hlt.le
        _ = 2 ^ 24 := by rw [← Nat.pow_add, Nat.add_right_comm, hlog']

theorem digits_mono {n m : Nat} (hle : n <= m) (hlog : n.log2 = m.log2) : digits n <= digits m := by
  unfold digits
  rw [hlog]
  split
  · exact nearest_mono hle _
  · exact Nat.mul_le_mul_right _ hle

theorem magnitudeBits_mono {n m : Nat} (hn : 0 < n) (hle : n <= m) :
    single.magnitudeBits n 1 <= single.magnitudeBits m 1 := by
  have hm := hn.trans_le hle
  have hlog : n.log2 <= m.log2 := (Nat.le_log2 hm.ne').mpr ((Nat.log2_self_le hn.ne').trans hle)
  rw [magnitudeBits_one hn, magnitudeBits_one hm]
  refine min_le_min_left _ ?_
  rcases hlog.lt_or_eq with hlt | heq
  · have hhi := (digits_bounds hn).2
    have hlo := (digits_bounds hm).1
    have hcarry : (n.log2 + 1 + 126) * 2 ^ 23 <= (m.log2 + 126) * 2 ^ 23 :=
      Nat.mul_le_mul_right _ (by omega)
    omega
  · rw [heq]
    exact Nat.add_le_add_right (digits_mono hle heq) _

/-- An integer of 32 bits is no too great and no too little number of single precision. -/
theorem magnitudeBits_bounds {n : Nat} (hn : 0 < n) (hlt : n < 2 ^ 32) :
    2 ^ 23 <= single.magnitudeBits n 1 ∧ single.magnitudeBits n 1 < 255 * 2 ^ 23 := by
  have hlog : n.log2 < 32 := (Nat.log2_lt hn.ne').mpr hlt
  rcases digits_bounds hn with ⟨hlo, hhi⟩
  rw [magnitudeBits_one hn, show single.infinityBits = 255 * 2 ^ 23 from rfl]
  omega

end BinaryFormat

namespace Single

open BinaryFormat Rounding
open Float.Model (Format)
open Float.Model.UnpackedFloat

/-!
## Bits in order
-/

theorem toBitVec_ofNat {n : Nat} (hlt : n < 2 ^ 31) :
    (UInt32.ofNat n).toBitVec =
      packComponents Format.binary32 .positive (BitVec.ofNat 8 (n / 2 ^ 23))
        (BitVec.ofNat 23 (2 ^ 23 + n % 2 ^ 23)) := by
  have hexponent : (BitVec.ofNat 8 (n / 2 ^ 23)).toNat = n / 2 ^ 23 := by
    rw [BitVec.toNat_ofNat]
    omega
  have hmantissa : (BitVec.ofNat 23 (2 ^ 23 + n % 2 ^ 23)).toNat = n % 2 ^ 23 := by
    rw [BitVec.toNat_ofNat]
    omega
  refine BitVec.eq_of_toNat_eq ?_
  show n % 2 ^ 32 = ((0#1 ++ BitVec.ofNat 8 (n / 2 ^ 23)) ++
    BitVec.ofNat 23 (2 ^ 23 + n % 2 ^ 23)).toNat
  rw [BitVec.toNat_append, ← Nat.shiftLeft_add_eq_or_of_lt (BitVec.isLt _), BitVec.toNat_append,
    ← Nat.shiftLeft_add_eq_or_of_lt (BitVec.isLt _), hexponent, hmantissa]
  simp only [Nat.shiftLeft_eq, BitVec.toNat_ofNat]
  omega

theorem unpack_ofBits {n : Nat} (hlo : 2 ^ 23 <= n) (hhi : n < 255 * 2 ^ 23) :
    (Float32.ofBits (UInt32.ofNat n)).toModel.unpack =
      .finite .positive (2 ^ 23 + n % 2 ^ 23) ((n / 2 ^ 23 : Nat) - 150) (by omega) := by
  have hcanonical : Canonical (2 ^ 23 + n % 2 ^ 23) ((n / 2 ^ 23 : Nat) - 150) :=
    { lt := by omega
      least_le := by omega
      normal := .inr (by omega) }
  show unpack Format.binary32 (pack Format.binary32 (unpack Format.binary32 _)) = _
  rw [toBitVec_ofNat (by omega), unpack_normal (by omega) (by omega) (by omega) (by omega)]
  exact unpack_pack hcanonical (by omega)

theorem ofBits_le_ofBits {n m : Nat} (hlo : 2 ^ 23 <= n) (hle : n <= m)
    (hhi : m < 255 * 2 ^ 23) :
    Float32.ofBits (UInt32.ofNat n) <= Float32.ofBits (UInt32.ofNat m) := by
  rw [le_iff_compare, unpack_ofBits hlo (by omega), unpack_ofBits (by omega) hhi]
  show ((compare _ _).then (compare _ _)).isLE = true
  rcases (Nat.div_le_div_right hle : n / 2 ^ 23 <= m / 2 ^ 23).lt_or_eq with hlt | heq
  · rw [compare_lt_iff_lt.mpr (by omega)]
    rfl
  · rw [heq, compare_eq_iff_eq.mpr rfl]
    have hrest : n % 2 ^ 23 <= m % 2 ^ 23 := by omega
    exact Ordering.ne_gt_iff_isLE.mp (compare_le_iff_le.mpr (by omega))

theorem ofInt_le_ofInt {n m : Int} (hpos : 0 < n) (hle : n <= m) (hlt : m < 2 ^ 32) :
    ofInt n <= ofInt m := by
  have hn := magnitudeBits_bounds (n := n.natAbs) (by omega) (by omega)
  have hm := magnitudeBits_bounds (n := m.natAbs) (by omega) (by omega)
  have hbits := magnitudeBits_mono (n := n.natAbs) (m := m.natAbs) (by omega) (by omega)
  have hsigns : decide (n < 0) = false ∧ decide (m < 0) = false :=
    ⟨decide_eq_false (by omega), decide_eq_false (by omega)⟩
  unfold ofInt ofSigned
  simp only [hsigns, Bool.false_eq_true, if_false, Nat.add_zero]
  exact ofBits_le_ofBits hn.1 hbits hm.2

end Single
end AirDefense

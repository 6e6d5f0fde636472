import Mathlib.Algebra.Group.Nat.Defs
import MetadataGraph.Binary64

/-!
# Rounding keeps the order

The double nearest to an integer does not get smaller when the integer gets larger. A natural
number between two powers of two has a significand of 53 bits and an exponent that tells which
powers they are; rounding may carry the significand to the next power and not beyond. We prove:

* `roundQuotient_mono`: rounding to an integer keeps the order;
* `nearestMagnitude_mono`: so does rounding to a double;
* `totalKey_ofInt_mono`: so do the places of the rounded integers in the total order.
-/

namespace MetadataGraph.Binary64

/-! ## Rounding to integers -/

variable {n m d q : Nat}

theorem div_le_roundQuotient (n d : Nat) : n / d ≤ roundQuotient n d := by
  unfold roundQuotient
  simp only
  split
  · exact Nat.le_refl _
  · split <;> omega

theorem roundQuotient_le (n d : Nat) : roundQuotient n d ≤ n / d + 1 := by
  unfold roundQuotient
  simp only
  split
  · omega
  · split <;> omega

/-- Rounding to an integer keeps the order. -/
theorem roundQuotient_mono (h : n ≤ m) : roundQuotient n d ≤ roundQuotient m d := by
  have hquotient : n / d ≤ m / d := Nat.div_le_div_right h
  rcases Nat.lt_or_eq_of_le hquotient with hless | hsame
  · exact Nat.le_trans (roundQuotient_le n d) (Nat.le_trans hless (div_le_roundQuotient m d))
  · -- of two numbers with one quotient the larger has the larger remainder
    have hremainder : n % d ≤ m % d := by
      have hn := Nat.div_add_mod n d
      have hm := Nat.div_add_mod m d
      rw [hsame] at hn
      omega
    unfold roundQuotient
    simp only [hsame]
    split
    · split
      · exact Nat.le_refl _
      · split <;> omega
    · split
      · split
        · omega
        · split <;> omega
      · split
        · omega
        · split <;> omega

/-! ## Rounding to doubles -/

/-- The significand of 53 bits of a natural number, rounded. -/
def roundedSignificand (n : Nat) : Nat :=
  roundQuotient (n * 2 ^ (52 - n.log2)) (2 ^ (n.log2 - 52))

theorem binaryExponent_one (h : n ≠ 0) : binaryExponent n 1 = n.log2 := by
  have hlog : (1 : Nat).log2 = 0 := by decide
  have hpow : 2 ^ n.log2 ≤ n := Nat.log2_self_le h
  unfold binaryExponent scaleByPower
  simp only [hlog, Int.natCast_zero, Int.sub_zero]
  by_cases hzero : n.log2 = 0
  · simp only [hzero, Int.natCast_zero, Int.neg_zero, Int.le_refl, if_true, Int.toNat_zero,
      Nat.shiftLeft_zero]
    exact if_neg (Nat.not_lt.mpr (Nat.pos_of_ne_zero h))
  · have hneg : ¬(0 : Int) ≤ -n.log2 := by omega
    simp only [if_neg hneg, Int.neg_neg, Int.toNat_natCast, Nat.one_shiftLeft]
    rw [if_neg (Nat.not_lt.mpr hpow)]

/-- The double nearest to a natural number is made of its exponent and its rounded significand. -/
theorem nearestMagnitude_one (h : n ≠ 0) :
    nearestMagnitude n 1 =
      min infinityMagnitude ((n.log2 + 1022) * 2 ^ 52 + roundedSignificand n) := by
  unfold nearestMagnitude
  rw [if_neg h, binaryExponent_one h]
  have hmax : max ((n.log2 : Int) - 52) (-1074) = n.log2 - 52 := by omega
  have hexponent : ((n.log2 : Int) - 52 + 1074).toNat = n.log2 + 1022 := by omega
  simp only [hmax, hexponent, Nat.shiftLeft_eq]
  congr 2
  unfold scaleByPower roundedSignificand
  by_cases hsmall : n.log2 ≤ 52
  · have hnonneg : (0 : Int) ≤ -((n.log2 : Int) - 52) := by omega
    have hshift : (-((n.log2 : Int) - 52)).toNat = 52 - n.log2 := by omega
    rw [if_pos hnonneg, hshift, Nat.shiftLeft_eq, Nat.sub_eq_zero_of_le hsmall, Nat.pow_zero]
  · have hneg : ¬(0 : Int) ≤ -((n.log2 : Int) - 52) := by omega
    have hshift : (-(-((n.log2 : Int) - 52))).toNat = n.log2 - 52 := by omega
    have hlarge : 52 - n.log2 = 0 := by omega
    rw [if_neg hneg, hshift, Nat.one_shiftLeft, hlarge, Nat.pow_zero, Nat.mul_one]

/-- The significand before rounding has 53 bits. -/
theorem truncatedSignificand_bounds (h : n ≠ 0) :
    2 ^ 52 ≤ n * 2 ^ (52 - n.log2) / 2 ^ (n.log2 - 52) ∧
      n * 2 ^ (52 - n.log2) / 2 ^ (n.log2 - 52) < 2 ^ 53 := by
  have hlower : 2 ^ n.log2 ≤ n := Nat.log2_self_le h
  have hupper : n < 2 ^ (n.log2 + 1) := Nat.lt_log2_self
  have hscale : 52 - n.log2 + n.log2 = 52 + (n.log2 - 52) := by omega
  have hpos (k : Nat) : 0 < 2 ^ k := Nat.two_pow_pos k
  constructor
  · rw [Nat.le_div_iff_mul_le (hpos _), ← Nat.pow_add, ← hscale, Nat.pow_add, Nat.mul_comm]
    exact Nat.mul_le_mul_right _ hlower
  · rw [Nat.div_lt_iff_lt_mul (hpos _), ← Nat.pow_add]
    have hnext : 53 + (n.log2 - 52) = n.log2 + 1 + (52 - n.log2) := by omega
    rw [hnext, Nat.pow_add]
    exact Nat.mul_lt_mul_of_pos_right hupper (hpos _)

/-- The significand reaches from the smallest one of 53 bits to the next power of two. -/
theorem roundedSignificand_bounds (h : n ≠ 0) :
    2 ^ 52 ≤ roundedSignificand n ∧ roundedSignificand n ≤ 2 ^ 53 := by
  obtain ⟨hlower, hupper⟩ := truncatedSignificand_bounds h
  exact ⟨Nat.le_trans hlower (div_le_roundQuotient _ _),
    Nat.le_trans (roundQuotient_le _ _) hupper⟩

/-- Rounding to a double keeps the order of natural numbers. -/
theorem nearestMagnitude_mono (h : n ≤ m) : nearestMagnitude n 1 ≤ nearestMagnitude m 1 := by
  by_cases hzero : n = 0
  · rw [nearestMagnitude, if_pos hzero]
    exact Nat.zero_le _
  have hm : m ≠ 0 := by omega
  have hlog : n.log2 ≤ m.log2 := (Nat.le_log2 hm).mpr (Nat.le_trans (Nat.log2_self_le hzero) h)
  have hsum : (n.log2 + 1022) * 2 ^ 52 + roundedSignificand n ≤
      (m.log2 + 1022) * 2 ^ 52 + roundedSignificand m := by
    rcases Nat.lt_or_eq_of_le hlog with hless | hsame
    · -- a carry leads at most to the smallest significand of the next power
      have hn := (roundedSignificand_bounds hzero).2
      have hm := (roundedSignificand_bounds hm).1
      omega
    · rw [hsame]
      refine Nat.add_le_add_left ?_ _
      unfold roundedSignificand
      rw [hsame]
      exact roundQuotient_mono (Nat.mul_le_mul_right _ h)
  rw [nearestMagnitude_one hzero, nearestMagnitude_one hm]
  omega

/-! ## Rounding of integers -/

theorem nearestMagnitude_le (n d : Nat) : nearestMagnitude n d ≤ infinityMagnitude := by
  unfold nearestMagnitude
  split
  · exact Nat.zero_le _
  · exact Nat.min_le_left _ _

theorem toNat_bits_ofMagnitude {negative : Bool} {magnitude : Nat}
    (h : magnitude ≤ infinityMagnitude) :
    (ofMagnitude negative magnitude).bits.toNat =
      if negative then 2 ^ 63 + magnitude else magnitude := by
  have hsmall : magnitude < 2 ^ 63 := Nat.lt_of_le_of_lt h (by decide)
  rw [ofMagnitude, UInt64.toNat_ofNat']
  split <;> omega

/-- A double made of a sign and a magnitude has these. -/
theorem isNegative_ofMagnitude {negative : Bool} {magnitude : Nat}
    (h : magnitude ≤ infinityMagnitude) :
    (ofMagnitude negative magnitude).isNegative = negative := by
  have hsmall : magnitude < 2 ^ 63 := Nat.lt_of_le_of_lt h (by decide)
  rw [isNegative, toNat_bits_ofMagnitude h, Nat.one_shiftLeft]
  cases negative with
  | true => simp
  | false => simpa using hsmall

theorem magnitude_ofMagnitude {negative : Bool} {magnitude : Nat}
    (h : magnitude ≤ infinityMagnitude) :
    (ofMagnitude negative magnitude).magnitude = magnitude := by
  have hsmall : magnitude < 2 ^ 63 := Nat.lt_of_le_of_lt h (by decide)
  rw [Binary64.magnitude, toNat_bits_ofMagnitude h, Nat.one_shiftLeft]
  split <;> omega

/-- A double made of a sign and a magnitude stands where these say. -/
theorem totalKey_ofMagnitude {negative : Bool} {magnitude : Nat}
    (h : magnitude ≤ infinityMagnitude) :
    (ofMagnitude negative magnitude).totalKey =
      if negative then -(magnitude : Int) - 1 else magnitude := by
  rw [totalKey, isNegative_ofMagnitude h, magnitude_ofMagnitude h]

/-- Where the double nearest to an integer stands in the total order. -/
theorem totalKey_ofInt (n : Int) :
    (ofInt n).totalKey =
      if n < 0 then -(nearestMagnitude n.natAbs 1 : Int) - 1 else nearestMagnitude n.natAbs 1 := by
  rw [ofInt, ofRatio, totalKey_ofMagnitude (nearestMagnitude_le _ _)]
  simp

/-- Rounding to a double keeps the order of integers. -/
theorem totalKey_ofInt_mono {a b : Int} (h : a ≤ b) : (ofInt a).totalKey ≤ (ofInt b).totalKey := by
  rw [totalKey_ofInt, totalKey_ofInt]
  by_cases ha : a < 0
  · rw [if_pos ha]
    by_cases hb : b < 0
    · rw [if_pos hb]
      have habs : b.natAbs ≤ a.natAbs := by omega
      have hmagnitude := nearestMagnitude_mono habs
      omega
    · rw [if_neg hb]
      omega
  · have hb : ¬b < 0 := by omega
    have habs : a.natAbs ≤ b.natAbs := by omega
    have hmagnitude := nearestMagnitude_mono habs
    rw [if_neg ha, if_neg hb]
    omega

end MetadataGraph.Binary64

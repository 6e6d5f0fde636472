import Mathlib.Algebra.Order.Field.Basic
import Mathlib.Data.Rat.Cast.Order
import Mathlib.Tactic.Linarith
import MetadataGraph.Proofs.Binary64

/-!
# The numbers of doubles

A finite double is a whole number of units of `2 ^ -1074`, and the units grow with the magnitude, so
that the order of doubles is the order of their numbers. A natural number lies between the units of
two neighboring magnitudes, and rounding takes the one that is nearer. We prove:

* `nearestMagnitude_between`: where a natural number lies among the doubles;
* `orderKey_le_iff`: doubles are ordered as their numbers are;
* `toRat_le_toRat_ofInt`, `toRat_ofInt_le_toRat`: a double on one side of an integer is not on the
  other side of the double that the integer is rounded to;
* `abs_toRat_ofInt_sub_le`: how far rounding goes.
-/

namespace MetadataGraph.Binary64

/-! ## Units of magnitudes -/

/-- How many of the units of doubles make one. -/
@[irreducible]
def unitsPerOne : ℕ := 2 ^ 1074

theorem two_pow_mul_two_pow {e i j k : ℕ} (h : e + i = j + k) :
    2 ^ e * 2 ^ i = 2 ^ j * 2 ^ k := by
  rw [← Nat.pow_add, h, Nat.pow_add]

theorem unitsPerOne_mul_two_pow {i j k : ℕ} (h : 1074 + i = j + k) :
    unitsPerOne * 2 ^ i = 2 ^ j * 2 ^ k := by
  unfold unitsPerOne
  exact two_pow_mul_two_pow h

/-- The absolute value of a double of the given magnitude, in units of `2 ^ -1074`. -/
def magnitudeUnits (magnitude : ℕ) : ℕ :=
  if magnitude / 2 ^ 52 = 0 then magnitude % 2 ^ 52
  else (2 ^ 52 + magnitude % 2 ^ 52) * 2 ^ (magnitude / 2 ^ 52 - 1)

variable {n m : ℕ}

theorem magnitudeUnits_of_lt (h : m < 2 ^ 52) : magnitudeUnits m = m := by
  rw [magnitudeUnits, if_pos (Nat.div_eq_of_lt h), Nat.mod_eq_of_lt h]

/-- A significand may reach the next power of two, as a carry makes it do. -/
theorem magnitudeUnits_of_significand {s k : ℕ} (hlower : 2 ^ 52 ≤ s) (hupper : s ≤ 2 ^ 53) :
    magnitudeUnits (k * 2 ^ 52 + s) = s * 2 ^ k := by
  unfold magnitudeUnits
  rcases Nat.lt_or_eq_of_le hupper with hless | rfl
  -- the leading bit of the significand is added to the exponent, and read back from it
  · have hdiv : (k * 2 ^ 52 + s) / 2 ^ 52 = k + 1 := by omega
    have hmod : 2 ^ 52 + (k * 2 ^ 52 + s) % 2 ^ 52 = s := by omega
    rw [hdiv, hmod, if_neg k.succ_ne_zero, Nat.add_sub_cancel]
  -- a carry leaves no fraction and makes the exponent one larger
  · have hdiv : (k * 2 ^ 52 + 2 ^ 53) / 2 ^ 52 = k + 2 := by omega
    have hmod : (k * 2 ^ 52 + 2 ^ 53) % 2 ^ 52 = 0 := by omega
    rw [hdiv, hmod, if_neg (k + 1).succ_ne_zero]
    change 2 ^ 52 * 2 ^ (k + 1) = 2 ^ 53 * 2 ^ k
    omega

theorem magnitudeUnits_lt_succ (m : ℕ) : magnitudeUnits m < magnitudeUnits (m + 1) := by
  rcases Nat.lt_or_ge m (2 ^ 52) with hsmall | hlarge
  -- below the first exponent the units are the magnitude itself, and so they are at it
  · rw [magnitudeUnits_of_lt hsmall]
    rcases Nat.lt_or_eq_of_le hsmall with hless | hsame
    · rw [magnitudeUnits_of_lt hless]
      exact m.lt_succ_self
    · have hnext : m + 1 = 0 * 2 ^ 52 + 2 ^ 52 := by omega
      rw [hnext, magnitudeUnits_of_significand (Nat.le_refl _) (by decide)]
      omega
  · -- the exponent of `m`, and its significand with the leading bit
    obtain ⟨k, s, hm, hlower, hupper⟩ : ∃ k s, m = k * 2 ^ 52 + s ∧ 2 ^ 52 ≤ s ∧ s < 2 ^ 53 :=
      ⟨m / 2 ^ 52 - 1, 2 ^ 52 + m % 2 ^ 52, by omega, by omega, by omega⟩
    rw [hm, Nat.add_assoc, magnitudeUnits_of_significand hlower hupper.le,
      magnitudeUnits_of_significand (by omega) hupper]
    exact Nat.mul_lt_mul_of_pos_right s.lt_succ_self (Nat.two_pow_pos k)

theorem magnitudeUnits_strictMono : StrictMono magnitudeUnits :=
  strictMono_nat_of_lt_succ magnitudeUnits_lt_succ

/-! ## Rounding of natural numbers -/

theorem roundQuotient_one (n : ℕ) : roundQuotient n 1 = n := by
  simp [roundQuotient, Nat.mod_one]

/-- Rounding to an integer takes the nearer of the two next to the quotient. -/
theorem roundQuotient_eq_or (n d : ℕ) :
    (roundQuotient n d = n / d ∧ 2 * (n % d) ≤ d) ∨
      (roundQuotient n d = n / d + 1 ∧ d ≤ 2 * (n % d)) := by
  unfold roundQuotient
  simp only
  split
  · exact Or.inl ⟨rfl, by omega⟩
  · split
    · exact Or.inr ⟨rfl, by omega⟩
    · rcases Nat.mod_two_eq_zero_or_one (n / d) with heven | hodd
      · exact Or.inl ⟨by omega, by omega⟩
      · exact Or.inr ⟨by omega, by omega⟩

/-- A number between two neighboring multiples of a gap is as near to each as its remainder says. -/
theorem between_multiples {N d q r gap : ℕ} (hpos : 0 < d) (hgap : 0 < gap) (hr : r < d)
    (hsplit : N * d = (d * q + r) * gap) :
    q * gap ≤ N ∧ N < q * gap + gap ∧ (2 * r ≤ d → 2 * N ≤ 2 * (q * gap) + gap) ∧
      (d ≤ 2 * r → 2 * (q * gap) + gap ≤ 2 * N) := by
  have hsplit : d * N = d * (q * gap) + r * gap := by
    rw [Nat.mul_comm, hsplit, Nat.add_mul, Nat.mul_assoc]
  have hless : r * gap < d * gap := Nat.mul_lt_mul_of_pos_right hr hgap
  refine ⟨Nat.le_of_mul_le_mul_left (by omega) hpos, ?_, fun hnear => ?_, fun hnear => ?_⟩
  · refine Nat.lt_of_mul_lt_mul_left (a := d) ?_
    rw [Nat.mul_add]
    omega
  · have hmul := Nat.mul_le_mul_right gap hnear
    refine Nat.le_of_mul_le_mul_left (c := d) ?_ hpos
    linarith
  · have hmul := Nat.mul_le_mul_right gap hnear
    refine Nat.le_of_mul_le_mul_left (c := d) ?_ hpos
    linarith

/-- A natural number lies between two magnitudes next to each other, of which rounding takes the
nearer one, and they are close together compared with the number. -/
theorem nearestMagnitude_between (hzero : n ≠ 0) (hlog : n.log2 < 1023) :
    ∃ m gap, magnitudeUnits (m + 1) = magnitudeUnits m + gap ∧ m + 1 < infinityMagnitude ∧
      magnitudeUnits m ≤ n * unitsPerOne ∧ n * unitsPerOne < magnitudeUnits m + gap ∧
      gap * 2 ^ 52 ≤ n * unitsPerOne ∧
      ((nearestMagnitude n 1 = m ∧ 2 * (n * unitsPerOne) ≤ 2 * magnitudeUnits m + gap) ∨
        (nearestMagnitude n 1 = m + 1 ∧ 2 * magnitudeUnits m + gap ≤ 2 * (n * unitsPerOne))) := by
  have hnearest := nearestMagnitude_one hzero
  have hround := roundQuotient_eq_or (n * 2 ^ (52 - n.log2)) (2 ^ (n.log2 - 52))
  rw [← roundedSignificand] at hround
  obtain ⟨hlower, hupper⟩ := truncatedSignificand_bounds hzero
  -- the divisor of the significand is one unless the number has more than 53 bits, so that both
  -- cases are in one equation: the number in units, times the divisor, by quotient and remainder
  have hsplit : n * unitsPerOne * 2 ^ (n.log2 - 52) =
      (2 ^ (n.log2 - 52) * (n * 2 ^ (52 - n.log2) / 2 ^ (n.log2 - 52)) +
        n * 2 ^ (52 - n.log2) % 2 ^ (n.log2 - 52)) * 2 ^ (n.log2 + 1022) := by
    have hexponent : 1074 + (n.log2 - 52) = 52 - n.log2 + (n.log2 + 1022) := by omega
    rw [Nat.div_add_mod, Nat.mul_assoc, Nat.mul_assoc, unitsPerOne_mul_two_pow hexponent]
  obtain ⟨hfloor, hceil, hdown, hup⟩ := between_multiples (Nat.two_pow_pos _) (Nat.two_pow_pos _)
    (Nat.mod_lt _ (Nat.two_pow_pos _)) hsplit
  generalize n * 2 ^ (52 - n.log2) / 2 ^ (n.log2 - 52) = q at *
  have hunits := magnitudeUnits_of_significand (k := n.log2 + 1022) hlower hupper.le
  have hinfinity : (n.log2 + 1022) * 2 ^ 52 + q + 1 < infinityMagnitude := by
    unfold infinityMagnitude
    omega
  refine ⟨(n.log2 + 1022) * 2 ^ 52 + q, 2 ^ (n.log2 + 1022), ?_, hinfinity, ?_, ?_, ?_, ?_⟩
  · rw [hunits, Nat.add_assoc, magnitudeUnits_of_significand (by omega) hupper, Nat.succ_mul]
  · rw [hunits]
    exact hfloor
  · rw [hunits]
    exact hceil
  · refine Nat.le_trans ?_ hfloor
    rw [Nat.mul_comm]
    exact Nat.mul_le_mul_right _ hlower
  · rw [hunits]
    rcases hround with ⟨hsame, hnear⟩ | ⟨hsame, hnear⟩
    · exact Or.inl ⟨by omega, hdown hnear⟩
    · exact Or.inr ⟨by omega, hup hnear⟩

theorem le_magnitudeUnits (m : ℕ) : m ≤ magnitudeUnits m := magnitudeUnits_strictMono.le_apply

theorem magnitudeUnits_zero : magnitudeUnits 0 = 0 := rfl

theorem nearestMagnitude_zero : nearestMagnitude 0 1 = 0 := rfl

theorem nearestMagnitude_lt (hlog : n.log2 < 1023) : nearestMagnitude n 1 < infinityMagnitude := by
  by_cases hzero : n = 0
  · rw [hzero]
    decide
  obtain ⟨m, gap, -, hinfinity, -, -, -, ⟨hsame, -⟩ | ⟨hsame, -⟩⟩ :=
    nearestMagnitude_between hzero hlog
  · omega
  · omega

/-- A double not above a natural number is not above the double that the number is rounded to. -/
theorem le_nearestMagnitude (hlog : n.log2 < 1023) (h : magnitudeUnits m ≤ n * unitsPerOne) :
    m ≤ nearestMagnitude n 1 := by
  by_cases hzero : n = 0
  · have hm := le_magnitudeUnits m
    rw [hzero, Nat.zero_mul] at h
    omega
  obtain ⟨low, gap, hgap, -, -, hceil, -, hnear⟩ := nearestMagnitude_between hzero hlog
  -- the double is at most the lower one of the two that the number is between
  have hless : m < low + 1 :=
    magnitudeUnits_strictMono.lt_iff_lt.mp (Nat.lt_of_le_of_lt h (hgap ▸ hceil))
  omega

/-- A double not below a natural number is not below the double that the number is rounded to. -/
theorem nearestMagnitude_le_of_le (hlog : n.log2 < 1023)
    (h : n * unitsPerOne ≤ magnitudeUnits m) : nearestMagnitude n 1 ≤ m := by
  by_cases hzero : n = 0
  · rw [hzero, nearestMagnitude_zero]
    exact Nat.zero_le m
  obtain ⟨low, gap, hgap, -, hfloor, hceil, -, ⟨hsame, -⟩ | ⟨hsame, hnear⟩⟩ :=
    nearestMagnitude_between hzero hlog
  · rw [hsame]
    exact magnitudeUnits_strictMono.le_iff_le.mp (Nat.le_trans hfloor h)
  · -- the number is above the lower one of the two
    have hless : magnitudeUnits low < magnitudeUnits m := by omega
    rw [hsame]
    exact magnitudeUnits_strictMono.lt_iff_lt.mp hless

/-- Rounding changes a natural number by at most one part in `2 ^ 53`. -/
theorem magnitudeUnits_nearestMagnitude_mem (hlog : n.log2 < 1023) :
    magnitudeUnits (nearestMagnitude n 1) * 2 ^ 53 ≤ n * unitsPerOne * 2 ^ 53 + n * unitsPerOne ∧
      n * unitsPerOne * 2 ^ 53 ≤
        magnitudeUnits (nearestMagnitude n 1) * 2 ^ 53 + n * unitsPerOne := by
  by_cases hzero : n = 0
  · rw [hzero, nearestMagnitude_zero, magnitudeUnits_zero]
    omega
  obtain ⟨m, gap, hgap, -, hfloor, hceil, hsmall, ⟨hsame, hnear⟩ | ⟨hsame, hnear⟩⟩ :=
    nearestMagnitude_between hzero hlog
  -- the error is half the gap at most, and the number is at least `2 ^ 52` gaps
  · rw [hsame]
    omega
  · rw [hsame, hgap]
    omega

/-- A natural number of at most 53 bits is the number of a double. -/
theorem magnitudeUnits_nearestMagnitude_of_lt (h : n < 2 ^ 53) :
    magnitudeUnits (nearestMagnitude n 1) = n * unitsPerOne := by
  by_cases hzero : n = 0
  · rw [hzero, nearestMagnitude_zero, magnitudeUnits_zero, Nat.zero_mul]
  have hlog : n.log2 ≤ 52 := Nat.le_of_lt_succ ((Nat.log2_lt hzero).mpr h)
  obtain ⟨hlower, hupper⟩ := roundedSignificand_bounds hzero
  -- all bits of the number are in the significand
  have hsignificand : roundedSignificand n = n * 2 ^ (52 - n.log2) := by
    rw [roundedSignificand, Nat.sub_eq_zero_of_le hlog, Nat.pow_zero, roundQuotient_one]
  have hinfinity : (n.log2 + 1022) * 2 ^ 52 + roundedSignificand n ≤ infinityMagnitude := by
    unfold infinityMagnitude
    omega
  have hexponent : 1074 + 0 = 52 - n.log2 + (n.log2 + 1022) := by omega
  rw [nearestMagnitude_one hzero, Nat.min_eq_right hinfinity,
    magnitudeUnits_of_significand hlower hupper, hsignificand, Nat.mul_assoc,
    ← unitsPerOne_mul_two_pow hexponent, Nat.pow_zero, Nat.mul_one]

/-! ## Signs -/

/-- The units of the double that stands at a key. -/
def signedUnits (key : ℤ) : ℤ := key.sign * magnitudeUnits key.natAbs

theorem signedUnits_natCast (m : ℕ) : signedUnits m = magnitudeUnits m := by
  rcases Nat.eq_zero_or_pos m with rfl | hpos
  · rfl
  · rw [signedUnits, Int.natAbs_natCast, Int.sign_natCast_of_ne_zero hpos.ne', Int.one_mul]

theorem signedUnits_neg (key : ℤ) : signedUnits (-key) = -signedUnits key := by
  rw [signedUnits, signedUnits, Int.sign_neg, Int.natAbs_neg, Int.neg_mul]

theorem signedUnits_lt_signedUnits {low high : ℤ} (h : low < high) :
    signedUnits low < signedUnits high := by
  obtain ⟨m, rfl | rfl⟩ := low.eq_nat_or_neg <;> obtain ⟨k, rfl | rfl⟩ := high.eq_nat_or_neg
  · rw [signedUnits_natCast, signedUnits_natCast]
    exact Int.ofNat_lt.mpr (magnitudeUnits_strictMono (Int.ofNat_lt.mp h))
  · omega
  · have hm := le_magnitudeUnits m
    have hk := le_magnitudeUnits k
    rw [signedUnits_neg, signedUnits_natCast, signedUnits_natCast]
    omega
  · have hless : k < m := by omega
    have hunits := magnitudeUnits_strictMono hless
    rw [signedUnits_neg, signedUnits_neg, signedUnits_natCast, signedUnits_natCast]
    omega

/-- Keys are ordered as their units are. -/
theorem signedUnits_le_iff {low high : ℤ} : signedUnits low ≤ signedUnits high ↔ low ≤ high := by
  constructor
  · intro h
    exact Int.not_lt.mp fun hless => Int.not_le.mpr (signedUnits_lt_signedUnits hless) h
  · intro h
    rcases Int.lt_or_eq_of_le h with hless | rfl
    · exact Int.le_of_lt (signedUnits_lt_signedUnits hless)
    · exact Int.le_refl _

/-! ## Rounding of integers -/

theorem orderKey_ofInt (a : ℤ) : (ofInt a).orderKey = a.sign * nearestMagnitude a.natAbs 1 := by
  have hle := nearestMagnitude_le a.natAbs 1
  rw [ofInt, ofRatio, orderKey, isNegative_ofMagnitude hle, magnitude_ofMagnitude hle]
  rcases Int.lt_trichotomy a 0 with hneg | rfl | hpos
  · simp [hneg, Int.sign_eq_neg_one_of_neg hneg]
  · rfl
  · simp [not_lt_of_gt hpos, Int.sign_eq_one_of_pos hpos]

theorem orderKey_ofInt_natCast (n : ℕ) : (ofInt n).orderKey = nearestMagnitude n 1 := by
  rcases Nat.eq_zero_or_pos n with rfl | hpos
  · rfl
  · rw [orderKey_ofInt, Int.natAbs_natCast, Int.sign_natCast_of_ne_zero hpos.ne', Int.one_mul]

theorem orderKey_ofInt_neg (a : ℤ) : (ofInt (-a)).orderKey = -(ofInt a).orderKey := by
  rw [orderKey_ofInt, orderKey_ofInt, Int.sign_neg, Int.natAbs_neg, Int.neg_mul]

variable {a key : ℤ}

theorem le_orderKey_ofInt_natCast (hlog : n.log2 < 1023) (h : signedUnits key ≤ n * unitsPerOne) :
    key ≤ (ofInt n).orderKey := by
  rw [orderKey_ofInt_natCast]
  obtain ⟨m, rfl | rfl⟩ := key.eq_nat_or_neg
  · rw [signedUnits_natCast] at h
    exact Int.ofNat_le.mpr (le_nearestMagnitude hlog (by exact_mod_cast h))
  · omega

theorem orderKey_ofInt_natCast_le (hlog : n.log2 < 1023) (h : n * unitsPerOne ≤ signedUnits key) :
    (ofInt n).orderKey ≤ key := by
  rw [orderKey_ofInt_natCast]
  obtain ⟨m, rfl | rfl⟩ := key.eq_nat_or_neg
  · rw [signedUnits_natCast] at h
    exact Int.ofNat_le.mpr (nearestMagnitude_le_of_le hlog (by exact_mod_cast h))
  · -- a natural number below a number that is not positive is zero, and so is that number
    rw [signedUnits_neg, signedUnits_natCast] at h
    have hm := le_magnitudeUnits m
    have hnonneg : (0 : ℤ) ≤ n * unitsPerOne := by positivity
    have hzero : n * unitsPerOne ≤ magnitudeUnits 0 := by
      rw [magnitudeUnits_zero]
      exact_mod_cast (by omega : (n : ℤ) * unitsPerOne ≤ 0)
    have hnearest := nearestMagnitude_le_of_le hlog hzero
    omega

/-- A key whose units are not above an integer is not above the key of the rounded integer. -/
theorem le_orderKey_ofInt (hlog : a.natAbs.log2 < 1023) (h : signedUnits key ≤ a * unitsPerOne) :
    key ≤ (ofInt a).orderKey := by
  obtain ⟨n, rfl | rfl⟩ := a.eq_nat_or_neg
  · rw [Int.natAbs_natCast] at hlog
    exact le_orderKey_ofInt_natCast hlog h
  · rw [Int.natAbs_neg, Int.natAbs_natCast] at hlog
    have hneg : (n : ℤ) * unitsPerOne ≤ signedUnits (-key) := by
      rw [signedUnits_neg]
      linarith
    have hle := orderKey_ofInt_natCast_le hlog hneg
    rw [orderKey_ofInt_neg]
    omega

/-- A key whose units are not below an integer is not below the key of the rounded integer. -/
theorem orderKey_ofInt_le (hlog : a.natAbs.log2 < 1023) (h : a * unitsPerOne ≤ signedUnits key) :
    (ofInt a).orderKey ≤ key := by
  have hneg : signedUnits (-key) ≤ -a * unitsPerOne := by
    rw [signedUnits_neg]
    linarith
  have hle := le_orderKey_ofInt (by rwa [Int.natAbs_neg]) hneg
  rw [orderKey_ofInt_neg] at hle
  omega

/-! ## Numbers -/

/-- The number of a finite double: its significand with its sign, times a power of two. -/
def toRat (x : Binary64) : ℚ :=
  (if x.isNegative then -1 else 1) * x.significand.1 * 2 ^ x.significand.2

/-- Whether the pattern stands for a number that is not an infinity. -/
def isFinite (x : Binary64) : Bool := x.magnitude < infinityMagnitude

theorem two_zpow_sub_mul (e u : ℕ) : (2 : ℚ) ^ ((e : ℤ) - u) * (2 ^ u : ℕ) = (2 ^ e : ℕ) := by
  rw [zpow_sub₀ two_ne_zero, zpow_natCast, zpow_natCast, Nat.cast_pow, Nat.cast_pow,
    Nat.cast_ofNat, div_mul_cancel₀ _ (pow_ne_zero u two_ne_zero)]

theorem two_zpow_mul_unitsPerOne (e : ℕ) :
    (2 : ℚ) ^ ((e : ℤ) - 1074) * unitsPerOne = (2 ^ e : ℕ) := by
  unfold unitsPerOne
  exact two_zpow_sub_mul e 1074

theorem significand_mul_unitsPerOne (x : Binary64) :
    (x.significand.1 : ℚ) * 2 ^ x.significand.2 * unitsPerOne = magnitudeUnits x.magnitude := by
  have hfields : magnitudeUnits x.magnitude =
      if x.exponentField = 0 then x.fractionField
      else (2 ^ 52 + x.fractionField) * 2 ^ (x.exponentField - 1) := by
    simp only [exponentField, fractionField, magnitudeUnits, Nat.shiftLeft_eq, Nat.one_mul]
  rw [hfields, significand, mul_assoc]
  split
  · have hscale := two_zpow_mul_unitsPerOne 0
    simp only [Nat.cast_zero, zero_sub, pow_zero, Nat.cast_one] at hscale
    simp only [hscale, mul_one]
  · have hexponent : (x.exponentField : ℤ) - 1075 = (x.exponentField - 1 : ℕ) - 1074 := by omega
    simp only [hexponent, two_zpow_mul_unitsPerOne, Nat.one_shiftLeft, Nat.cast_mul]

theorem toRat_mul_unitsPerOne (x : Binary64) : x.toRat * unitsPerOne = signedUnits x.orderKey := by
  rw [toRat, mul_assoc, mul_assoc, ← mul_assoc (x.significand.1 : ℚ), significand_mul_unitsPerOne,
    orderKey]
  split
  · rw [signedUnits_neg, signedUnits_natCast, Int.cast_neg, Int.cast_natCast, neg_one_mul]
  · rw [signedUnits_natCast, Int.cast_natCast, one_mul]

theorem unitsPerOne_pos : (0 : ℚ) < unitsPerOne := by
  unfold unitsPerOne
  positivity

/-- Doubles are ordered as their numbers are. -/
theorem orderKey_le_iff {x y : Binary64} : x.orderKey ≤ y.orderKey ↔ x.toRat ≤ y.toRat := by
  rw [← mul_le_mul_iff_left₀ unitsPerOne_pos, toRat_mul_unitsPerOne, toRat_mul_unitsPerOne,
    Int.cast_le, signedUnits_le_iff]

theorem orderKey_lt_iff {x y : Binary64} : x.orderKey < y.orderKey ↔ x.toRat < y.toRat := by
  rw [← not_le, ← not_le, orderKey_le_iff]

theorem isNaN_of_isFinite {x : Binary64} (h : x.isFinite = true) : x.isNaN = false := by
  rw [isFinite, decide_eq_true_eq] at h
  rw [isNaN, decide_eq_false_iff_not]
  exact Nat.not_lt.mpr h.le

theorem natAbs_orderKey (x : Binary64) : x.orderKey.natAbs = x.magnitude := by
  rw [orderKey]
  split
  · rw [Int.natAbs_neg, Int.natAbs_natCast]
  · rw [Int.natAbs_natCast]

/-- A finite double is not equal to an infinity, nor to a pattern that is no number. -/
theorem compare?_ne_some_eq {x y : Binary64} (hx : x.isFinite = true) (hy : y.isFinite = false) :
    x.compare? y ≠ some .eq := by
  intro h
  unfold compare? at h
  split at h
  · cases h
  · have hkey := congrArg Int.natAbs (compare_eq_iff_eq.mp (Option.some.inj h))
    rw [natAbs_orderKey, natAbs_orderKey] at hkey
    rw [isFinite, hkey] at hx
    exact Bool.false_ne_true (hy.symm.trans hx)

/-- Two pairs in the same order compare alike. -/
theorem compare_eq_compare {α β : Type} [LinearOrder α] [LinearOrder β] {x y : α} {u v : β}
    (hlt : x < y ↔ u < v) (hgt : y < x ↔ v < u) : compare x y = compare u v := by
  rcases lt_trichotomy x y with h | h | h
  · rw [compare_lt_iff_lt.mpr h, compare_lt_iff_lt.mpr (hlt.mp h)]
  · have hsame : u = v := le_antisymm (not_lt.mp fun hless => (hgt.mpr hless).ne' h)
      (not_lt.mp fun hless => (hlt.mpr hless).ne h)
    rw [compare_eq_iff_eq.mpr h, compare_eq_iff_eq.mpr hsame]
  · rw [compare_gt_iff_gt.mpr h, compare_gt_iff_gt.mpr (hgt.mp h)]

/-- Doubles that are numbers are compared as their numbers are. -/
theorem compare?_eq_some_compare {x y : Binary64} (hx : x.isNaN = false) (hy : y.isNaN = false) :
    x.compare? y = some (compare x.toRat y.toRat) := by
  rw [compare?, hx, hy]
  exact congrArg some (compare_eq_compare orderKey_lt_iff orderKey_lt_iff)

theorem isFinite_ofInt (hlog : a.natAbs.log2 < 1023) : (ofInt a).isFinite = true := by
  rw [isFinite, ofInt, ofRatio, magnitude_ofMagnitude (nearestMagnitude_le _ _)]
  exact decide_eq_true (nearestMagnitude_lt hlog)

/-- A number of a double that is not above an integer is not above the rounded integer. -/
theorem toRat_le_toRat_ofInt {x : Binary64} (hlog : a.natAbs.log2 < 1023) (h : x.toRat ≤ a) :
    x.toRat ≤ (ofInt a).toRat := by
  rw [← mul_le_mul_iff_left₀ unitsPerOne_pos, toRat_mul_unitsPerOne] at h
  exact orderKey_le_iff.mp (le_orderKey_ofInt hlog (by exact_mod_cast h))

/-- A number of a double that is not below an integer is not below the rounded integer. -/
theorem toRat_ofInt_le_toRat {x : Binary64} (hlog : a.natAbs.log2 < 1023) (h : a ≤ x.toRat) :
    (ofInt a).toRat ≤ x.toRat := by
  rw [← mul_le_mul_iff_left₀ unitsPerOne_pos, toRat_mul_unitsPerOne] at h
  exact orderKey_le_iff.mp (orderKey_ofInt_le hlog (by exact_mod_cast h))

theorem toRat_ofInt_mul_unitsPerOne (a : ℤ) :
    (ofInt a).toRat * unitsPerOne = a.sign * magnitudeUnits (nearestMagnitude a.natAbs 1) := by
  rw [toRat_mul_unitsPerOne, orderKey_ofInt]
  rcases a.sign_trichotomy with hsign | hsign | hsign
  · rw [hsign, Int.one_mul, signedUnits_natCast]
    simp
  · rw [hsign, Int.zero_mul]
    simp [signedUnits]
  · rw [hsign, Int.neg_mul, Int.one_mul, signedUnits_neg, signedUnits_natCast]
    simp

theorem sign_mul_natAbs_cast (a : ℤ) : (a.sign : ℚ) * a.natAbs = a := by
  rw [← Int.cast_natCast, ← Int.cast_mul, Int.sign_mul_natAbs]

/-- An integer of at most 53 bits is the number of a double. -/
theorem toRat_ofInt_of_lt (h : a.natAbs < 2 ^ 53) : (ofInt a).toRat = a := by
  rw [← mul_left_inj' unitsPerOne_pos.ne', toRat_ofInt_mul_unitsPerOne,
    magnitudeUnits_nearestMagnitude_of_lt h, Nat.cast_mul, ← mul_assoc, sign_mul_natAbs_cast]

/-- Rounding changes an integer by at most one part in `2 ^ 53`. -/
theorem abs_toRat_ofInt_sub_le (hlog : a.natAbs.log2 < 1023) :
    |(ofInt a).toRat - a| * 2 ^ 53 ≤ |(a : ℚ)| := by
  obtain ⟨hupper, hlower⟩ := magnitudeUnits_nearestMagnitude_mem hlog
  have hupper : (magnitudeUnits (nearestMagnitude a.natAbs 1) : ℚ) * 2 ^ 53 ≤
      a.natAbs * unitsPerOne * 2 ^ 53 + a.natAbs * unitsPerOne := by exact_mod_cast hupper
  have hlower : (a.natAbs : ℚ) * unitsPerOne * 2 ^ 53 ≤
      magnitudeUnits (nearestMagnitude a.natAbs 1) * 2 ^ 53 + a.natAbs * unitsPerOne := by
    exact_mod_cast hlower
  have hunits : |(magnitudeUnits (nearestMagnitude a.natAbs 1) : ℚ) - a.natAbs * unitsPerOne| ≤
      a.natAbs * unitsPerOne / 2 ^ 53 := by
    rw [abs_le]
    constructor <;> linarith
  -- in units, the sign of the integer is in front of both
  have hdiff : ((ofInt a).toRat - a) * unitsPerOne =
      a.sign * (magnitudeUnits (nearestMagnitude a.natAbs 1) - a.natAbs * unitsPerOne) := by
    rw [sub_mul, mul_sub, toRat_ofInt_mul_unitsPerOne, ← mul_assoc, sign_mul_natAbs_cast]
  have hsize : (a.natAbs : ℚ) = |(a : ℚ)| := by
    rw [← Int.cast_natCast, Int.natCast_natAbs, Int.cast_abs]
  have hsign : |(a.sign : ℚ)| ≤ 1 := by
    rcases a.sign_trichotomy with h | h | h <;> simp [h]
  refine le_of_mul_le_mul_right ?_ unitsPerOne_pos
  calc |(ofInt a).toRat - a| * 2 ^ 53 * unitsPerOne
      = |((ofInt a).toRat - a) * unitsPerOne| * 2 ^ 53 := by
        rw [abs_mul, abs_of_pos unitsPerOne_pos, mul_right_comm]
    _ ≤ 1 * ((a.natAbs : ℚ) * unitsPerOne / 2 ^ 53) * 2 ^ 53 := by
        rw [hdiff, abs_mul]
        gcongr
    _ = |(a : ℚ)| * unitsPerOne := by
        rw [one_mul, div_mul_cancel₀ _ (pow_ne_zero _ two_ne_zero), hsize]

end MetadataGraph.Binary64

/-!
# Binary floating point numbers

A `Binary64` is an IEEE 754 double held as its bit pattern, so that signed zeros, infinities and
every NaN payload stay apart. The order of numbers (`compare?`), the total order of bit patterns
(`totalCompare`) and rounding to the nearest double (`ofRatio`) are all integer arithmetic.
Main statements: `totalCompare_eq_iff` and `compare?_eq_none_iff`.
-/

namespace MetadataGraph

/-- An IEEE 754 double, given by its 64 bits: sign, eleven exponent bits, 52 fraction bits. -/
structure Binary64 where
  /-- The bit pattern. -/
  bits : UInt64
  deriving DecidableEq, Inhabited

namespace Binary64

/-! ## Parts of the bit pattern -/

/-- The bits of positive infinity: the magnitudes above it are the NaNs. -/
def infinityMagnitude : Nat := 0x7ff0000000000000

/-- The bits below the sign; they grow with the absolute value. -/
def magnitude (x : Binary64) : Nat := x.bits.toNat % (1 <<< 63)

/-- Whether the sign bit is set. -/
def isNegative (x : Binary64) : Bool := 1 <<< 63 ≤ x.bits.toNat

/-- Whether the pattern stands for no number. -/
def isNaN (x : Binary64) : Bool := infinityMagnitude < x.magnitude

/-- Whether the pattern is one of the two infinities. -/
def isInfinite (x : Binary64) : Bool := x.magnitude = infinityMagnitude

/-- The double with a given sign and magnitude. -/
def ofMagnitude (negative : Bool) (magnitude : Nat) : Binary64 :=
  ⟨UInt64.ofNat (if negative then (1 <<< 63) + magnitude else magnitude)⟩

/-- Positive zero. -/
def zero : Binary64 := ⟨0⟩

/-- The biased exponent field. -/
def exponentField (x : Binary64) : Nat := x.magnitude / (1 <<< 52)

/-- The fraction field. -/
def fractionField (x : Binary64) : Nat := x.magnitude % (1 <<< 52)

/-- The significand `m` and the exponent `q` of a finite double, whose absolute value is
`m * 2 ^ q`. -/
def significand (x : Binary64) : Nat × Int :=
  if x.exponentField = 0 then (x.fractionField, -1074)
  else ((1 <<< 52) + x.fractionField, (x.exponentField : Int) - 1075)

/-- A finite double's value counted in units of `2 ^ -1074`, the spacing of the smallest doubles. -/
def units (x : Binary64) : Int :=
  let absolute : Nat :=
    if x.exponentField = 0 then x.fractionField
    else ((1 <<< 52) + x.fractionField) <<< (x.exponentField - 1)
  if x.isNegative then -(absolute : Int) else absolute

/-- The double of opposite sign. -/
def negate (x : Binary64) : Binary64 := ofMagnitude (!x.isNegative) x.magnitude

/-! ## Order -/

/-- Orders the numbers as integers do; both zeros have key zero. -/
def orderKey (x : Binary64) : Int :=
  if x.isNegative then -(x.magnitude : Int) else x.magnitude

/-- Compare as numbers: a NaN compares with nothing and the zeros are equal. -/
def compare? (a b : Binary64) : Option Ordering :=
  if a.isNaN || b.isNaN then none else some (compare a.orderKey b.orderKey)

/-- Orders all bit patterns: negative NaNs first, then the numbers with `-0` before `0`, then the
positive NaNs. -/
def totalKey (x : Binary64) : Int :=
  if x.isNegative then -(x.magnitude : Int) - 1 else x.magnitude

/-- Compare bit patterns in their total order. -/
def totalCompare (a b : Binary64) : Ordering := compare a.totalKey b.totalKey

/-- Equality of numbers: a NaN differs from itself and the zeros are equal. -/
def numericallyEqual (a b : Binary64) : Bool := a.compare? b == some .eq

theorem toNat_bits (x : Binary64) :
    x.bits.toNat = (if x.isNegative then 1 <<< 63 else 0) + x.magnitude := by
  have bound := x.bits.toNat_lt
  unfold isNegative magnitude
  split <;> simp_all <;> omega

theorem eq_of_totalKey_eq {a b : Binary64} (h : a.totalKey = b.totalKey) : a = b := by
  have ha := toNat_bits a
  have hb := toNat_bits b
  have same : a.bits.toNat = b.bits.toNat := by
    unfold totalKey at h
    cases na : a.isNegative <;> cases nb : b.isNegative <;> simp [na, nb] at h ha hb <;> omega
  cases a
  cases b
  exact congrArg Binary64.mk (UInt64.toNat_inj.1 same)

/-- The total order tells any two bit patterns apart. -/
theorem totalCompare_eq_iff {a b : Binary64} : totalCompare a b = .eq ↔ a = b :=
  ⟨fun h => eq_of_totalKey_eq (Std.LawfulEqOrd.eq_of_compare h), fun h =>
    h ▸ (Std.ReflCmp.compare_self : compare a.totalKey a.totalKey = .eq)⟩

theorem compare?_eq_none_iff {a b : Binary64} :
    compare? a b = none ↔ a.isNaN = true ∨ b.isNaN = true := by
  unfold compare?
  split <;> simp_all

/-! ## Rounding -/

/-- The integer nearest to `numerator / denominator`, of two equally near the even one. -/
def roundQuotient (numerator denominator : Nat) : Nat :=
  let quotient := numerator / denominator
  let twice := 2 * (numerator % denominator)
  if twice < denominator then quotient
  else if denominator < twice then quotient + 1
  else quotient + quotient % 2

/-- `value * 2 ^ exponent` as a quotient, `value` being a quotient itself. -/
def scaleByPower (numerator denominator : Nat) (exponent : Int) : Nat × Nat :=
  if 0 ≤ exponent then (numerator <<< exponent.toNat, denominator)
  else (numerator, denominator <<< (-exponent).toNat)

/-- The exponent `e` with `2 ^ e ≤ numerator / denominator < 2 ^ (e + 1)`, for positive parts. -/
def binaryExponent (numerator denominator : Nat) : Int :=
  let guess : Int := (numerator.log2 : Int) - denominator.log2
  let (n, d) := scaleByPower numerator denominator (-guess)
  if n < d then guess - 1 else guess

/-- The magnitude of the double nearest to `numerator / denominator`, ties going to the even
significand; everything too large becomes infinity. -/
def nearestMagnitude (numerator denominator : Nat) : Nat :=
  if numerator = 0 then 0
  else
    let exponent := max (binaryExponent numerator denominator - 52) (-1074)
    let (n, d) := scaleByPower numerator denominator (-exponent)
    min infinityMagnitude (((exponent + 1074).toNat <<< 52) + roundQuotient n d)

/-- The double nearest to a quotient of natural numbers, with a given sign. -/
def ofRatio (negative : Bool) (numerator denominator : Nat) : Binary64 :=
  ofMagnitude negative (nearestMagnitude numerator denominator)

/-- The double nearest to a natural number. -/
def ofNat (n : Nat) : Binary64 := ofRatio false n 1

/-- The double nearest to an integer. -/
def ofInt (n : Int) : Binary64 := ofRatio (n < 0) n.natAbs 1

/-- The absolute value of a finite double as a quotient. -/
def ratio (x : Binary64) : Nat × Nat :=
  let (m, q) := x.significand
  scaleByPower m 1 q

/-- The rounded product with a power of ten that is itself rounded to a double first. -/
def timesPowerOfTen (x : Binary64) (power : Nat) : Binary64 :=
  let (n, d) := x.ratio
  let (tenN, tenD) := (ofNat (Nat.pow 10 power)).ratio
  ofRatio x.isNegative (n * tenN) (d * tenD)

/-- The rounded quotient by a power of ten that is itself rounded to a double first. -/
def overPowerOfTen (x : Binary64) (power : Nat) : Binary64 :=
  let (n, d) := x.ratio
  let (tenN, tenD) := (ofNat (Nat.pow 10 power)).ratio
  ofRatio x.isNegative (n * tenD) (d * tenN)

end Binary64

end MetadataGraph

import MetadataGraph.Binary64

/-!
# Decimal text of floating point numbers

The text of a double uses the fewest decimal digits that read back as the same double, and the
nearest of those to its value. `HalfwayRule` decides between two equally near, and `DecimalLayout`
says how the digits are laid out.
-/

namespace MetadataGraph

namespace Binary64

/-! ## Shortest digits -/

/-- The value `units * 2 ^ exponent` compared with `digits * 10 ^ power`. -/
def compareScaled (units : Nat) (exponent : Int) (digits : Nat) (power : Int) : Ordering :=
  compare (units <<< exponent.toNat * Nat.pow 10 (-power).toNat)
    (digits <<< (-exponent).toNat * Nat.pow 10 power.toNat)

/-- Which of two decimals is taken that are equally near to a value. -/
inductive HalfwayRule where
  /-- The larger one. -/
  | up
  /-- The one with an even last digit. -/
  | toEven
  deriving DecidableEq

/-- Whether a value half way between the digits `floor` and `floor + 1` takes the upper ones. -/
def HalfwayRule.takesUpper (rule : HalfwayRule) (floor : Nat) : Bool :=
  match rule with
  | up => true
  | toEven => floor % 2 = 1

/-- The numbers that round to `m * 2 ^ q`, with both ends and the value in units of
`2 ^ (q - 2)`. -/
structure RoundingInterval where
  /-- Lower end. -/
  low : Nat
  /-- The value that the numbers round to. -/
  middle : Nat
  /-- Upper end. -/
  high : Nat
  /-- The exponent of the unit. -/
  exponent : Int
  /-- Whether the ends themselves round to the value. -/
  closed : Bool

/-- The rounding interval of a positive finite double; below a power of two it is half as wide. -/
def roundingInterval (x : Binary64) : RoundingInterval :=
  let (m, q) := x.significand
  let narrow := x.fractionField = 0 ∧ 1 < x.exponentField
  { low := if narrow then 4 * m - 1 else 4 * m - 2
    middle := 4 * m
    high := 4 * m + 2
    exponent := q - 2
    closed := m % 2 = 0 }

namespace RoundingInterval

/-- Whether `digits * 10 ^ power` lies in the interval. -/
def contains (interval : RoundingInterval) (digits : Nat) (power : Int) : Bool :=
  let below := compareScaled interval.low interval.exponent digits power
  let above := compareScaled interval.high interval.exponent digits power
  (below == .lt && above == .gt) || (interval.closed && (below == .eq || above == .eq))

/-- The largest multiple of `10 ^ power` that is not above the value. -/
def floorAt (interval : RoundingInterval) (power : Int) : Nat :=
  (interval.middle <<< interval.exponent.toNat * Nat.pow 10 (-power).toNat)
    / (Nat.pow 10 power.toNat <<< (-interval.exponent).toNat)

/-- The multiple of `10 ^ power` in the interval that is nearest to the value, looking at the two
around it. None when `10 ^ power` is above the value. -/
def nearestAt (interval : RoundingInterval) (rule : HalfwayRule) (power : Int) : Option Nat :=
  let floor := interval.floorAt power
  let lower := interval.contains floor power
  let upper := interval.contains (floor + 1) power
  let takesUpper :=
    match compareScaled (2 * interval.middle) interval.exponent (2 * floor + 1) power with
    | .lt => false
    | .eq => rule.takesUpper floor
    | .gt => true
  if floor = 0 then none
  else if lower && upper then some (if takesUpper then floor + 1 else floor)
  else if lower then some floor
  else if upper then some (floor + 1)
  else none

/-- An integer `p` with `10 ^ p` at most the value and `10 ^ (p + 2)` above it. -/
def decimalExponent (interval : RoundingInterval) : Int :=
  -- `log10 2` is taken as 0.30103, whose error over all exponents of doubles is below one.
  ((interval.middle.log2 + interval.exponent) * 30103 / 100000) - 1

/-- Try ever finer powers of ten, `steps` many. -/
def searchDigits (interval : RoundingInterval) (rule : HalfwayRule) (power : Int) :
    Nat → Nat × Int
  | 0 => (interval.floorAt power, power)
  | steps + 1 =>
    match interval.nearestAt rule power with
    | some digits => (digits, power)
    | none => searchDigits interval rule (power - 1) steps

end RoundingInterval

/-- Remove the zeros that end a positive number, counting them into the power of ten. -/
def trimZeros (digits : Nat) (power : Int) : Nat → Nat × Int
  | 0 => (digits, power)
  | steps + 1 =>
    if digits ≠ 0 ∧ digits % 10 = 0 then trimZeros (digits / 10) (power + 1) steps
    else (digits, power)

/-- The digits `d` and the power `p` such that `d * 10 ^ p` is the shortest decimal that rounds to
a finite double's absolute value. -/
def shortest (rule : HalfwayRule) (x : Binary64) : Nat × Int :=
  if x.magnitude = 0 then (0, 0)
  else
    let interval := x.roundingInterval
    let (digits, power) := interval.searchDigits rule (interval.decimalExponent + 3) 24
    trimZeros digits power 20

/-! ## Layout -/

/-- How the digits of a finite number are chosen and laid out. -/
structure DecimalLayout where
  /-- Which of two equally near decimals of the least length is taken. -/
  halfway : HalfwayRule
  /-- Whether a number is written without an exponent, given the position of its decimal point
  counted from its first digit. -/
  isPositional : Int → Bool
  /-- Whether whole numbers carry the fraction `.0`. -/
  keepsFraction : Bool

/-- `count` zeros. -/
def zeros (count : Nat) : String := String.ofList (List.replicate count '0')

/-- Digits around a decimal point that stands `point` places after the first digit. -/
def positionalText (digits : String) (point : Int) (keepsFraction : Bool) : String :=
  if point ≤ 0 then "0." ++ zeros (-point).toNat ++ digits
  else if (digits.length : Int) ≤ point then
    digits ++ zeros (point.toNat - digits.length) ++ (if keepsFraction then ".0" else "")
  else
    String.ofList (digits.toList.take point.toNat) ++ "."
      ++ String.ofList (digits.toList.drop point.toNat)

/-- One digit, the others after a point, and the power of ten. -/
def exponentText (digits : String) (point : Int) : String :=
  let head := String.ofList (digits.toList.take 1)
  let tail := String.ofList (digits.toList.drop 1)
  head ++ (if tail.isEmpty then "" else "." ++ tail) ++ "e" ++ toString (point - 1)

/-- The absolute value of a finite double, laid out. -/
def absoluteText (layout : DecimalLayout) (x : Binary64) : String :=
  let (number, power) := x.shortest layout.halfway
  if number = 0 then (if layout.keepsFraction then "0.0" else "0")
  else
    let digits := toString number
    let point := power + digits.length
    if layout.isPositional point then positionalText digits point layout.keepsFraction
    else exponentText digits point

/-- Messages round up half way, and write every number without an exponent and whole numbers
without a fraction. -/
def messageLayout : DecimalLayout := ⟨.up, fun _ => true, false⟩

/-- Documents go to the even digit half way, and write `1.0` and an exponent for numbers below
`1e-5` or from `1e16` on. -/
def documentLayout : DecimalLayout := ⟨.toEven, fun point => -5 < point ∧ point ≤ 16, true⟩

/-- The text of a double in a message. -/
def messageText (x : Binary64) : String :=
  if x.isNaN then "NaN"
  else
    let sign := if x.isNegative then "-" else ""
    if x.isInfinite then sign ++ "inf" else sign ++ absoluteText messageLayout x

/-- The text of a finite double in a document; documents have no form for the others. -/
def documentText? (x : Binary64) : Option String :=
  if x.isNaN || x.isInfinite then none
  else some ((if x.isNegative then "-" else "") ++ absoluteText documentLayout x)

end Binary64

end MetadataGraph

import MetadataGraph.Proofs.Binary64.Exact
import MetadataGraph.Proofs.Value.Order
import MetadataGraph.Search.Predicate

/-!
# Comparisons of numbers

Integers and finite floats stand for numbers. Integers are compared with each other as they are,
but with a float an integer is rounded to a double first, and two different numbers may then look
equal. That happens to no integer of up to 53 bits and to no number that is further from the integer
than rounding goes. We prove:

* `compare?_of_not_blurred`, `compare?_of_blurred`: a comparison gives the order of the numbers
  unless rounding makes them equal;
* `Blurred.near`: which numbers rounding makes equal;
* `matchesValue_of_number?_eq_none`: a number equals nothing that is not a number;
* `conditions_numbers`: what the conditions of a search answer about numbers.
-/

namespace MetadataGraph

namespace Value

/-! ## Numbers -/

/-- The number that an integer or a finite float stands for. -/
def number? : Value → Option ℚ
  | integer a => some a.toInt
  | float x => if x.isFinite then some x.toRat else none
  | _ => none

/-- The number that a comparison with a float sees: an integer is rounded to a double. -/
def rounded : Value → ℚ
  | integer a => (Binary64.ofInt a.toInt).toRat
  | float x => x.toRat
  | _ => 0

/-- The values are different numbers, not both integers, and the same number after rounding. -/
def Blurred (a b : Value) : Prop :=
  (a.isFloat = true ∨ b.isFloat = true) ∧ a.number? ≠ b.number? ∧ a.rounded = b.rounded

/-- What a value that stands for a number looks like. -/
inductive IsNumber : Value → ℚ → Prop where
  | integer (a : Int64) : IsNumber (.integer a) a.toInt
  | float {x : Binary64} (h : x.isFinite = true) : IsNumber (.float x) x.toRat

variable {a b c : Value} {p q r : ℚ}

theorem isNumber_of_number? (h : a.number? = some p) : a.IsNumber p := by
  cases a with
  | integer a =>
    obtain rfl := Option.some.inj h
    exact .integer a
  | float x =>
    rw [number?] at h
    split at h
    case isTrue hfinite => exact Option.some.inj h ▸ .float hfinite
    case isFalse => cases h
  | _ => cases h

theorem log2_natAbs_toInt_lt (a : Int64) : a.toInt.natAbs.log2 < 1023 := by
  have hlower := a.le_toInt
  have hupper := a.toInt_lt
  have hbound : a.toInt.natAbs < 2 ^ 64 := by omega
  by_cases hzero : a.toInt.natAbs = 0
  · rw [hzero]
    decide
  · have hlog := (Nat.log2_lt hzero).mpr hbound
    omega

/-- Rounding keeps the order of numbers that are not both integers. -/
theorem rounded_le_rounded (ha : a.IsNumber p) (hb : b.IsNumber q)
    (hfloat : a.isFloat = true ∨ b.isFloat = true) (h : p ≤ q) : a.rounded ≤ b.rounded := by
  cases ha with
  | integer a =>
    cases hb with
    | integer b => simp [isFloat] at hfloat
    | float _ => exact Binary64.toRat_ofInt_le_toRat (log2_natAbs_toInt_lt a) h
  | float _ =>
    cases hb with
    | integer b => exact Binary64.toRat_le_toRat_ofInt (log2_natAbs_toInt_lt b) h
    | float _ => exact h

theorem rounded_eq_rounded (ha : a.IsNumber p) (hb : b.IsNumber q) (h : p = q) :
    a.rounded = b.rounded := by
  by_cases hfloat : a.isFloat = true ∨ b.isFloat = true
  · exact le_antisymm (rounded_le_rounded ha hb hfloat h.le)
      (rounded_le_rounded hb ha hfloat.symm h.ge)
  · cases ha with
    | integer a =>
      cases hb with
      | integer b => rw [rounded, rounded, Int.cast_inj.mp h]
      | float _ => simp [isFloat] at hfloat
    | float _ => simp [isFloat] at hfloat

/-! ## Comparison -/

/-- A comparison with a float compares rounded numbers. -/
theorem compare?_rounded (ha : a.IsNumber p) (hb : b.IsNumber q)
    (hfloat : a.isFloat = true ∨ b.isFloat = true) :
    a.compare? b = some (compare a.rounded b.rounded) := by
  have hofInt (a : Int64) : (Binary64.ofInt a.toInt).isNaN = false :=
    Binary64.isNaN_of_isFinite (Binary64.isFinite_ofInt (log2_natAbs_toInt_lt a))
  cases ha with
  | integer a =>
    cases hb with
    | integer b => simp [isFloat] at hfloat
    | float hy => exact Binary64.compare?_eq_some_compare (hofInt a) (Binary64.isNaN_of_isFinite hy)
  | float hx =>
    have hx := Binary64.isNaN_of_isFinite hx
    cases hb with
    | integer b => exact Binary64.compare?_eq_some_compare hx (hofInt b)
    | float hy => exact Binary64.compare?_eq_some_compare hx (Binary64.isNaN_of_isFinite hy)

/-- Integers are compared as they are. -/
theorem compare?_of_not_isFloat (ha : a.IsNumber p) (hb : b.IsNumber q)
    (hfloat : ¬(a.isFloat = true ∨ b.isFloat = true)) : a.compare? b = some (compare p q) := by
  cases ha with
  | integer a =>
    cases hb with
    | integer b =>
      change some (compare a b) = _
      rw [compare_int64]
      exact congrArg some (Binary64.compare_eq_compare Int.cast_lt.symm Int.cast_lt.symm)
    | float _ => simp [isFloat] at hfloat
  | float _ => simp [isFloat] at hfloat

/-- A comparison gives the order of the numbers unless rounding makes them equal. -/
theorem compare?_of_not_blurred (ha : a.number? = some p) (hb : b.number? = some q)
    (h : ¬Blurred a b) : a.compare? b = some (compare p q) := by
  have hp := isNumber_of_number? ha
  have hq := isNumber_of_number? hb
  by_cases hfloat : a.isFloat = true ∨ b.isFloat = true
  · rw [compare?_rounded hp hq hfloat]
    refine congrArg some ?_
    -- different numbers stay different
    have hne (hpq : p ≠ q) : a.rounded ≠ b.rounded :=
      fun hsame => h ⟨hfloat, by rwa [ha, hb, Ne, Option.some_inj], hsame⟩
    refine Binary64.compare_eq_compare ⟨fun hless => ?_, fun hless => ?_⟩
      ⟨fun hless => ?_, fun hless => ?_⟩
    · exact lt_of_not_ge fun hle => (rounded_le_rounded hq hp hfloat.symm hle).not_gt hless
    · exact lt_of_le_of_ne (rounded_le_rounded hp hq hfloat hless.le) (hne hless.ne)
    · exact lt_of_not_ge fun hle => (rounded_le_rounded hp hq hfloat hle).not_gt hless
    · exact lt_of_le_of_ne (rounded_le_rounded hq hp hfloat.symm hless.le) (hne hless.ne').symm
  · exact compare?_of_not_isFloat hp hq hfloat

/-- Numbers that rounding makes equal are compared as equal. -/
theorem compare?_of_blurred (ha : a.IsNumber p) (hb : b.IsNumber q) (h : Blurred a b) :
    a.compare? b = some .eq := by
  rw [compare?_rounded ha hb h.1, compare_eq_iff_eq.mpr h.2.2]

theorem near_toRat_ofInt (a : Int64) (h : (a.toInt : ℚ) ≠ (Binary64.ofInt a.toInt).toRat) :
    2 ^ 53 ≤ |(a.toInt : ℚ)| ∧
      |(Binary64.ofInt a.toInt).toRat - a.toInt| * 2 ^ 53 ≤ |(a.toInt : ℚ)| := by
  refine ⟨?_, Binary64.abs_toRat_ofInt_sub_le (log2_natAbs_toInt_lt a)⟩
  have hlarge : 2 ^ 53 ≤ a.toInt.natAbs :=
    Nat.le_of_not_lt fun hsmall => h (Binary64.toRat_ofInt_of_lt hsmall).symm
  rw [← Int.cast_abs, Int.abs_eq_natAbs]
  exact_mod_cast hlarge

/-- Only an integer of more than 53 bits is mistaken for another number, and only for one that is
near to it. -/
theorem Blurred.near (ha : a.number? = some p) (hb : b.number? = some q) (h : Blurred a b) :
    p ≠ q ∧ 2 ^ 53 ≤ max |p| |q| ∧ |p - q| * 2 ^ 53 ≤ max |p| |q| := by
  obtain ⟨hfloat, hne, hsame⟩ := h
  rw [ha, hb, Ne, Option.some_inj] at hne
  refine ⟨hne, ?_⟩
  cases isNumber_of_number? ha with
  | integer a =>
    cases isNumber_of_number? hb with
    | integer b => simp [isFloat] at hfloat
    | float _ =>
      rw [rounded, rounded] at hsame
      obtain ⟨hlarge, hnear⟩ := near_toRat_ofInt a (hsame ▸ hne)
      rw [abs_sub_comm, ← hsame]
      exact ⟨le_max_of_le_left hlarge, le_max_of_le_left hnear⟩
  | float _ =>
    cases isNumber_of_number? hb with
    | integer b =>
      rw [rounded, rounded] at hsame
      obtain ⟨hlarge, hnear⟩ := near_toRat_ofInt b fun heq => hne (hsame.trans heq.symm)
      rw [hsame]
      exact ⟨le_max_of_le_right hlarge, le_max_of_le_right hnear⟩
    | float _ => exact absurd hsame hne

/-! ## Equality -/

theorem matchesValue_iff (ha : a.number? = some p) (hb : b.number? = some q) :
    a.matchesValue b = true ↔ p = q ∨ Blurred a b := by
  rw [matchesValue]
  by_cases h : Blurred a b
  · simp [compare?_of_blurred (isNumber_of_number? ha) (isNumber_of_number? hb) h, h]
  · simp [compare?_of_not_blurred ha hb h, h]

/-- With a float, numbers that are the same after rounding are equal. -/
theorem matchesValue_iff_rounded (ha : a.IsNumber p) (hb : b.IsNumber q)
    (hfloat : a.isFloat = true ∨ b.isFloat = true) :
    a.matchesValue b = true ↔ a.rounded = b.rounded := by
  simp [matchesValue, compare?_rounded ha hb hfloat]

theorem rounded_of_matchesValue (ha : a.number? = some p) (hb : b.number? = some q)
    (h : a.matchesValue b = true) : a.rounded = b.rounded := by
  obtain heq | hblurred := (matchesValue_iff ha hb).mp h
  · exact rounded_eq_rounded (isNumber_of_number? ha) (isNumber_of_number? hb) heq
  · exact hblurred.2.2

theorem matchesValue_eq_false (hcompare : a.compare? b ≠ some .eq) (hequal : a.equal b = false) :
    a.matchesValue b = false := by
  unfold matchesValue
  split
  case h_1 ordering h => simpa [h] using hcompare
  case h_2 => exact hequal

/-- A number equals nothing that is not a number. -/
theorem matchesValue_of_number?_eq_none (ha : a.IsNumber p) (hb : b.number? = none) :
    a.matchesValue b = false := by
  have hfloat {y : Binary64} (hy : (float y).number? = none) : y.isFinite = false := by
    rw [number?] at hy
    split at hy
    case isTrue => cases hy
    case isFalse h => exact eq_false_of_ne_true h
  cases ha with
  | integer a =>
    cases b with
    | integer _ => cases hb
    | float y =>
      have hround := Binary64.isFinite_ofInt (log2_natAbs_toInt_lt a)
      exact matchesValue_eq_false (Binary64.compare?_ne_some_eq hround (hfloat hb))
        (by simp [equal])
    | _ => simp [matchesValue, compare?, equal]
  | float hx =>
    cases b with
    | integer _ => cases hb
    | float y =>
      have hne := Binary64.compare?_ne_some_eq hx (hfloat hb)
      refine matchesValue_eq_false hne ?_
      rw [equal, Binary64.numericallyEqual]
      exact beq_false_of_ne hne
    | _ => simp [matchesValue, compare?, equal]

/-- Equality of numbers passes on, except that a float may equal two different integers. -/
theorem matchesValue_trans (ha : a.number? = some p) (hb : b.number? = some q)
    (hc : c.number? = some r) (hab : a.matchesValue b = true) (hbc : b.matchesValue c = true) :
    a.matchesValue c = true ↔ a.isFloat = true ∨ c.isFloat = true ∨ p = r := by
  have hsame := (rounded_of_matchesValue ha hb hab).trans (rounded_of_matchesValue hb hc hbc)
  by_cases hfloat : a.isFloat = true ∨ c.isFloat = true
  · rw [← or_assoc]
    have hp := isNumber_of_number? ha
    exact iff_of_true ((matchesValue_iff_rounded hp (isNumber_of_number? hc) hfloat).mpr hsame)
      (Or.inl hfloat)
  · rw [matchesValue_iff ha hc, ← or_assoc, or_iff_right hfloat]
    exact or_iff_left fun hblurred => hfloat hblurred.1

end Value

/-! ## Conditions -/

/-- The relation of numbers that a comparison asks for. -/
def Comparison.Relates : Comparison → ℚ → ℚ → Prop
  | eq => (· = ·)
  | neq => (· ≠ ·)
  | lt => (· < ·)
  | lte => (· ≤ ·)
  | gt => (· > ·)
  | gte => (· ≥ ·)
  | notNull => fun _ _ => True
  | member | isNull => fun _ _ => False

namespace Value

variable {a b : Value} {p q u v : ℚ}

/-- A comparison of numbers answers what the order of the values says. -/
theorem holds_iff_relates (ha : a.IsNumber p) (hb : b.IsNumber q)
    (h : a.compare? b = some (compare u v)) (comparison : Comparison) :
    comparison.holds a b = true ↔ comparison.Relates u v := by
  have hnull {c : Value} {r : ℚ} (hc : c.IsNumber r) : c.isNull = false := by
    cases hc <;> rfl
  have hordering : a.orderingUnlessNull b = some (compare u v) := by
    rw [orderingUnlessNull, hnull ha, hnull hb, ← h]
    rfl
  have hitems : b.items? = none := by
    cases hb <;> rfl
  cases comparison with
  | eq | neq => simp [Comparison.holds, Comparison.Relates, matchesValue, h]
  | lt | lte | gt | gte =>
    simp [Comparison.holds, Comparison.Relates, hordering, compare_lt_iff_lt, compare_gt_iff_gt]
  | member => simp [Comparison.holds, Comparison.Relates, hitems]
  | isNull | notNull => simp [Comparison.holds, Comparison.Relates, hnull ha]

/-- Membership in a list of values is equality with a number in it. -/
theorem holds_member_iff (ha : a.number? = some p) (items : List Value) :
    Comparison.member.holds a (.array items) = true ↔
      ∃ item ∈ items, ∃ r, item.number? = some r ∧ (p = r ∨ Blurred a item) := by
  change items.any a.matchesValue = true ↔ _
  rw [List.any_eq_true]
  refine exists_congr fun item => and_congr_right fun _ => ?_
  cases hitem : item.number? with
  | none => simp [matchesValue_of_number?_eq_none (isNumber_of_number? ha) hitem]
  | some r => simp [matchesValue_iff ha hitem]

end Value

/-- Conditions on a property that is a number answer as the number does, unless the number and the
one it is compared with are the same after rounding: then they answer as for equal numbers. -/
theorem conditions_numbers {properties : Properties} {name : String} {a b : Value} {p q : ℚ}
    (hproperty : properties.get? name = some a) (ha : a.number? = some p)
    (hb : b.number? = some q) :
    (¬a.Blurred b → a.compare? b = some (compare p q) ∧ ∀ comparison,
      (PropertyCondition.compare name comparison b).holds properties = true ↔
        comparison.Relates p q) ∧
    (a.Blurred b → p ≠ q ∧ 2 ^ 53 ≤ max |p| |q| ∧ |p - q| * 2 ^ 53 ≤ max |p| |q| ∧
      a.compare? b = some .eq ∧ ∀ comparison,
        (PropertyCondition.compare name comparison b).holds properties = true ↔
          comparison.Relates p p) ∧
    (∀ items, (PropertyCondition.compare name .member (.array items)).holds properties = true ↔
      ∃ item ∈ items, ∃ r, item.number? = some r ∧ (p = r ∨ a.Blurred item)) ∧
    ∀ c r, c.number? = some r → a.matchesValue b = true → b.matchesValue c = true →
      (a.matchesValue c = true ↔ a.isFloat = true ∨ c.isFloat = true ∨ p = r) := by
  have hholds (comparison : Comparison) (c : Value) :
      (PropertyCondition.compare name comparison c).holds properties = comparison.holds a c := by
    rw [PropertyCondition.holds, hproperty, Option.getD_some]
  have hp := Value.isNumber_of_number? ha
  have hq := Value.isNumber_of_number? hb
  simp only [hholds]
  refine ⟨fun h => ?_, fun h => ?_, Value.holds_member_iff ha,
    fun c r hc => Value.matchesValue_trans ha hb hc⟩
  · have hcompare := Value.compare?_of_not_blurred ha hb h
    exact ⟨hcompare, Value.holds_iff_relates hp hq hcompare⟩
  · obtain ⟨hne, hlarge, hnear⟩ := h.near ha hb
    have hcompare := Value.compare?_of_blurred hp hq h
    refine ⟨hne, hlarge, hnear, hcompare, Value.holds_iff_relates hp hq ?_⟩
    rw [hcompare, compare_eq_iff_eq.mpr rfl]

/-- The float `2 ^ 53`. -/
def largeFloat : Value := .float ⟨0x4340000000000000⟩

theorem number?_largeFloat : largeFloat.number? = some (2 ^ 53) := by
  have hfinite : (⟨0x4340000000000000⟩ : Binary64).isFinite = true := by decide
  have hnegative : (⟨0x4340000000000000⟩ : Binary64).isNegative = false := by decide
  have hsignificand : (⟨0x4340000000000000⟩ : Binary64).significand = (2 ^ 52, 1) := by decide
  rw [largeFloat, Value.number?, if_pos hfinite, Binary64.toRat, hnegative, hsignificand]
  norm_num

theorem number?_integer_succ : (Value.integer 9007199254740993).number? = some (2 ^ 53 + 1) := by
  have hinteger : (9007199254740993 : Int64).toInt = 9007199254740993 := by decide
  rw [Value.number?, hinteger]
  norm_num

theorem blurred_largeFloat : (Value.integer 9007199254740993).Blurred largeFloat := by
  have hround : Binary64.ofInt (9007199254740993 : Int64).toInt = ⟨0x4340000000000000⟩ := by decide
  refine ⟨Or.inr rfl, ?_, ?_⟩
  · rw [number?_integer_succ, number?_largeFloat]
    norm_num
  · rw [largeFloat, Value.rounded, Value.rounded, hround]

theorem conditions_numbers_large :
    (PropertyCondition.compare "n" .gt largeFloat).holds
      ((∅ : Properties).insert "n" (.integer 9007199254740993)) ≠ true ∧
    (Value.integer 9007199254740993).matchesValue (.integer 9007199254740992) ≠ true := by
  have hproperty : ((∅ : Properties).insert "n" (.integer 9007199254740993)).get? "n" =
      some (.integer 9007199254740993) := by
    rw [NameMap.get?_insert, if_pos rfl]
  have hnumber : (Value.integer 9007199254740992).number? = some (2 ^ 53) := by
    have hinteger : (9007199254740992 : Int64).toInt = 9007199254740992 := by decide
    rw [Value.number?, hinteger]
    norm_num
  obtain ⟨-, hblurred, -, htrans⟩ :=
    conditions_numbers hproperty number?_integer_succ number?_largeFloat
  obtain ⟨-, -, -, -, hholds⟩ := hblurred blurred_largeFloat
  refine ⟨fun h => lt_irrefl _ ((hholds .gt).mp h), fun h => ?_⟩
  obtain hfloat | hfloat | hsame := (htrans _ _ hnumber (by decide) (by decide)).mp h
  · cases hfloat
  · cases hfloat
  · norm_num at hsame

/-- An integer that is greater than a float is compared as equal to it, in a search also, and two
different integers equal the same float. -/
theorem compare?_integer_largeFloat :
    (Value.integer 9007199254740993).number? = some (2 ^ 53 + 1) ∧
    largeFloat.number? = some (2 ^ 53) ∧
    (Value.integer 9007199254740993).compare? largeFloat = some .eq ∧
    largeFloat.compare? (.integer 9007199254740993) = some .eq ∧
    Comparison.eq.holds (.integer 9007199254740993) largeFloat = true ∧
    Comparison.gt.holds (.integer 9007199254740993) largeFloat = false ∧
    Comparison.member.holds (.integer 9007199254740993) (.array [largeFloat]) = true ∧
    (Value.integer 9007199254740992).matchesValue largeFloat = true ∧
    largeFloat.matchesValue (.integer 9007199254740993) = true ∧
    (Value.integer 9007199254740992).matchesValue (.integer 9007199254740993) = false :=
  ⟨number?_integer_succ, number?_largeFloat, by decide, by decide, by decide, by decide,
    by decide, by decide, by decide, by decide⟩

end MetadataGraph

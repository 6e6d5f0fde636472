import MetadataGraph.Instance.Classification

/-!
# Values that equal themselves

Equality of content compares floats as numbers, and a NaN equals nothing. A value that holds one, at
whatever depth, is different from itself. We prove:

* `Value.equal_self`: a value equals itself unless it holds a NaN;
* `Classification.equal_self`: so does a classification.
-/

namespace MetadataGraph

/-- A double equals itself unless it is a NaN. -/
theorem Binary64.numericallyEqual_self (x : Binary64) : x.numericallyEqual x = !x.isNaN := by
  unfold numericallyEqual compare?
  cases x.isNaN <;> simp

namespace Value

mutual

/-- Whether there is a NaN in the value, at any depth. -/
def hasNaN : Value → Bool
  | float x => x.isNaN
  | array items => itemsHaveNaN items
  | map entries => entriesHaveNaN entries
  | null | boolean _ | integer _ | string _ | dateTime _ | enumeration _ _ => false

/-- Whether there is a NaN in one of the values. -/
def itemsHaveNaN : List Value → Bool
  | [] => false
  | item :: items => hasNaN item || itemsHaveNaN items

/-- Whether there is a NaN in one of the named values. -/
def entriesHaveNaN : List (String × Value) → Bool
  | [] => false
  | (_, item) :: entries => hasNaN item || entriesHaveNaN entries

end

mutual

/-- A value equals itself unless it holds a NaN. -/
theorem equal_self (value : Value) : value.equal value = !value.hasNaN := by
  match value with
  | null | boolean _ | integer _ | string _ | dateTime _ | enumeration .. =>
    simp [equal, hasNaN]
  | float x =>
    rw [equal, hasNaN, Binary64.numericallyEqual_self]
  | array items =>
    rw [equal, hasNaN, equalItems_self items]
  | map entries =>
    rw [equal, hasNaN, equalEntries_self entries]

theorem equalItems_self (items : List Value) : equalItems items items = !itemsHaveNaN items := by
  match items with
  | [] => rfl
  | item :: items =>
    rw [equalItems, itemsHaveNaN, equal_self item, equalItems_self items, Bool.not_or]

theorem equalEntries_self (entries : List (String × Value)) :
    equalEntries entries entries = !entriesHaveNaN entries := by
  match entries with
  | [] => rfl
  | (name, item) :: entries =>
    rw [equalEntries, entriesHaveNaN, equal_self item, equalEntries_self entries, Bool.not_or,
      beq_self_eq_true, Bool.true_and]

end

end Value

/-- Whether there is a NaN in one of the properties, at any depth. -/
def Properties.haveNaN (properties : Properties) : Bool := Value.entriesHaveNaN properties.entries

/-- A classification equals itself unless one of its properties holds a NaN. -/
theorem Classification.equal_self (classification : Classification) :
    classification.equal classification = !classification.properties.haveNaN := by
  rw [equal, Properties.equal, Value.equalEntries_self, decide_eq_true rfl, Bool.and_true,
    Properties.haveNaN]

end MetadataGraph

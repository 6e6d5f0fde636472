import MetadataGraph.Instance.Record
import MetadataGraph.Pattern

/-!
# Predicates

Conditions on the properties and the classifications of an instance, combined by one of three
criteria.
-/

namespace MetadataGraph

/-! ## Criteria -/

/-- How the results of several conditions are combined. -/
inductive MatchCriteria where
  /-- All must hold. -/
  | all
  /-- One must hold. -/
  | any
  /-- None may hold. -/
  | none
  deriving DecidableEq, Inhabited

/-- Combine results; without any, all hold and none holds. -/
def MatchCriteria.combine (criteria : MatchCriteria) (results : List Bool) : Bool :=
  match criteria with
  | all => results.all id
  | any => results.any id
  | none => !results.any id

/-! ## Conditions on properties -/

/-- How a property is compared with a value. -/
inductive Comparison where
  | eq
  | neq
  | lt
  | lte
  | gt
  | gte
  /-- The property is a member of the value, which is a list. -/
  | member
  | isNull
  | notNull
  deriving DecidableEq

/-- Equality of values: by comparison where they compare, by content elsewhere. -/
def Value.matchesValue (a b : Value) : Bool :=
  match a.compare? b with
  | some ordering => ordering == .eq
  | none => a.equal b

/-- The ordering of two values, if neither is null. -/
def Value.orderingUnlessNull (a b : Value) : Option Ordering :=
  if a.isNull || b.isNull then none else a.compare? b

/-- Whether a value stands in a comparison to an expected one. -/
def Comparison.holds (comparison : Comparison) (actual expected : Value) : Bool :=
  match comparison with
  | eq => actual.matchesValue expected
  | neq => !actual.matchesValue expected
  | lt => actual.orderingUnlessNull expected == some .lt
  | lte => (actual.orderingUnlessNull expected).any (· != .gt)
  | gt => actual.orderingUnlessNull expected == some .gt
  | gte => (actual.orderingUnlessNull expected).any (· != .lt)
  | member => expected.items?.any fun items => items.any actual.matchesValue
  | isNull => actual.isNull
  | notNull => !actual.isNull

/-- A condition on properties. -/
inductive PropertyCondition where
  /-- A property compares with a value. -/
  | compare (property : String) (comparison : Comparison) (value : Value)
  /-- A text or the name of an enumeration member matches a pattern. -/
  | like (property : String) (pattern : TextPattern)
  /-- Conditions combined by a criterion. -/
  | nested (criteria : MatchCriteria) (conditions : List PropertyCondition)

/-- Conditions on properties, combined by a criterion. -/
structure Predicate where
  /-- The conditions. -/
  conditions : List PropertyCondition
  /-- How they are combined. -/
  criteria : MatchCriteria

namespace PropertyCondition

mutual

/-- Whether properties fulfil the condition; a missing property is null. -/
def holds (properties : Properties) : PropertyCondition → Bool
  | compare property comparison value =>
    comparison.holds ((properties.get? property).getD .null) value
  | like property pattern =>
    ((properties.get? property).bind Value.text?).any pattern.occursIn
  | nested criteria conditions => criteria.combine (holdsEach properties conditions)

/-- Whether properties fulfil each of some conditions. -/
def holdsEach (properties : Properties) : List PropertyCondition → List Bool
  | [] => []
  | condition :: rest => condition.holds properties :: holdsEach properties rest

end

mutual

/-- Refuse a condition that cannot be meant: membership in no list, or no property. -/
def check : PropertyCondition → Outcome Unit
  | compare property comparison value =>
    if comparison = .member ∧ value.items?.isNone then
      .error (.refused (.invalidParameter (.membershipNeedsArray property)))
    else .require (!Text.isBlank property) (.invalidParameter .unnamedProperty)
  | like property _ => .require (!Text.isBlank property) (.invalidParameter .unnamedProperty)
  | nested _ conditions => checkEach conditions

/-- Refuse the first condition of a list that cannot be meant. -/
def checkEach : List PropertyCondition → Outcome Unit
  | [] => .ok ()
  | condition :: rest => do
    condition.check
    checkEach rest

end

end PropertyCondition

namespace Predicate

instance : Inhabited Predicate := ⟨⟨[], .all⟩⟩

/-- The predicate that some properties have exactly the given values. -/
def allEqual (properties : Properties) (criteria : MatchCriteria) : Predicate :=
  ⟨properties.entries.map fun entry => .compare entry.1 .eq entry.2, criteria⟩

/-- Whether properties fulfil the predicate. -/
def holds (predicate : Predicate) (properties : Properties) : Bool :=
  predicate.criteria.combine (PropertyCondition.holdsEach properties predicate.conditions)

/-- Refuse a predicate with a condition that cannot be meant. -/
def check (predicate : Predicate) : Outcome Unit := PropertyCondition.checkEach predicate.conditions

end Predicate

/-! ## Conditions on classifications -/

/-- The condition that an entity carries a classification whose properties fulfil a predicate. -/
structure ClassificationCondition where
  /-- The classification's name. -/
  name : TypeName
  /-- What its properties must fulfil. -/
  properties : Option Predicate

/-- Conditions on classifications, combined by a criterion. -/
structure ClassificationPredicate where
  /-- The conditions. -/
  conditions : List ClassificationCondition
  /-- How they are combined. -/
  criteria : MatchCriteria

namespace ClassificationCondition

/-- Whether an entity fulfils the condition. -/
def holds (condition : ClassificationCondition) (entity : Entity) : Bool :=
  (entity.classification? condition.name).any fun classification =>
    condition.properties.all (·.holds classification.properties)

/-- Refuse a condition without a name or on impossible properties. -/
def check (condition : ClassificationCondition) : Outcome Unit := do
  .require (!Text.isBlank condition.name) (.invalidParameter .unnamedClassification)
  match condition.properties with
  | none => .ok ()
  | some predicate => predicate.check

end ClassificationCondition

namespace ClassificationPredicate

/-- The predicate that an entity carries all classifications of a list. -/
def allOf (names : List TypeName) : ClassificationPredicate := ⟨names.map (⟨·, none⟩), .all⟩

/-- Whether an entity fulfils the predicate. -/
def holds (predicate : ClassificationPredicate) (entity : Entity) : Bool :=
  predicate.criteria.combine (predicate.conditions.map (·.holds entity))

/-- Refuse a predicate with a condition that cannot be meant. -/
def check (predicate : ClassificationPredicate) : Outcome Unit :=
  predicate.conditions.forM ClassificationCondition.check

end ClassificationPredicate

end MetadataGraph

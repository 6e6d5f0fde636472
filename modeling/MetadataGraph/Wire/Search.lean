import MetadataGraph.Collection.Walking
import MetadataGraph.Wire.Instance

/-!
# Wire forms of searches

The wire forms of predicates, queries and the scopes of searches and walks. Patterns are compiled
when they are decoded, so a pattern that cannot be read refuses what it is part of.
-/

namespace MetadataGraph.Wire

/-! ## Predicates -/

instance : FromWire MatchCriteria where
  decode
    | .null => pure .all
    | json => choice [("ALL", .all), ("ANY", .any), ("NONE", .none)] json

instance : FromWire Comparison where
  decode := choice [("EQ", .eq), ("NEQ", .neq), ("LT", .lt), ("LTE", .lte), ("GT", .gt),
    ("GTE", .gte), ("IN", .member), ("IS_NULL", .isNull), ("NOT_NULL", .notNull)]

instance : FromWire TextPattern where
  decode json := do accept (TextPattern.compile (← decode json))

mutual

/-- The greatest number of brackets around a part of a tree. -/
def depth : Json → Nat
  | .array items => depthOfItems items + 1
  | .object members => depthOfMembers members + 1
  | _ => 0

/-- The greatest depth of a list of trees. -/
def depthOfItems : List Json → Nat
  | [] => 0
  | json :: rest => max (depth json) (depthOfItems rest)

/-- The greatest depth of named trees. -/
def depthOfMembers : List (String × Json) → Nat
  | [] => 0
  | (_, json) :: rest => max (depth json) (depthOfMembers rest)

end

/-- The condition of a form of some depth. -/
def decodeCondition : Nat → Json → Decode PropertyCondition
  | 0, _ => malformed
  | levels + 1, json => do
    if has json "nested" then
      let inner := part json "nested"
      let conditions : List Json ← get inner "conditions"
      return .nested (← get inner "match") (← conditions.mapM (decodeCondition levels))
    if has json "like" then return .like (← get json "property") (← get json "like")
    return .compare (← get json "property") (← get json "op") (← get json "value")

instance : FromWire PropertyCondition where
  decode json := decodeCondition (depth json) json

instance : FromWire Predicate where
  decode json := do return ⟨← get json "conditions", ← get json "match"⟩

instance : FromWire ClassificationCondition where
  decode json := do return ⟨← get json "name", ← get json "properties"⟩

instance : FromWire ClassificationPredicate where
  decode json := do
    if has json "all_of" then return .allOf (← get json "all_of")
    return ⟨← get json "conditions", ← get json "match"⟩

/-! ## Queries -/

instance : FromWire SequencingOrder where
  decode := choice [("ANY", .any), ("GUID", .guid), ("CREATION_DATE_RECENT", .creationDateRecent),
    ("CREATION_DATE_OLDEST", .creationDateOldest), ("LAST_UPDATE_RECENT", .lastUpdateRecent),
    ("LAST_UPDATE_OLDEST", .lastUpdateOldest), ("PROPERTY_ASCENDING", .propertyAscending),
    ("PROPERTY_DESCENDING", .propertyDescending)]

instance : FromWire Sequencing where
  decode
    | .null => pure default
    | json => do return ⟨← get json "order", ← get json "property"⟩

instance : FromWire Page where
  decode json := do return ⟨← getD json "from" 0, ← getD json "size" Page.maxSize⟩

instance : FromWire Query where
  decode json := do
    return {
      kind := ← get json "kind"
      typeName := ← get json "type"
      subtypes := ← get json "subtypes"
      properties := ← get json "properties"
      classifications := ← get json "classifications"
      text := ← get json "text"
      statuses := ← get json "statuses"
      endpoint := ← get json "endpoint"
      sequencing := ← get json "sequencing"
      page := ← get json "page" }

instance : FromWire SearchScope where
  decode json := do
    return {
      typeName := ← get json "type"
      subtypes := ← get json "subtypes"
      statuses := ← get json "statuses"
      asOf := ← get json "as_of"
      sequencing := ← get json "sequencing"
      start := ← getD json "from" 0
      size := ← getD json "size" 0 }

instance : FromWire WalkFilter where
  decode json := do
    return {
      entityTypes := ← get json "entity_types"
      relationshipTypes := ← get json "relationship_types"
      statuses := ← get json "statuses"
      classifications := ← get json "classifications"
      asOf := ← get json "as_of" }

end MetadataGraph.Wire

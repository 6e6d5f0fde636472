import MetadataGraph.Instance.Graph
import MetadataGraph.Revision
import MetadataGraph.Wire.Form

/-!
# Wire forms of instances

The wire forms of property values, of the instances that hold them and of times.
-/

namespace MetadataGraph.Wire

/-! ## Values -/

mutual

/-- The form of a value; kinds that JSON lacks are named. -/
def encodeValue : Value → Json
  | .null => .null
  | .boolean value => .boolean value
  | .integer value => encode value
  | .float value => encode value
  | .string text => .string text
  | .array items => .array (encodeItems items)
  | .map entries => .object [("map", .object (encodeEntries entries))]
  | .dateTime millis => .object [("date", encode millis)]
  | .enumeration ordinal name => .object [("enum", .array [encode ordinal, encode name])]

/-- The forms of the values in a list. -/
def encodeItems : List Value → List Json
  | [] => []
  | value :: rest => encodeValue value :: encodeItems rest

/-- The forms of named values. -/
def encodeEntries : List (String × Value) → List (String × Json)
  | [] => []
  | (name, value) :: rest => (name, encodeValue value) :: encodeEntries rest

end

mutual

/-- The value of a form. -/
def decodeValue : Json → Decode Value
  | .null => pure .null
  | .boolean value => pure (.boolean value)
  | .integer value => pure (.integer (.ofInt value))
  | .string text => pure (.string text)
  | .array items => do return .array (← decodeItems items)
  | .object [("float", digits)] => do return .float (← decode (.object [("float", digits)]))
  | .object [("map", .object members)] => do return .ofPairs (← decodeEntries members)
  | .object [("date", millis)] => do return .dateTime (← decode millis)
  | .object [("enum", .array [ordinal, name])] => do
    return .enumeration (← decode ordinal) (← decode name)
  | _ => malformed

/-- The values of a list of forms. -/
def decodeItems : List Json → Decode (List Value)
  | [] => pure []
  | json :: rest => do
    let value ← decodeValue json
    return value :: (← decodeItems rest)

/-- The values of named forms. -/
def decodeEntries : List (String × Json) → Decode (List (String × Value))
  | [] => pure []
  | (name, json) :: rest => do
    let value ← decodeValue json
    return (name, value) :: (← decodeEntries rest)

end

instance : ToWire Value := ⟨encodeValue⟩

instance : FromWire Value := ⟨decodeValue⟩

instance : ToWire Properties where
  encode properties := .object (encodeEntries properties.entries)

instance : FromWire Properties where
  decode
    | .null => pure ∅
    | .object members => do return .ofList (← decodeEntries members)
    | _ => malformed

/-! ## Times -/

instance : ToWire Instant where
  encode time := encode time.toMicros

instance : FromWire Instant where
  decode json := do
    let micros : Int ← decode json
    return .ofMicros micros

instance : FromWire AsOf where
  decode json := do return ⟨← decode json⟩

instance : FromWire Window where
  decode json := do return ⟨← get json "from", ← get json "to"⟩

/-- A history lists its newest revision first unless it is asked otherwise. -/
instance : FromWire HistoryOrder where
  decode
    | .null => pure .backwards
    | json => choice [("FORWARDS", .forwards), ("BACKWARDS", .backwards)] json

/-! ## Headers and classifications -/

instance : ToWire Status where
  encode status := .string status.name

instance : FromWire Status where
  decode := choice ((Status.deleted :: Status.live).map fun status => (status.name, status))

instance : ToWire TypeRef where
  encode typeRef :=
    .object [("name", encode typeRef.name), ("supertypes", encode typeRef.supertypes)]

instance : FromWire TypeRef where
  decode
    | .string name => pure ⟨name, []⟩
    | json => do return ⟨← get json "name", ← get json "supertypes"⟩

instance : ToWire Provenance where
  encode
    | .cohort => .string "LOCAL"
    | .externalSource => .string "EXTERNAL"

instance : FromWire Provenance where
  decode
    | .null => pure .cohort
    | json => choice [("LOCAL", .cohort), ("EXTERNAL", .externalSource)] json

/-- The user when none is named. -/
def usualUser : UserId := "ann"

instance : ToWire Header where
  encode header :=
    .object ([("guid", encode header.guid), ("type", encode header.typeRef),
        ("home", encode header.home)]
      ++ given "home_name" header.homeName
      ++ [("provenance", encode header.provenance)]
      ++ given "replicated_by" header.replicatedBy
      ++ [("version", encode header.version), ("status", encode header.status)]
      ++ given "status_on_delete" header.statusOnDelete
      ++ [("created_by", encode header.createdBy), ("created_at", encode header.createdAt)]
      ++ given "updated_by" header.updatedBy
      ++ given "updated_at" header.updatedAt
      ++ given "re_identified_from" header.reIdentifiedFrom)

instance : FromWire Header where
  decode json := do
    return {
      guid := ← get json "guid"
      typeRef := ← get json "type"
      home := ← get json "home"
      homeName := ← get json "home_name"
      provenance := ← get json "provenance"
      replicatedBy := ← get json "replicated_by"
      version := ← getD json "version" 1
      status := ← getD json "status" .active
      statusOnDelete := ← get json "status_on_delete"
      createdBy := ← getD json "created_by" usualUser
      createdAt := ← getD json "created_at" (.ofMicros 0)
      updatedBy := ← get json "updated_by"
      updatedAt := ← get json "updated_at"
      reIdentifiedFrom := ← get json "re_identified_from" }

instance : ToWire ClassificationOrigin where
  encode
    | .assigned => .string "ASSIGNED"
    | .propagated guid => .object [("propagated", encode guid)]

instance : FromWire ClassificationOrigin where
  decode
    | .null => pure .assigned
    | .object [("propagated", guid)] => do return .propagated (← decode guid)
    | json => choice [("ASSIGNED", .assigned)] json

instance : ToWire Classification where
  encode classification :=
    .object ([("name", encode classification.name), ("origin", encode classification.origin),
        ("home", encode classification.home), ("provenance", encode classification.provenance)]
      ++ given "replicated_by" classification.replicatedBy
      ++ [("properties", encode classification.properties),
        ("created_by", encode classification.createdBy),
        ("created_at", encode classification.createdAt)]
      ++ given "updated_by" classification.updatedBy
      ++ given "updated_at" classification.updatedAt)

instance : FromWire Classification where
  decode json := do
    return {
      name := ← get json "name"
      origin := ← get json "origin"
      home := ← get json "home"
      provenance := ← get json "provenance"
      replicatedBy := ← get json "replicated_by"
      properties := ← get json "properties"
      createdBy := ← getD json "created_by" usualUser
      createdAt := ← getD json "created_at" (.ofMicros 0)
      updatedBy := ← get json "updated_by"
      updatedAt := ← get json "updated_at" }

/-! ## Instances -/

instance : ToWire Entity where
  encode entity :=
    .object [("kind", .string "entity"), ("header", encode entity.header),
      ("properties", encode entity.properties),
      ("classifications", encode entity.classifications.values)]

instance : FromWire Entity where
  decode json := do
    return .new (← get json "header") (← get json "properties") (← get json "classifications")

instance : ToWire Proxy where
  encode proxy :=
    .object [("kind", .string "proxy"), ("header", encode proxy.header),
      ("properties", encode proxy.uniqueProperties)]

instance : FromWire Proxy where
  decode json := do return ⟨← get json "header", ← get json "properties"⟩

instance : ToWire Relationship where
  encode relationship :=
    .object [("kind", .string "relationship"), ("header", encode relationship.header),
      ("properties", encode relationship.properties), ("one", encode relationship.endOne),
      ("two", encode relationship.endTwo)]

instance : FromWire Relationship where
  decode json := do
    return ⟨← get json "header", ← get json "properties", ← get json "one", ← get json "two"⟩

instance : FromWire RecordKind where
  decode := choice [("entity", .entity), ("proxy", .proxy), ("relationship", .relationship)]

instance : ToWire Record where
  encode
    | .entity entity => encode entity
    | .proxy proxy => encode proxy
    | .relationship relationship => encode relationship

instance : FromWire Record where
  decode json := do
    match ← get json "kind" with
    | RecordKind.entity => return .entity (← decode json)
    | RecordKind.proxy => return .proxy (← decode json)
    | RecordKind.relationship => return .relationship (← decode json)

instance : ToWire Graph where
  encode graph :=
    .object [("entities", encode graph.entities), ("relationships", encode graph.relationships)]

end MetadataGraph.Wire

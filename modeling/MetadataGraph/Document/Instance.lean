import MetadataGraph.Document.Form
import MetadataGraph.Instance.Graph
import MetadataGraph.Instant.Timestamp

/-!
# Documents of instances

The document forms of property values and of the instances that hold them.
-/

namespace MetadataGraph.DocumentForm

/-! ## Values -/

mutual

/-- The form of a value: the name of its kind with its content. -/
def writeValue : Value → Json
  | .null => .string "Null"
  | .boolean value => writeVariant "Boolean" value
  | .integer value => writeVariant "Integer" value
  | .float value => writeVariant "Float" value
  | .string text => writeVariant "String" text
  | .array items => .object [("Array", .array (writeItems items))]
  | .map entries => .object [("Map", .object (writeEntries entries))]
  | .dateTime millis => writeVariant "DateTime" millis
  | .enumeration ordinal name =>
    .object [("Enum", .object [("ordinal", write ordinal), ("symbolic_name", write name)])]

/-- The forms of the values in a list. -/
def writeItems : List Value → List Json
  | [] => []
  | value :: rest => writeValue value :: writeItems rest

/-- The forms of named values. -/
def writeEntries : List (String × Value) → List (String × Json)
  | [] => []
  | (name, value) :: rest => (name, writeValue value) :: writeEntries rest

end

/-- Read the content of an enumeration member. -/
def readEnumeration (room : Nat) (json : Json) : Option Value := do
  let parts ← Parts.ofJson? ["ordinal", "symbolic_name"] room json
  return .enumeration (← parts.get "ordinal") (← parts.get "symbolic_name")

mutual

/-- Read a value. -/
def readValue (room : Nat) : Json → Option Value
  | .string name => if name = "Null" then some .null else none
  | .object [(name, content)] =>
    if room ≤ 1 then none else readContent (room - 1) name content
  | _ => none

/-- Read the content of a value whose kind has a name. -/
def readContent (room : Nat) (name : String) : Json → Option Value
  | .null => if name = "Null" then some .null else none
  | .array items =>
    if name = "Array" then
      if room ≤ 1 then none else (readItems (room - 1) items).map .array
    else if name = "Enum" then readEnumeration room (.array items)
    else none
  | .object members =>
    if name = "Map" then
      if room ≤ 1 then none else (readEntries (room - 1) members).map .ofPairs
    else if name = "Enum" then readEnumeration room (.object members)
    else none
  | content =>
    if name = "Boolean" then (read room content).map .boolean
    else if name = "Integer" then (read room content).map .integer
    else if name = "Float" then (read room content).map .float
    else if name = "String" then (read room content).map .string
    else if name = "DateTime" then (read room content).map .dateTime
    else none

/-- Read the values in a list. -/
def readItems (room : Nat) : List Json → Option (List Value)
  | [] => some []
  | json :: rest => do
    let value ← readValue room json
    return value :: (← readItems room rest)

/-- Read named values. -/
def readEntries (room : Nat) : List (String × Json) → Option (List (String × Value))
  | [] => some []
  | (name, json) :: rest => do
    let value ← readValue room json
    return (name, value) :: (← readEntries room rest)

end

instance : DocumentForm Value := ⟨writeValue, readValue, none⟩

/-- Properties are a structure whose only part holds the values by name. -/
instance (priority := 2000) : DocumentForm Properties where
  write properties := .object [("inner", .object (writeEntries properties.entries))]
  read room json := do
    let parts ← Parts.ofJson? ["inner"] room json
    match Entries.find? "inner" parts.members with
    | some (.object members) =>
      let room ← enter parts.room
      return .ofList (← readEntries room members)
    | _ => none

/-! ## Headers and classifications -/

instance : DocumentForm Instant where
  write time := .string time.timestamp
  read _
    | .string text => Instant.ofTimestamp? text
    | _ => none

/-- The name of a status in documents. -/
def statusName : Status → String
  | .draft => "Draft"
  | .prepared => "Prepared"
  | .proposed => "Proposed"
  | .approved => "Approved"
  | .rejected => "Rejected"
  | .active => "Active"
  | .deprecated => "Deprecated"
  | .other => "Other"
  | .deleted => "Deleted"

instance : DocumentForm Status where
  write status := .string (statusName status)
  read := readChoice (.deleted :: Status.live) statusName

/-- The name of a provenance in documents. -/
def provenanceName : Provenance → String
  | .cohort => "Local"
  | .externalSource => "ExternalSource"

instance : DocumentForm Provenance where
  write provenance := .string (provenanceName provenance)
  read := readChoice [.cohort, .externalSource] provenanceName

instance : DocumentForm TypeRef where
  write typeRef := .object [("name", write typeRef.name), ("supertypes", write typeRef.supertypes)]
  read room json := do
    let parts ← Parts.ofJson? ["name", "supertypes"] room json
    return ⟨← parts.get "name", ← parts.get "supertypes"⟩

instance : DocumentForm Header where
  write header :=
    .object [
      ("guid", write header.guid),
      ("instance_type", write header.typeRef),
      ("home", write header.home),
      ("home_name", write header.homeName),
      ("provenance", write header.provenance),
      ("replicated_by", write header.replicatedBy),
      ("version", write header.version),
      ("status", write header.status),
      ("status_on_delete", write header.statusOnDelete),
      ("created_by", write header.createdBy),
      ("created_at", write header.createdAt),
      ("updated_by", write header.updatedBy),
      ("updated_at", write header.updatedAt),
      ("re_identified_from", write header.reIdentifiedFrom)]
  read room json := do
    let parts ← Parts.ofJson?
      ["guid", "instance_type", "home", "home_name", "provenance", "replicated_by", "version",
        "status", "status_on_delete", "created_by", "created_at", "updated_by", "updated_at",
        "re_identified_from"] room json
    return {
      guid := ← parts.get "guid"
      typeRef := ← parts.get "instance_type"
      home := ← parts.get "home"
      homeName := ← parts.get "home_name"
      provenance := ← parts.get "provenance"
      replicatedBy := ← parts.get "replicated_by"
      version := ← parts.get "version"
      status := ← parts.get "status"
      statusOnDelete := ← parts.get "status_on_delete"
      createdBy := ← parts.get "created_by"
      createdAt := ← parts.get "created_at"
      updatedBy := ← parts.get "updated_by"
      updatedAt := ← parts.get "updated_at"
      reIdentifiedFrom := ← parts.get "re_identified_from" }

instance : DocumentForm ClassificationOrigin where
  write
    | .assigned => .string "Assigned"
    | .propagated origin => .object [("Propagated", .object [("origin_guid", write origin)])]
  read room
    | .object [("Propagated", content)] => do
      let room ← enter room
      let parts ← Parts.ofJson? ["origin_guid"] room content
      return .propagated (← parts.get "origin_guid")
    | json => readChoice [.assigned] (fun _ => "Assigned") room json

instance : DocumentForm Classification where
  write classification :=
    .object [
      ("name", write classification.name),
      ("origin", write classification.origin),
      ("home", write classification.home),
      ("provenance", write classification.provenance),
      ("replicated_by", write classification.replicatedBy),
      ("properties", write classification.properties),
      ("created_by", write classification.createdBy),
      ("created_at", write classification.createdAt),
      ("updated_by", write classification.updatedBy),
      ("updated_at", write classification.updatedAt)]
  read room json := do
    let parts ← Parts.ofJson?
      ["name", "origin", "home", "provenance", "replicated_by", "properties", "created_by",
        "created_at", "updated_by", "updated_at"] room json
    return {
      name := ← parts.get "name"
      origin := ← parts.get "origin"
      home := ← parts.get "home"
      provenance := ← parts.get "provenance"
      replicatedBy := ← parts.get "replicated_by"
      properties := ← parts.get "properties"
      createdBy := ← parts.get "created_by"
      createdAt := ← parts.get "created_at"
      updatedBy := ← parts.get "updated_by"
      updatedAt := ← parts.get "updated_at" }

/-! ## Instances -/

instance : DocumentForm Entity where
  write entity :=
    .object [
      ("header", write entity.header),
      ("properties", write entity.properties),
      ("classifications", write entity.classifications)]
  read room json := do
    let parts ← Parts.ofJson? ["header", "properties", "classifications"] room json
    return ⟨← parts.get "header", ← parts.get "properties", ← parts.get "classifications"⟩

instance : DocumentForm Proxy where
  write proxy :=
    .object [("header", write proxy.header), ("unique_properties", write proxy.uniqueProperties)]
  read room json := do
    let parts ← Parts.ofJson? ["header", "unique_properties"] room json
    return ⟨← parts.get "header", ← parts.get "unique_properties"⟩

instance : DocumentForm Relationship where
  write relationship :=
    .object [
      ("header", write relationship.header),
      ("properties", write relationship.properties),
      ("entity_one_proxy", write relationship.endOne),
      ("entity_two_proxy", write relationship.endTwo)]
  read room json := do
    let parts ← Parts.ofJson?
      ["header", "properties", "entity_one_proxy", "entity_two_proxy"] room json
    return ⟨← parts.get "header", ← parts.get "properties", ← parts.get "entity_one_proxy",
      ← parts.get "entity_two_proxy"⟩

instance : DocumentForm Record where
  write
    | .entity entity => writeVariant "Entity" entity
    | .proxy proxy => writeVariant "Proxy" proxy
    | .relationship relationship => writeVariant "Relationship" relationship
  read room
    | .object [(name, content)] => do
      let room ← enter room
      if name = "Entity" then (read room content).map .entity
      else if name = "Proxy" then (read room content).map .proxy
      else if name = "Relationship" then (read room content).map .relationship
      else none
    | _ => none

instance : DocumentForm Graph where
  write graph :=
    .object [("entities", write graph.entities), ("relationships", write graph.relationships)]
  read room json := do
    let parts ← Parts.ofJson? ["entities", "relationships"] room json
    return ⟨← parts.get "entities", ← parts.get "relationships"⟩

end MetadataGraph.DocumentForm

import MetadataGraph.Search.Predicate
import MetadataGraph.Search.Sequencing

/-!
# Queries

A `Query` selects records of one kind, puts them in order and returns a page of them.
-/

namespace MetadataGraph

/-- A selection of records. -/
structure Query where
  /-- The kind of the records. -/
  kind : RecordKind
  /-- A type that the records must have. -/
  typeName : Option TypeName
  /-- Types of which the records must have one, if there are any. -/
  subtypes : List TypeName
  /-- What the properties must fulfil. -/
  properties : Option Predicate
  /-- What the classifications must fulfil. -/
  classifications : Option ClassificationPredicate
  /-- What one of the texts must match. -/
  text : Option TextPattern
  /-- The accepted statuses; none accepts all live ones. -/
  statuses : List Status
  /-- An entity that a relationship must have at an end. -/
  endpoint : Option Guid
  /-- The order of the results. -/
  sequencing : Sequencing
  /-- The part of the results to return. -/
  page : Page

namespace Query

/-- All live records of a kind. -/
def ofKind (kind : RecordKind) : Query where
  kind
  typeName := none
  subtypes := []
  properties := none
  classifications := none
  text := none
  statuses := []
  endpoint := none
  sequencing := default
  page := .everything

/-- Refuse a query that cannot be meant. -/
def check (query : Query) : Outcome Unit := do
  match query.properties with
  | none => pure ()
  | some predicate => predicate.check
  match query.classifications with
  | none => pure ()
  | some predicate =>
    .require (query.kind = .entity) (.invalidParameter .classificationsNeedEntities)
    predicate.check
  query.sequencing.check

/-- Whether a status is accepted by a list of statuses; an empty list accepts all live ones. -/
def acceptsStatus (statuses : List Status) (status : Status) : Bool :=
  if statuses.isEmpty then !status.isDeleted else statuses.contains status

/-- Whether a type is one that the query asks for. -/
def acceptsType (query : Query) (typeRef : TypeRef) : Bool :=
  query.typeName.all typeRef.isA && (query.subtypes.isEmpty || query.subtypes.any typeRef.isA)

/-- Whether a record has the entity at an end that the query asks for. -/
def acceptsEnds (query : Query) (record : Record) : Bool :=
  query.endpoint.all fun guid => record.ends?.any fun (one, two) => one = guid || two = guid

/-- Whether a record has the classifications that the query asks for. -/
def acceptsClassifications (query : Query) (record : Record) : Bool :=
  query.classifications.all fun predicate => record.entity?.any predicate.holds

/-- Whether the query selects a record. -/
def selects (query : Query) (record : Record) : Bool :=
  record.kind = query.kind
    && query.acceptsType record.header.typeRef
    && acceptsStatus query.statuses record.header.status
    && query.acceptsEnds record
    && query.properties.all (·.holds record.properties)
    && query.text.all (·.occursInAny record.properties)
    && query.acceptsClassifications record

/-- The page of the selected records, in order. -/
def apply (query : Query) (records : List Record) : List Record :=
  query.page.apply (query.sequencing.sort (records.filter query.selects))

end Query

end MetadataGraph

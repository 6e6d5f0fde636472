import MetadataGraph.Collection.Reading

/-!
# Finding

The operations that search a collection. A `SearchScope` says which instances at what time take
part and which page of the result is returned; the operation adds what they must fulfil.
-/

namespace MetadataGraph

/-- The instances that a search looks at, and the part of the result that it returns. -/
structure SearchScope where
  /-- A type that instances must have. -/
  typeName : Option TypeName
  /-- Types of which instances must have one, if there are any. -/
  subtypes : List TypeName
  /-- The accepted statuses; none accepts all live ones. -/
  statuses : List Status
  /-- The time to search at. -/
  asOf : AsOf
  /-- The order of the result. -/
  sequencing : Sequencing
  /-- The number of instances to pass over. -/
  start : Nat
  /-- The number of instances to return; 0 for the usual number. -/
  size : Nat

/-- The predicate that properties have the given values; none for no properties. -/
def Predicate.ofProperties (properties : Properties) (criteria : MatchCriteria) :
    Option Predicate :=
  if properties.isEmpty then none else some (.allEqual properties criteria)

/-- The predicate that an entity carries a classification with some property values. -/
def ClassificationPredicate.ofProperties (name : TypeName) (properties : Properties)
    (criteria : MatchCriteria) : ClassificationPredicate :=
  ⟨[⟨name, Predicate.ofProperties properties criteria⟩], .all⟩

namespace Collection

variable (collection : Collection) (call : Call)

/-- The query of the elements in a scope, if the scope can be searched. -/
def scopedQuery (α : Type) [Element α] (scope : SearchScope) (query : Query) : Outcome Query := do
  Validation.asOf scope.asOf call.now
  (scope.typeName.toList ++ scope.subtypes).forM fun name => do
    let _ ← collection.catalog.require name (Element.category α)
  let inScope : Query :=
    { query with
      typeName := scope.typeName
      subtypes := scope.subtypes
      statuses := scope.statuses
      sequencing := scope.sequencing
      page := ⟨scope.start, ← collection.pageSize scope.size⟩ }
  inScope.check
  return inScope

/-- The elements that a query finds at a time; none if there are none. -/
def answer (α : Type) [Element α] (query : Query) (asOf : AsOf) : Option (List α) :=
  nonEmpty ((collection.store.query query asOf).filterMap Element.ofRecord?)

/-- Search the elements in a scope with the conditions of a query. -/
def search (α : Type) [Element α] (scope : SearchScope) (query : Query) :
    Outcome (Option (List α)) := do
  let query ← collection.scopedQuery call α scope query
  return collection.answer α query scope.asOf

/-- The entities whose properties and classifications fulfil predicates. -/
def findEntities (properties : Option Predicate)
    (classifications : Option ClassificationPredicate) (scope : SearchScope) :
    Outcome (Option (List Entity)) := do
  Validation.userId call.user
  collection.search call Entity scope { Query.ofKind .entity with properties, classifications }

/-- The entities that carry a classification with some property values. -/
def findClassified (name : TypeName) (properties : Properties) (criteria : MatchCriteria)
    (scope : SearchScope) : Outcome (Option (List Entity)) := do
  Validation.userId call.user
  Validation.notBlank name "classificationName"
  let _ ← collection.catalog.require name .classification
  collection.search call Entity scope
    { Query.ofKind .entity with
      classifications := some (.ofProperties name properties criteria) }

/-- The relationships whose properties fulfil a predicate. -/
def findRelationships (properties : Option Predicate) (scope : SearchScope) :
    Outcome (Option (List Relationship)) := do
  Validation.userId call.user
  collection.search call Relationship scope { Query.ofKind .relationship with properties }

/-- The elements with a text among their properties that matches a pattern. -/
def findText (α : Type) [Element α] (source : String) (scope : SearchScope) :
    Outcome (Option (List α)) := do
  Validation.userId call.user
  let pattern ← TextPattern.compile source
  collection.search call α scope { Query.ofKind (Element.recordKind α) with text := some pattern }

/-- The relationships that have an entity at an end; the entity may be known by a proxy only. -/
def relationshipsOf (guid : Guid) (scope : SearchScope) :
    Outcome (Option (List Relationship)) := do
  Validation.userId call.user
  Validation.notBlank guid "entityGUID"
  Validation.asOf scope.asOf call.now
  let header ← .ofOption (.notKnown guid) (collection.find Entity guid scope.asOf).header?
  .require (!header.isDeleted) (.notKnown guid)
  let query ← collection.scopedQuery call Relationship scope (.ofKind .relationship)
  return collection.answer Relationship { query with endpoint := some guid } scope.asOf

end Collection

end MetadataGraph

import MetadataGraph.Collection.Creation
import MetadataGraph.Versioning

/-!
# Replication

The plans of the operations that keep copies of what other collections own. A copy is written as it
comes, over the copy before it, but never over an instance that the local collection owns.
-/

namespace MetadataGraph.Collection

variable (collection : Collection) (call : Call)

/-! ## Copies of instances -/

/-- Refuse a stored instance that the collection owns. -/
def requireForeign (guid : Guid) (stored : Option Header) : Outcome Unit :=
  .require (!stored.any (·.isHomedIn collection.id)) (.conflict (.ownedLocally guid collection.id))

/-- Plan to save the copy of an entity. -/
def planSaveEntity (entity : Entity) : Outcome Plan := do
  Validation.userId call.user
  Validation.referenceCopy entity.header collection.id
  let _ ← collection.catalog.require entity.header.typeName .entity
  let stored := (collection.find Entity entity.header.guid .now).found?
  collection.requireForeign entity.header.guid (stored.map (·.header))
  return ⟨[.overwrite entity], .done⟩

/-- The proxies among two that must be stored with a relationship: those whose entity is not stored
in full, each once. -/
def missingEnds (endOne endTwo : Proxy) : List Proxy :=
  let missing := [endOne, endTwo].filter fun proxy =>
    !(collection.find Entity proxy.header.guid .now).isFound
  match missing with
  | [one, two] => if one.equal two then [one] else missing
  | _ => missing

/-- Plan to save the copy of a relationship, and proxies of the entities at its ends where these
are not stored in full. -/
def planSaveRelationship (relationship : Relationship) : Outcome Plan := do
  Validation.userId call.user
  Validation.referenceCopy relationship.header collection.id
  Validation.notBlank relationship.endOneGuid "entityOneProxy.guid"
  Validation.notBlank relationship.endTwoGuid "entityTwoProxy.guid"
  let _ ← collection.catalog.require relationship.header.typeName .relationship
  let stored := (collection.find Relationship relationship.header.guid .now).found?
  collection.requireForeign relationship.header.guid (stored.map (·.header))
  let missing := collection.missingEnds relationship.endOne relationship.endTwo
  return ⟨missing.map .putProxy ++ [.overwrite relationship], .done⟩

/-- Refuse to remove the copy of an instance that has another owner or type than named, or that the
collection owns. -/
def checkCopy (header : Header) (type : TypeName) (home : CollectionId) : Outcome Unit := do
  collection.requireForeign header.guid (some header)
  .require (header.isHomedIn home) (.conflict (.ownedByOther header.guid header.home home))
  .require (header.typeName = type) (.typeMismatch type header.typeName)

/-- Plan to remove the copy of an element, or the proxy of an entity, with the relationships that
have it at an end. -/
def planPurgeCopy (α : Type) [Element α] (guid : Guid) (type : TypeName) (home : CollectionId) :
    Outcome Plan := do
  Validation.userId call.user
  Validation.notBlank guid (Element.guidName α)
  Validation.notBlank type "typeDefName"
  let header ← .ofOption (.notKnown guid) (collection.find α guid .now).header?
  collection.checkCopy header type home
  return .purge guid (Element.edges α collection.store guid)

/-! ## Copies of classifications -/

/-- The entity that the copy of a classification goes on: the one stored in full; without that the
one that came with the copy, if another collection owns it. -/
def labelled? (incoming : Entity) : Option Entity :=
  match collection.find Entity incoming.header.guid .now with
  | .found stored => some stored
  | _ => if incoming.header.isHomedIn collection.id then none else some incoming

/-- Plan to write an entity with changed classifications: the next version of an entity that the
collection owns, a copy of any other. -/
def planLabelled (current labelled : Entity) : Outcome Plan := do
  if current.header.isHomedIn collection.id then
    let next ← Versioning.update current labelled call.stamp
    return ⟨[.replace current.header.version next], .copied .applied⟩
  else return ⟨[.overwrite labelled], .copied .applied⟩

/-- Plan to put the copy of a classification on an entity. -/
def planSaveClassification (entity : Entity) (classification : Classification) :
    Outcome Plan := do
  Validation.userId call.user
  Validation.notBlank entity.header.guid "entity.guid"
  Validation.notBlank classification.name "classification.name"
  .require (classification.home ≠ collection.id)
    (.invalidParameter (.classificationOwnedLocally classification.name))
  match collection.labelled? entity with
  | none => return .nothing (.copied .unchanged)
  | some current =>
    if current.header.isDeleted then return .nothing (.copied .unchanged)
    collection.checkClassification current.header.typeName classification
    if (current.classification? classification.name).any (·.equal classification) then
      return .nothing (.copied .unchanged)
    collection.planLabelled call current (current.withClassification classification)

/-- Plan to take the copy of a classification away from an entity. -/
def planPurgeClassification (entity : Entity) (classification : Classification) :
    Outcome Plan := do
  Validation.userId call.user
  Validation.notBlank entity.header.guid "entity.guid"
  Validation.notBlank classification.name "classification.name"
  match (collection.find Entity entity.header.guid .now).found? with
  | none => return .nothing (.copied .unchanged)
  | some current =>
    if !current.isClassifiedAs classification.name || current.header.isDeleted then
      return .nothing (.copied .unchanged)
    collection.planLabelled call current (current.withoutClassification classification.name)

end MetadataGraph.Collection

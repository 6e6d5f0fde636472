import MetadataGraph.Collection.Creation
import MetadataGraph.Versioning

/-!
# Labelling

The plans of the operations that put classifications on entities, change them and take them away.
Any live entity stored in full can be labelled, whoever owns it.
-/

namespace MetadataGraph.Collection

variable (collection : Collection) (call : Call) (guid : Guid) (name : TypeName)

/-- The current entity that a caller may label: known in full and live. -/
def forLabelling : Outcome Entity := do
  Validation.userId call.user
  Validation.notBlank guid "entityGUID"
  let current ← collection.require Entity guid
  current.header.requireLive
  return current

/-- Plan to write the next version of an entity with changed classifications. -/
def planRelabelled (current relabelled : Entity) : Outcome Plan := do
  return .replace current (← Versioning.update current relabelled call.stamp)

/-- A new classification of the collection, or of an external source that it replicates. -/
def newClassification (origin : ClassificationOrigin) (properties : Properties) :
    Option CollectionId → Classification
  | none => { Classification.new name collection.id call.stamp with origin, properties }
  | some source =>
    { Classification.new name source call.stamp with
      origin
      properties
      provenance := .externalSource
      replicatedBy := some collection.id }

/-- Plan to put a classification on an entity that does not carry it yet. -/
def planClassify (source : Option CollectionId) (origin : ClassificationOrigin)
    (properties : Properties) : Outcome Plan := do
  Validation.notBlank name "classificationName"
  let current ← collection.forLabelling call guid
  let classification := collection.newClassification call name origin properties source
  collection.checkClassification current.header.typeName classification
  .require (!current.isClassifiedAs name) (.classification (.alreadyClassified guid name))
  planRelabelled call current (current.withClassification classification)

/-- Plan to take a classification away from an entity. -/
def planDeclassify : Outcome Plan := do
  Validation.notBlank name "classificationName"
  let current ← collection.forLabelling call guid
  .require (current.isClassifiedAs name) (.classification (.notClassified guid name))
  planRelabelled call current (current.withoutClassification name)

/-- Plan to replace the properties of a classification on an entity. -/
def planReclassify (properties : Properties) : Outcome Plan := do
  Validation.notBlank name "classificationName"
  let current ← collection.forLabelling call guid
  let classification ← .ofOption (.classification (.notClassified guid name))
    (current.classification? name)
  collection.catalog.checkProperties name properties
  planRelabelled call current
    (current.withClassification (classification.updated properties call.stamp))

end MetadataGraph.Collection

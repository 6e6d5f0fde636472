import MetadataGraph.Collection.Plan
import MetadataGraph.Versioning

/-!
# Changes

The plans of the operations that change, delete, restore and remove an element. Every accepted
change writes the next version under the guard that the version it was made from is still stored.
-/

namespace MetadataGraph

/-- A change of one element. -/
inductive Change where
  /-- Give it another live status. -/
  | status (status : Status)
  /-- Replace its properties. -/
  | properties (properties : Properties)
  /-- Bring back the content of the version before. -/
  | undo
  /-- Delete it, so that it can be restored. -/
  | delete
  /-- Restore it in the status it was deleted in. -/
  | restore
  /-- Remove every version of it once it is deleted. -/
  | purge
  /-- Give it another identity. -/
  | reIdentify (newGuid : Guid)
  /-- Give it another type than the one it has. -/
  | reType (currentType newType : TypeName)
  /-- Give it another owner than the one it has. -/
  | reHome (currentHome newHome : CollectionId) (newHomeName : String)
  deriving DecidableEq

/-- What a type asks of an element beyond its properties and its status. -/
class TypedElement (α : Type) extends Element α where
  /-- The parts of an element must fit a type. -/
  checkParts : TypeCatalog → TypeName → α → Outcome Unit

/-- The classifications of an entity must apply to its type. -/
instance : TypedElement Entity where
  checkParts catalog type entity :=
    entity.classifications.keys.forM (catalog.checkClassification · type)

/-- The entities at the ends of a relationship must be of the types that its type asks for. -/
instance : TypedElement Relationship where
  checkParts catalog type relationship :=
    catalog.checkEnds type relationship.endOne.header.typeName relationship.endTwo.header.typeName

instance (kind : ElementKind) : TypedElement kind.Carrier :=
  match kind with
  | .entity => inferInstanceAs (TypedElement Entity)
  | .relationship => inferInstanceAs (TypedElement Relationship)

namespace Collection

open Element Instance

variable (α : Type) [TypedElement α] (collection : Collection) (call : Call) (guid : Guid)

/-- The current element that a caller may change: known, live and owned or replicated here. -/
def forUpdate : Outcome α := do
  Validation.userId call.user
  Validation.notBlank guid (guidName α)
  let current ← collection.require α guid
  (header current).requireLive
  Validation.canUpdate (header current) collection.id
  return current

/-- The revision before the current one. -/
def previous : Outcome α :=
  let elements := (collection.store.history guid .all).filterMap fun revision =>
    ofRecord? revision.data
  .ofOption (.invalidState (.noPreviousVersion guid)) elements.reverse[1]?

/-- Plan to give an element another live status. -/
def planStatus (status : Status) : Outcome Plan := do
  .require (!status.isDeleted) (.invalidParameter (deletedByStatus α))
  let current ← collection.forUpdate α call guid
  collection.catalog.checkStatus (typeName current) status
  return .replace current (← Versioning.changeStatus current status call.stamp)

/-- Plan to replace the properties of an element. -/
def planProperties (properties : Properties) : Outcome Plan := do
  let current ← collection.forUpdate α call guid
  collection.catalog.checkProperties (typeName current) properties
  return .replace current
    (← Versioning.update current (setProperties current properties) call.stamp)

/-- Plan to bring back the content of the version before as a new version. -/
def planUndo : Outcome Plan := do
  let current ← collection.forUpdate α call guid
  let previous ← collection.previous α guid
  (header previous).requireLive
  return .replace current (← Versioning.nextVersion current previous call.stamp)

/-- Plan to delete an element. -/
def planDelete : Outcome Plan := do
  let current ← collection.forUpdate α call guid
  return .replace current (← Versioning.softDelete current call.stamp)

/-- Plan to restore a deleted element. -/
def planRestore : Outcome Plan := do
  Validation.userId call.user
  Validation.notBlank guid (deletedGuidName α)
  let current ← collection.require α guid
  Validation.canUpdate (header current) collection.id
  return .replace current (← Versioning.restore current call.stamp)

/-- Plan to remove a deleted element and the relationships that have it at an end. -/
def planPurge : Outcome Plan := do
  Validation.userId call.user
  Validation.notBlank guid (deletedGuidName α)
  let current ← collection.require α guid
  (header current).requireDeleted
  Validation.canUpdate (header current) collection.id
  return .purge guid (edges α collection.store guid)

/-- The next version of a relationship with a proxy put at every end where an entity stands. -/
def moveEdge (entity : Guid) (proxy : Proxy) (relationship : Relationship) :
    Outcome Statement := do
  let moved := relationship.replaceEnds entity proxy
  let next ← Versioning.nextVersion relationship moved call.stamp
  return .replace relationship.header.version next

/-- Plan to give an element another identity: the old one is deleted, the new one created, and the
relationships at the old one are moved to the new one, all in one transaction. -/
def planReIdentify (newGuid : Guid) : Outcome Plan := do
  Validation.notBlank newGuid (newGuidName α)
  .require (newGuid ≠ guid) (.invalidParameter (.sameGuid (newGuidName α) guid))
  let current ← collection.forUpdate α call guid
  let retired ← Versioning.softDelete current call.stamp
  let renamed := Versioning.rekey (← Versioning.nextVersion current current call.stamp) newGuid
  let unique := collection.catalog.uniqueProperties (typeName current)
  let proxy : Proxy := ⟨header renamed, (properties renamed).project unique⟩
  let moves ← (edges α collection.store guid).mapM (moveEdge call guid proxy)
  return ⟨moves ++ [.replace (version current) (toRecord retired), .create (toRecord renamed)],
    .written (toRecord renamed)⟩

/-- Plan to give an element another type, which it must fit as it is. -/
def planReType (currentType newType : TypeName) : Outcome Plan := do
  Validation.notBlank currentType "currentTypeName"
  Validation.notBlank newType "newTypeName"
  let current ← collection.forUpdate α call guid
  .require (typeName current = currentType) (.typeMismatch currentType (typeName current))
  let typeRef ← collection.catalog.typeRef newType (category α)
  collection.catalog.checkProperties newType (properties current)
  collection.catalog.checkStatus newType (header current).status
  TypedElement.checkParts collection.catalog newType current
  return .replace current
    (← Versioning.update current (setHeader current { header current with typeRef }) call.stamp)

/-- Plan to give an element another owner. -/
def planReHome (currentHome newHome : CollectionId) (newHomeName : String) : Outcome Plan := do
  Validation.userId call.user
  Validation.notBlank guid (guidName α)
  Validation.notBlank newHome "newHomeMetadataCollectionId"
  let current ← collection.require α guid
  (header current).requireLive
  .require ((header current).home = currentHome)
    (.invalidParameter (.notHomedIn guid (header current).home currentHome))
  Validation.newHome (header current) newHome
  let moved := setHeader current
    { header current with
      home := newHome
      homeName := some newHomeName
      provenance := .cohort
      replicatedBy := none }
  return .replace current (← Versioning.update current moved call.stamp)

/-- Plan a change of an element. -/
def planChange : Change → Outcome Plan
  | .status status => collection.planStatus α call guid status
  | .properties properties => collection.planProperties α call guid properties
  | .undo => collection.planUndo α call guid
  | .delete => collection.planDelete α call guid
  | .restore => collection.planRestore α call guid
  | .purge => collection.planPurge α call guid
  | .reIdentify newGuid => collection.planReIdentify α call guid newGuid
  | .reType currentType newType => collection.planReType α call guid currentType newType
  | .reHome currentHome newHome newHomeName =>
    collection.planReHome α call guid currentHome newHome newHomeName

end Collection

end MetadataGraph

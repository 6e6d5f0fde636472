import MetadataGraph.Error
import MetadataGraph.Lookup
import MetadataGraph.Store

/-!
# Elements

Entities and relationships are the elements of a collection's graph: the instances that callers
create, change and delete. Both go through the same life; the class `Element` holds what differs.
Main statements: the laws that a record holds exactly the element it was made from.
-/

namespace MetadataGraph

/-- The kinds of instances that callers of a collection change. -/
class Element (α : Type) extends Instance α where
  /-- The element as a record. -/
  toRecord : α → Record
  /-- The element that a record holds. -/
  ofRecord? : Record → Option α
  /-- What a stored record says of an element. -/
  lookup : Option Record → Lookup α
  /-- The kind of the elements' records. -/
  recordKind : RecordKind
  /-- The category of the elements' types. -/
  category : TypeCategory
  /-- The name that messages give to the identity of an element. -/
  guidName : String
  /-- The name that messages give to the identity of a deleted element. -/
  deletedGuidName : String
  /-- The name that messages give to the new identity of an element. -/
  newGuidName : String
  /-- The fault of a status change that would delete an element. -/
  deletedByStatus : ParameterFault
  /-- The relationships that have the element at an end now. -/
  edges : Store → Guid → List Relationship
  /-- A record holds the element that it was made from, and no other. -/
  ofRecord?_eq_some_iff : ∀ record a, ofRecord? record = some a ↔ record = toRecord a
  /-- An element is found where its record is stored, and only there. -/
  lookup_eq_found_iff : ∀ stored a, lookup stored = .found a ↔ stored = some (toRecord a)
  /-- The record has the element's header. -/
  header_toRecord : ∀ a, (toRecord a).header = header a

attribute [simp] Element.header_toRecord

/-- The relationships in a store that have an entity at an end now. -/
def Store.relationshipsAt (store : Store) (guid : Guid) : List Relationship :=
  (store.traverse guid .now).map (·.relationship)

instance : Element Entity where
  toRecord := .entity
  ofRecord? := Record.entity?
  lookup := .ofEntityRecord
  recordKind := .entity
  category := .entity
  guidName := "entityGUID"
  deletedGuidName := "deletedEntityGUID"
  newGuidName := "newEntityGUID"
  deletedByStatus := .entityDeletedByStatus
  edges := Store.relationshipsAt
  ofRecord?_eq_some_iff record entity := by cases record <;> simp [Record.entity?]
  lookup_eq_found_iff stored entity := by
    rcases stored with _ | _ | _ | _ <;> simp [Lookup.ofEntityRecord]
  header_toRecord _ := rfl

instance : Element Relationship where
  toRecord := .relationship
  ofRecord? := Record.relationship?
  lookup := .ofRelationshipRecord
  recordKind := .relationship
  category := .relationship
  guidName := "relationshipGUID"
  deletedGuidName := "deletedRelationshipGUID"
  newGuidName := "newRelationshipGUID"
  deletedByStatus := .relationshipDeletedByStatus
  edges _ _ := []
  ofRecord?_eq_some_iff record relationship := by cases record <;> simp [Record.relationship?]
  lookup_eq_found_iff stored relationship := by
    rcases stored with _ | _ | _ | _ <;> simp [Lookup.ofRelationshipRecord]
  header_toRecord _ := rfl

/-- The two kinds of elements. -/
inductive ElementKind where
  | entity
  | relationship
  deriving DecidableEq

/-- The type of the elements of a kind. -/
abbrev ElementKind.Carrier : ElementKind → Type
  | entity => Entity
  | relationship => Relationship

instance (kind : ElementKind) : Element kind.Carrier :=
  match kind with
  | .entity => inferInstanceAs (Element Entity)
  | .relationship => inferInstanceAs (Element Relationship)

end MetadataGraph

import MetadataGraph.Error
import MetadataGraph.Instance.Record
import MetadataGraph.Text.Blank

/-!
# Sequencing and paging

The order in which results are listed and the part of the list that is returned. Every order but
the arbitrary one ends in a comparison of identities, so that the list does not depend on how it
was found.
-/

namespace MetadataGraph

/-- What results are ordered by. -/
inductive SequencingOrder where
  /-- By nothing: they stay as they are. -/
  | any
  /-- By identity. -/
  | guid
  /-- By creation, latest first. -/
  | creationDateRecent
  /-- By creation, earliest first. -/
  | creationDateOldest
  /-- By the last change, latest first. -/
  | lastUpdateRecent
  /-- By the last change, earliest first. -/
  | lastUpdateOldest
  /-- By a property, smallest first. -/
  | propertyAscending
  /-- By a property, largest first. -/
  | propertyDescending
  deriving DecidableEq, Inhabited

/-- An order of results and the property it may need. -/
structure Sequencing where
  /-- What results are ordered by. -/
  order : SequencingOrder
  /-- The property for the orders by property. -/
  property : Option String
  deriving DecidableEq, Inhabited

namespace SequencingOrder

/-- Whether results are ordered by a property. -/
def needsProperty (order : SequencingOrder) : Bool :=
  order = propertyAscending || order = propertyDescending

end SequencingOrder

/-- Compare two property values, of which one may be missing: that one comes last, whatever the
direction; `descending` reverses the order of the others. -/
def compareOptional (descending : Bool) : Option Value → Option Value → Ordering
  | none, none => .eq
  | none, some _ => .gt
  | some _, none => .lt
  | some a, some b =>
    if descending then (a.sequenceCompare b).swap else a.sequenceCompare b

namespace Sequencing

/-- Refuse an order by property without a property. -/
def check (sequencing : Sequencing) : Outcome Unit :=
  .require (!sequencing.order.needsProperty || !sequencing.property.all Text.isBlank)
    (.invalidParameter .noSequencingProperty)

/-- Compare by the chosen key alone. -/
def compareKeys (sequencing : Sequencing) (a b : Record) : Ordering :=
  let name := sequencing.property.getD ""
  match sequencing.order with
  | .any | .guid => .eq
  | .creationDateRecent => compare b.header.createdAt a.header.createdAt
  | .creationDateOldest => compare a.header.createdAt b.header.createdAt
  | .lastUpdateRecent => compare b.header.lastChangedAt a.header.lastChangedAt
  | .lastUpdateOldest => compare a.header.lastChangedAt b.header.lastChangedAt
  | .propertyAscending => compareOptional false (a.properties.get? name) (b.properties.get? name)
  | .propertyDescending => compareOptional true (a.properties.get? name) (b.properties.get? name)

/-- Compare by the chosen key, and by identity where that is the same. -/
def compareRecords (sequencing : Sequencing) (a b : Record) : Ordering :=
  (sequencing.compareKeys a b).then (compare a.guid b.guid)

/-- Items in the chosen order of the records they stand for; items that compare as equal stay as
they were. -/
def sortBy {α : Type} (sequencing : Sequencing) (view : α → Record) (items : List α) : List α :=
  if sequencing.order = .any then items
  else items.mergeSort fun a b => sequencing.compareRecords (view a) (view b) != .gt

/-- The records in the chosen order. -/
def sort (sequencing : Sequencing) (records : List Record) : List Record :=
  sequencing.sortBy id records

end Sequencing

/-- The part of a list of results to return. -/
structure Page where
  /-- The number of results to pass over. -/
  start : Nat
  /-- The number of results to return at most. -/
  size : Nat
  deriving DecidableEq

namespace Page

/-- The largest size a page can have. -/
def maxSize : Nat := UInt64.size - 1

/-- The page of everything. -/
def everything : Page := ⟨0, maxSize⟩

/-- The items on the page. -/
def apply {α : Type} (page : Page) (items : List α) : List α :=
  (items.drop page.start).take page.size

end Page

end MetadataGraph

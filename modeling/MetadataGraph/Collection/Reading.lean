import MetadataGraph.Collection

/-!
# Reading

The operations that read one instance: the instance itself now or at a time, its history, and for
an entity its summary, its classifications and its proxy. A deleted instance counts as not known
except where that is said.
-/

namespace MetadataGraph

/-- What is known of an entity without its properties. -/
structure EntitySummary where
  /-- The entity's header. -/
  header : Header
  /-- Its classifications, in the order of names. -/
  classifications : List Classification
  /-- Whether only a proxy is stored. -/
  isProxy : Bool
  deriving DecidableEq

/-- The items of a list, none if it is empty. -/
def nonEmpty {α : Type} (items : List α) : Option (List α) :=
  if items.isEmpty then none else some items

namespace Collection

variable (collection : Collection) (call : Call) (guid : Guid)

section Elements

variable (α : Type) [Element α]

/-- The current element of an identity, deleted or not, if there is one. -/
def known? : Outcome (Option α) := do
  Validation.userId call.user
  Validation.notBlank guid "guid"
  return (collection.find α guid .now).found?

/-- The element of an identity at a time, which must be live then. -/
def detail (asOf : AsOf) : Outcome α := do
  Validation.userId call.user
  Validation.notBlank guid "guid"
  Validation.asOf asOf call.now
  let element ← (collection.find α guid asOf).require guid
  .require (!(Instance.header element).isDeleted) (.notKnown guid)
  return element

/-- A page of the revisions of an element within a window. -/
def history (window : Window) (order : HistoryOrder) (start size : Nat) :
    Outcome (Option (List α)) := do
  Validation.userId call.user
  Validation.notBlank guid "guid"
  Validation.window window
  let size ← collection.pageSize size
  let items := (collection.store.history guid window).filterMap fun revision =>
    Element.ofRecord? revision.data
  if items.isEmpty then
    .require (!(collection.store.history guid .all).isEmpty) (.notKnown guid)
  let listed := match order with
    | .forwards => items
    | .backwards => items.reverse
  return nonEmpty (Page.apply ⟨start, size⟩ listed)

end Elements

/-- The summary of an entity, which may be known by a proxy only. -/
def summary : Outcome EntitySummary := do
  Validation.userId call.user
  Validation.notBlank guid "guid"
  let summary ← match collection.find Entity guid .now with
    | .found entity => .ok ⟨entity.header, entity.classifications.values, false⟩
    | .proxyOnly proxy => .ok ⟨proxy.header, [], true⟩
    | .notFound => .error (.refused (.notKnown guid))
  .require (!summary.header.isDeleted) (.notKnown guid)
  return summary

/-- The classifications of an entity, deleted or not, that the collection owns. -/
def homeClassifications : Outcome (Option (List Classification)) := do
  Validation.userId call.user
  Validation.notBlank guid "entityGUID"
  match collection.find Entity guid .now with
  | .found entity =>
    return nonEmpty (entity.classifications.values.filter (·.home = collection.id))
  | .proxyOnly _ => return none
  | .notFound => .error (.refused (.notKnown guid))

/-- The proxy of an entity, deleted or not. -/
def resolveProxy : Outcome Proxy := do
  Validation.userId call.user
  Validation.notBlank guid "entityGUID"
  .ofOption (.notKnown guid) (collection.proxy? guid)

end Collection

end MetadataGraph

import MetadataGraph.Collection.Element
import MetadataGraph.Proofs.Store.Coherent

/-!
# Records of elements

An element and its record determine each other, and whichever kind the element is of, its record is
of that kind and has the identity and the properties of the element. We prove:

* `toRecord_injective`: a record tells which element it holds;
* `ElementKind.exists_toRecord`: a record of the kind of some elements holds one of them.
-/

namespace MetadataGraph

namespace Element

variable {α : Type} [Element α]

theorem ofRecord?_toRecord (element : α) : ofRecord? (toRecord element) = some element :=
  (ofRecord?_eq_some_iff (toRecord element) element).mpr rfl

/-- A record tells which element it holds. -/
theorem toRecord_injective : Function.Injective (toRecord (α := α)) := by
  intro element other hsame
  refine Option.some.inj ?_
  rw [← ofRecord?_toRecord element, hsame, ofRecord?_toRecord]

theorem guid_toRecord (element : α) : (toRecord element).guid = Instance.guid element :=
  congrArg Header.guid (header_toRecord element)

end Element

/-- The element that a read sees under an identity has that identity. -/
theorem Store.Coherent.element_guid_of_read {store : Store} (h : store.Coherent) {α : Type}
    [Element α] {guid : Guid} {asOf : AsOf} {element : α}
    (hread : store.read guid asOf = some (Element.toRecord element)) :
    Instance.guid element = guid :=
  (Element.guid_toRecord element).symm.trans (h.guid_of_read hread)

namespace ElementKind

variable {kind : ElementKind}

theorem kind_toRecord (element : kind.Carrier) :
    (Element.toRecord element).kind = Element.recordKind kind.Carrier := by
  cases kind <;> rfl

theorem properties_toRecord (element : kind.Carrier) :
    (Element.toRecord element).properties = Instance.properties element := by
  cases kind <;> rfl

/-- A record of the kind of some elements holds one of them. -/
theorem exists_toRecord {record : Record} (h : record.kind = Element.recordKind kind.Carrier) :
    ∃ element : kind.Carrier, record = Element.toRecord element := by
  cases kind with
  | entity =>
    cases record with
    | entity entity => exact ⟨entity, rfl⟩
    | proxy | relationship => cases h
  | relationship =>
    cases record with
    | relationship relationship => exact ⟨relationship, rfl⟩
    | entity | proxy => cases h

end ElementKind

end MetadataGraph

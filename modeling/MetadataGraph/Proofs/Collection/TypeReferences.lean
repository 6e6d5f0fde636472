import MetadataGraph.Proofs.Catalog
import MetadataGraph.Proofs.Collection.StatusInvariant

/-!
# Where the types of entities come from

The header of an entity names its type and the types above it. The catalog gives these names when
the entity is created or gets another type, and an undo brings earlier ones back; the entity of a
copy has those that are handed over with it. We prove:

* `Edits.typeRef_cases`: where an edited element has its type from;
* `typedBy_after`: an event gives types to entities only as `Covers` lists;
* `typedBy_run`: whatever is stored after a run, its type was given by the catalog at some moment of
  the run, or handed over.
-/

namespace MetadataGraph

open Element Instance

/-- A relation of identities and type references holds of a record, if this is an entity in full. -/
def Record.TypedBy (typing : Guid → TypeRef → Prop) : Record → Prop
  | entity e => typing e.header.guid e.header.typeRef
  | _ => True

namespace Collection

variable {collection : Collection} {call : Call} {fresh guid : Guid} {operation : Operation}
  {statements : List Statement} {typing : Guid → TypeRef → Prop}

/-- The relation holds of all that an event may bring. -/
structure Covers (collection : Collection) (typing : Guid → TypeRef → Prop) (event : Event) :
    Prop where
  /-- The catalog may give a type reference to any entity. -/
  given : ∀ guid typeRef, collection.catalog.typeRef typeRef.name .entity = .ok typeRef →
    typing guid typeRef
  /-- An entity may be handed over. -/
  supplied : ∀ record ∈ event.supplied, record.TypedBy typing
  /-- An entity may take its type along to another identity. -/
  renamed : ∀ call fresh guid newGuid typeRef,
    event = .operate call fresh (.change .entity guid (.reIdentify newGuid)) →
      typing guid typeRef → typing newGuid typeRef

/-- An edited element has the type of the current one, or of the version before, or one that the
catalog gives. -/
theorem Edits.typeRef_cases {α : Type} [TypedElement α] {current edited : α} {change : Change}
    (h : collection.Edits guid current change edited) :
    (header edited).typeRef = (header current).typeRef ∨
      collection.previous α guid = .ok edited ∨
        collection.catalog.typeRef (header edited).typeRef.name (category α) =
          .ok (header edited).typeRef := by
  cases h with
  | properties =>
    rw [header_setProperties]
    exact Or.inl rfl
  | status | delete | restore | reHome =>
    rw [header_setHeader]
    exact Or.inl rfl
  | undo previous hlive hprevious hformer => exact Or.inr (Or.inl hprevious)
  | reType currentType newType typeRef hlive hcurrent htype =>
    rw [header_setHeader]
    refine Or.inr (Or.inr ?_)
    rwa [(TypeCatalog.typeRef_eq_ok htype).1]

/-- A new header has the type reference that it is made with. -/
theorem typeRef_newHeader (collection : Collection) (call : Call) (fresh : Guid) (typeRef : TypeRef)
    (status : Status) (source : Option ExternalSource) :
    (collection.newHeader call fresh typeRef status source).typeRef = typeRef := by
  cases source <;> rfl

/-- All that an operation plans to write is typed by a relation that covers it, if all revisions
are. -/
theorem typedBy_of_planned (hcoherent : collection.store.Coherent)
    (hstore : collection.store.AllRevisions (·.TypedBy typing))
    (hcovers : collection.Covers typing (.operate call fresh operation))
    (h : collection.Planned call fresh operation statements) {record : Record} {guard : Guard}
    (hmem : .put record guard ∈ statements) : record.TypedBy typing := by
  -- relationships and proxies have no type to account for
  cases h with
  | nothing => cases hmem
  | addEntity entity typeRef hoperation hstatus htype =>
    cases List.mem_singleton.mp hmem
    show typing (collection.newHeader ..).guid (collection.newHeader ..).typeRef
    rw [typeRef_newHeader]
    refine hcovers.given _ typeRef ?_
    rwa [(TypeCatalog.typeRef_eq_ok htype).1]
  | addRelationship | addProxy =>
    cases List.mem_singleton.mp hmem
    trivial
  | change kind guid change current edited next hoperation hlatest hedits hnext =>
    cases List.mem_singleton.mp hmem
    cases kind with
    | relationship => trivial
    | entity =>
      obtain ⟨hsame, -, rfl⟩ := Versioning.nextVersion_eq_ok_iff.mp hnext
      show typing edited.header.guid edited.header.typeRef
      have hcurrent : typing current.header.guid current.header.typeRef := hstore.of_latest hlatest
      have hguid : edited.header.guid = current.header.guid := hsame.symm
      rcases hedits.typeRef_cases with htype | hprevious | htype
      · have hkept : edited.header.typeRef = current.header.typeRef := htype
        rwa [hguid, hkept]
      · obtain ⟨revision, hrevision, hdata⟩ := exists_mem_chain_of_previous hprevious
        have htyped := hstore guid revision hrevision
        rwa [hdata] at htyped
      · exact hcovers.given _ _ htype
  | purge | purgeCopy => exact absurd hmem Plan.put_not_mem_purge
  | reIdentify kind guid newGuid current hoperation hne hlatest hlive =>
    cases kind with
    | relationship =>
      rcases List.mem_append.mp hmem with hmem | hmem
      · rcases mem_moves_iff.mp hmem with ⟨relationship, -, hput⟩ | hput <;> cases hput <;> trivial
      · cases List.mem_singleton.mp hmem
        trivial
    | entity =>
      have hcurrent : typing current.header.guid current.header.typeRef := hstore.of_latest hlatest
      rcases List.mem_append.mp hmem with hmem | hmem
      · rcases mem_moves_iff.mp hmem with ⟨relationship, -, hput⟩ | hput
        · cases hput
          trivial
        · cases hput
          exact hcurrent
      · cases List.mem_singleton.mp hmem
        subst hoperation
        have hguid : current.header.guid = guid := hcoherent.guid_of_read hlatest
        exact hcovers.renamed call fresh guid newGuid _ rfl (hguid ▸ hcurrent)
  | relabel guid current labelled next hcurrent hheader hnext hlive =>
    cases List.mem_singleton.mp hmem
    obtain ⟨-, -, rfl⟩ := Versioning.nextVersion_eq_ok_iff.mp hnext
    show typing labelled.header.guid labelled.header.typeRef
    rw [hheader]
    exact hcurrent.elim hstore.of_latest (hcovers.supplied (.entity current))
  | relabelCopy guid current labelled hlifecycle hcurrent hheader =>
    cases List.mem_singleton.mp hmem
    show typing labelled.header.guid labelled.header.typeRef
    rw [hheader]
    exact hcurrent.elim hstore.of_latest (hcovers.supplied (.entity current))
  | saveEntity entity hoperation =>
    cases List.mem_singleton.mp hmem
    subst hoperation
    exact hcovers.supplied (.entity entity) (List.mem_singleton_self _)
  | saveRelationship relationship hoperation =>
    rcases List.mem_append.mp hmem with hmem | hmem
    · obtain ⟨proxy, -, hput⟩ := List.mem_map.mp hmem
      cases hput
      trivial
    · cases List.mem_singleton.mp hmem
      trivial

/-! ## Runs -/

/-- An event keeps all revisions typed by a relation that covers it. -/
theorem typedBy_after (hcoherent : collection.store.Coherent)
    (hstore : collection.store.AllRevisions (·.TypedBy typing)) {event : Event}
    (hcovers : collection.Covers typing event) :
    (collection.after event).store.AllRevisions (·.TypedBy typing) := by
  rcases collection.planned_of_after event with
    hsame | ⟨call, fresh, operation, statements, reply, receipt, rfl, -, hplanned, hsubmit⟩
  · rwa [hsame]
  · obtain ⟨-, hnext, -⟩ := Store.submit_eq_ok_iff.mp hsubmit
    rw [← hnext]
    exact hstore.carriedOut
      (fun record guard hmem => typedBy_of_planned hcoherent hstore hcovers hplanned hmem) call.now

/-- Callers have handed over an entity with a type reference in a run, under an identity or under
one that it was re-identified from. -/
inductive HandedOver (events : List Event) (typeRef : TypeRef) : Guid → Prop
  | copy (event : Event) (entity : Entity) (hevent : event ∈ events)
      (hentity : .entity entity ∈ event.supplied) (htype : entity.header.typeRef = typeRef) :
      HandedOver events typeRef entity.header.guid
  | reIdentified (call : Call) (fresh guid newGuid : Guid)
      (hevent : .operate call fresh (.change .entity guid (.reIdentify newGuid)) ∈ events)
      (h : HandedOver events typeRef guid) : HandedOver events typeRef newGuid

/-- The catalog gives a type reference to entities at some moment of a run. -/
def GivesType (collection : Collection) (events : List Event) (typeRef : TypeRef) : Prop :=
  ∃ past, past <+: events ∧
    (collection.run past).catalog.typeRef typeRef.name .entity = .ok typeRef

/-- After a run every revision of an entity has a type that the catalog gave at some moment of the
run, or that was handed over. -/
theorem typedBy_run (config : CollectionConfig) (catalog : TypeCatalog) (events : List Event) :
    let start : Collection := ⟨config, catalog, .empty⟩
    (start.run events).store.AllRevisions
      (·.TypedBy fun guid typeRef => HandedOver events typeRef guid ∨
        start.GivesType events typeRef) := by
  intro start
  -- by induction on the run up to a moment, with the whole run in the relation
  suffices h : ∀ past, past <+: events → (start.run past).store.AllRevisions
      (·.TypedBy fun guid typeRef => HandedOver events typeRef guid ∨
        start.GivesType events typeRef) from h events (List.prefix_refl events)
  intro past hpast
  induction past using List.reverseRecOn with
  | nil => exact Store.allRevisions_empty _
  | append_singleton past event ih =>
    have hbefore : past <+: events := (List.prefix_append past [event]).trans hpast
    have hevent : event ∈ events :=
      hpast.subset (List.mem_append_right past (List.mem_singleton_self event))
    rw [run_append]
    refine typedBy_after ((Reachable.start config catalog).run past).store.coherent (ih hbefore) ?_
    refine ⟨fun guid typeRef htype => Or.inr ⟨past, hbefore, htype⟩, fun record hmem => ?_, ?_⟩
    · cases record with
      | entity entity => exact Or.inl (.copy event entity hevent hmem rfl)
      | proxy | relationship => trivial
    · rintro call fresh guid newGuid typeRef rfl htyping
      exact htyping.imp_left (.reIdentified call fresh guid newGuid hevent)

end Collection

end MetadataGraph

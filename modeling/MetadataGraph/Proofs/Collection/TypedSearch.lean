import MetadataGraph.Proofs.Collection.Conformance
import MetadataGraph.Proofs.Collection.Searches
import MetadataGraph.Proofs.Collection.TypeReferences

/-!
# Searches for the entities of a type

A search looks at the types that the header of an entity names. They are those that the catalog had
when the entity got its type, or those that another collection named in a copy; the catalog may have
learnt of further ones since. We prove:

* `readsThrough_isFor`: the pages of a search for a type give the live entities of which the header
  names it;
* `foundSince_of_typeRef`: if the types in the header come from the catalog, an entity that is found
  is below the type, and an entity that is below it is found if the types above its own were defined
  at the time;
* `mem_listed_iff`: both, over a run, and where the types in the header can come from;
* `missing_earlyDatasets`: an entity is missed that got its type before the types above it were
  defined, and so is a copy that names none of them.
-/

namespace MetadataGraph

/-! ## Scopes of a type -/

/-- A scope takes in the live entities of a type, or of it as the only subtype, as they are now. -/
structure SearchScope.IsFor (scope : SearchScope) (name : TypeName) : Prop where
  /-- No other type is named. -/
  typed : scope.typeName = some name ∧ scope.subtypes = [] ∨
    scope.typeName = none ∧ scope.subtypes = [name]
  /-- No status is named. -/
  statuses : scope.statuses = []
  /-- No time is named. -/
  asOf : scope.asOf = .now

/-- The scope of a type admits what is live and names the type. -/
theorem SearchScope.IsFor.admits_iff {scope : SearchScope} {name : TypeName}
    (h : scope.IsFor name) {header : Header} :
    scope.Admits header ↔ header.isDeleted = false ∧ header.typeRef.isA name := by
  constructor
  · rintro ⟨typed, subtyped, accepted⟩
    rw [if_pos h.statuses] at accepted
    refine ⟨accepted, ?_⟩
    rcases h.typed with ⟨htype, -⟩ | ⟨-, hsubtypes⟩
    · exact typed name htype
    · rw [hsubtypes] at subtyped
      obtain ⟨other, hother, hisA⟩ := subtyped.resolve_left (List.cons_ne_nil _ _)
      rwa [List.mem_singleton.mp hother] at hisA
  · rintro ⟨hlive, hisA⟩
    have haccepted : if scope.statuses = [] then header.isDeleted = false
        else header.status ∈ scope.statuses := by rwa [if_pos h.statuses]
    rcases h.typed with ⟨htype, hsubtypes⟩ | ⟨htype, hsubtypes⟩
    · refine ⟨fun other hother => ?_, Or.inl hsubtypes, haccepted⟩
      cases htype.symm.trans hother
      exact hisA
    · refine ⟨fun other hother => ?_, Or.inr ⟨name, ?_, hisA⟩, haccepted⟩
      · cases htype.symm.trans hother
      · rw [hsubtypes]
        exact List.mem_singleton_self name

/-- The scope names no other type, in either place. -/
theorem SearchScope.IsFor.eq_of_mem {scope : SearchScope} {name other : TypeName}
    (h : scope.IsFor name) (hmem : other ∈ scope.typeName.toList ++ scope.subtypes) :
    other = name := by
  rcases h.typed with ⟨htype, hsubtypes⟩ | ⟨htype, hsubtypes⟩ <;>
    simpa [htype, hsubtypes] using hmem

namespace Search

/-- A search for entities asks for nothing but what its scope admits. -/
def IsUnfiltered : Search .entity → Prop
  | entities properties classifications => properties = none ∧ classifications = none
  | entitiesWith properties _ => properties.isEmpty
  | _ => False

variable {search : Search .entity}

/-- Such a search checks who calls it, and makes the query for all entities. -/
theorem IsUnfiltered.check_and_query (h : search.IsUnfiltered) (collection : Collection)
    (call : Call) (scope : SearchScope) :
    search.check collection call scope = Validation.userId call.user ∧
      search.query = .ok (Query.ofKind .entity) := by
  cases search with
  | entities properties classifications =>
    obtain ⟨rfl, rfl⟩ := h
    exact ⟨rfl, rfl⟩
  | entitiesWith properties criteria =>
    have hnone : Predicate.ofProperties properties criteria = none := if_pos h
    refine ⟨rfl, ?_⟩
    rw [query, hnone]
    rfl
  | classified | matching => exact h.elim

/-- Every entity has what it asks for. -/
theorem IsUnfiltered.asks (h : search.IsUnfiltered) (entity : Entity) : search.Asks entity := by
  cases search with
  | entities properties classifications =>
    obtain ⟨rfl, rfl⟩ := h
    exact ⟨fun _ hmem => absurd hmem (Option.not_mem_none _),
      fun _ hmem => absurd hmem (Option.not_mem_none _)⟩
  | entitiesWith properties criteria => exact Or.inl h
  | classified | matching => exact h.elim

end Search

namespace Collection

variable {collection : Collection}

/-- The search for a type that is defined is accepted page by page, and its pages give the live
entities of which the header names the type. -/
theorem readsThrough_isFor (hreachable : collection.Reachable) {name : TypeName}
    {type : TypeDefinition} (htype : collection.catalog.find name .entity = .ok type)
    {search : Search .entity} (hsearch : search.IsUnfiltered) {scope : SearchScope}
    (hscope : scope.IsFor name) (hsequencing : scope.sequencing.check = .ok ()) {size : Nat}
    (hsize : collection.pageSize scope.size = .ok size) (hsome : 1 ≤ size)
    {calls : Nat → Call} (hcalls : ∀ start, Validation.userId (calls start).user = .ok ()) :
    ∃ listed, ReadsThrough (fun start => search.run collection (calls start) { scope with start })
        size 0 listed ∧
      ∀ entity : Entity, entity ∈ listed ↔
        collection.store.latest entity.header.guid = some (.entity entity) ∧
          entity.header.isDeleted = false ∧ entity.header.typeRef.isA name := by
  have hquery (start : Nat) := hsearch.check_and_query collection (calls start) { scope with start }
  have hpages (start : Nat) : search.run collection (calls start) { scope with start } =
      .ok (nonEmpty (((collection.listing .entity scope (Query.ofKind .entity)).drop start).take
        size)) := by
    refine Search.run_eq_ok_iff.mpr ⟨(hquery start).1.trans (hcalls start), _, (hquery start).2,
      ⟨?_, fun other hother => ?_, hsequencing⟩, size, hsize, rfl⟩
    · -- a read of what is current does not look into the future, whenever it is made
      show Validation.asOf scope.asOf (calls start).now = .ok ()
      rw [hscope.asOf]
      rfl
    · rw [hscope.eq_of_mem hother]
      exact ⟨type, TypeCatalog.require_eq_ok_iff.mpr htype⟩
  refine ⟨_, readsThrough_drop hsome hpages 0, fun entity => ?_⟩
  -- what the listing asks for besides is nothing
  have hlisting := Search.isListing_listing hreachable.store.coherent (hquery 0).2 scope
  rw [List.drop_zero, hlisting.mem_iff, hscope.admits_iff, hscope.asOf]
  exact and_congr_right fun _ => and_iff_left (hsearch.asks entity)

/-- The catalog has kept all definitions that it had at an earlier moment of a run. -/
theorem extends_of_prefix (collection : Collection) {past events : List Event}
    (h : past <+: events) :
    (collection.run past).catalog.Extends (collection.run events).catalog := by
  obtain ⟨later, rfl⟩ := h
  rw [run_append]
  exact extends_run _ later

/-- What an earlier and a later catalog say on whether an entity of a type is found in a search for
another type, which looks at the types that the earlier one gave. -/
structure FoundSince (earlier later : TypeCatalog) (entityType name : TypeName) (found : Prop) :
    Prop where
  /-- It is found if and only if it was below the type. -/
  found_iff : found ↔ earlier.isSubtype entityType name
  /-- If it is found, it still is below the type. -/
  isSubtype_of_found : found → later.isSubtype entityType name
  /-- If all types above its own were defined, it is found if and only if it is below the type. -/
  found_iff_later : earlier.IsRooted entityType → (found ↔ later.isSubtype entityType name)

/-- An entity is found as the catalog has it that gave the type. -/
theorem foundSince_of_typeRef {earlier later : TypeCatalog} (hextends : earlier.Extends later)
    {entityType name : TypeName} {category : TypeCategory} {typeRef : TypeRef} {found : Prop}
    (hgiven : earlier.typeRef entityType category = .ok typeRef)
    (hfound : found ↔ typeRef.isA name) : FoundSince earlier later entityType name found := by
  -- what the header names is what the entity was below at that moment
  have hthen : found ↔ earlier.isSubtype entityType name := by
    rw [hfound, TypeCatalog.isA_eq_isSubtype hgiven]
  refine ⟨hthen, fun h => hextends.isSubtype (hthen.mp h), fun hrooted => ?_⟩
  rw [hthen, hextends.isSubtype_eq hrooted]

/-- Read through all its pages, a search for a type gives live entities that are stored in full, and
it gives those of which the header names the type. The types in the header were handed over with a
copy of the entity, or the catalog gave them at some moment. If it gave them, the entity is found as
the catalog had it at that moment. -/
theorem mem_listed_iff (config : CollectionConfig) (catalog : TypeCatalog) (events : List Event)
    {name : TypeName} {type : TypeDefinition} (search : Search .entity) (scope : SearchScope)
    {size : Nat} (calls : Nat → Call)
    (htype : (run ⟨config, catalog, .empty⟩ events).catalog.find name .entity = .ok type)
    (hsearch : search.IsUnfiltered) (hscope : scope.IsFor name)
    (hsequencing : scope.sequencing.check = .ok ())
    (hsize : (run ⟨config, catalog, .empty⟩ events).pageSize scope.size = .ok size)
    (hsome : 1 ≤ size)
    (hcalls : ∀ start, Validation.userId (calls start).user = .ok ()) :
    let origin : Collection := ⟨config, catalog, .empty⟩
    let collection := origin.run events
    ∃ listed, ReadsThrough (fun start => search.run collection (calls start) { scope with start })
        size 0 listed ∧
      (∀ entity ∈ listed, collection.store.latest entity.header.guid = some (.entity entity) ∧
        entity.header.isDeleted = false) ∧
      ∀ entity : Entity, collection.store.latest entity.header.guid = some (.entity entity) →
        entity.header.isDeleted = false →
          (entity ∈ listed ↔ entity.header.typeRef.isA name) ∧
          (HandedOver events entity.header.typeRef entity.header.guid ∨
            origin.GivesType events entity.header.typeRef) ∧
          ∀ past, past <+: events → (origin.run past).catalog.typeRef entity.header.typeName
              .entity = .ok entity.header.typeRef →
            FoundSince (origin.run past).catalog collection.catalog entity.header.typeName name
              (entity ∈ listed) := by
  intro origin collection
  obtain ⟨listed, hreads, hmem⟩ := readsThrough_isFor ((Reachable.start config catalog).run events)
    htype hsearch hscope hsequencing hsize hsome hcalls
  refine ⟨listed, hreads, fun entity hlisted => ?_, fun entity hlatest hlive => ?_⟩
  · obtain ⟨hlatest, hlive, -⟩ := (hmem entity).mp hlisted
    exact ⟨hlatest, hlive⟩
  · have hnamed : entity ∈ listed ↔ entity.header.typeRef.isA name := by
      rw [hmem entity, and_iff_right hlatest, and_iff_right hlive]
    exact ⟨hnamed, (typedBy_run config catalog events).of_latest hlatest,
      fun past hpast hgiven => foundSince_of_typeRef (origin.extends_of_prefix hpast) hgiven hnamed⟩

/-! ## Datasets -/

/-- A dataset is a type of asset. -/
private def datasetType : TypeDefinition :=
  ⟨"Dataset", .entity, some "Asset", [], [], [], none, []⟩

/-- An asset is something that can be referred to. -/
private def assetTypes : List Event :=
  [.addType ⟨"Referenceable", .entity, none, [], [], [], none, []⟩,
    .addType ⟨"Asset", .entity, some "Referenceable", [], [], [], none, []⟩]

/-- A dataset is created. -/
private def create (guid : Guid) : Event :=
  .operate ⟨"ada", .earliest⟩ guid (.addEntity ⟨"Dataset", ∅, [], .active, none⟩)

/-- The copy of a dataset is saved, which does not name the types above it. -/
private def saveCopy (guid : Guid) : Event :=
  .operate ⟨"ada", .earliest⟩ "" (.saveEntity
    (.new (Header.new guid ⟨"Dataset", []⟩ "remote" ⟨"bob", .earliest⟩) ∅ []))

/-- The scope of all that can be referred to. -/
private def referenceable : SearchScope :=
  ⟨some "Referenceable", [], [], .now, default, 0, 2⟩

/-- A dataset that is created when all types above its own are defined is found, and it is below the
type that is searched for. -/
theorem mem_listed_datasets :
    let events := assetTypes ++ [.addType datasetType, create "ours"]
    let collection := run ⟨default, ∅, .empty⟩ events
    ∃ listed, ReadsThrough (fun start => (Search.entities none none).run collection
        ⟨"ada", .earliest⟩ { referenceable with start }) 2 0 listed ∧
      ∃ entity ∈ listed, collection.store.latest "ours" = some (.entity entity) ∧
        collection.catalog.isSubtype entity.header.typeName "Referenceable" := by
  intro events collection
  obtain ⟨listed, hreads, -, hlisted⟩ := mem_listed_iff default ∅ events (.entities none none)
    referenceable (fun _ => ⟨"ada", .earliest⟩) rfl ⟨rfl, rfl⟩ ⟨Or.inl ⟨rfl, rfl⟩, rfl, rfl⟩ rfl
    rfl (Nat.le_succ 1) fun _ => rfl
  obtain ⟨entity, hours, hguid, hlive, hgiven, hrooted, hbelow⟩ : ∃ entity : Entity,
      collection.store.latest "ours" = some (.entity entity) ∧ entity.header.guid = "ours" ∧
        entity.header.isDeleted = false ∧
          collection.catalog.typeRef entity.header.typeName .entity = .ok entity.header.typeRef ∧
            collection.catalog.IsRooted entity.header.typeName ∧
              collection.catalog.isSubtype entity.header.typeName "Referenceable" :=
    ⟨_, rfl, rfl, rfl, rfl, by decide, rfl⟩
  obtain ⟨-, -, htyped⟩ := hlisted entity (hguid ▸ hours) hlive
  have hsince := htyped events (List.prefix_refl events) hgiven
  exact ⟨listed, hreads, entity, (hsince.found_iff_later hrooted).mpr hbelow, hours, hbelow⟩

/-- Datasets are missed when they are created before the types above their own are defined, and when
they are copies that do not name these. -/
theorem missing_earlyDatasets :
    let events := .addType datasetType :: create "ours" :: assetTypes ++ [saveCopy "theirs"]
    let collection := run ⟨default, ∅, .empty⟩ events
    (∃ type, collection.catalog.find "Referenceable" .entity = .ok type) ∧
      ∃ listed, ReadsThrough (fun start => (Search.entities none none).run collection
          ⟨"ada", .earliest⟩ { referenceable with start }) 2 0 listed ∧
        ∀ guid ∈ ["ours", "theirs"], ∃ entity : Entity,
          collection.store.latest guid = some (.entity entity) ∧ entity.header.isDeleted = false ∧
            ¬(entity ∈ listed ↔
              collection.catalog.isSubtype entity.header.typeName "Referenceable") := by
  intro events collection
  -- nothing is found, though both are below the type by now
  refine ⟨⟨_, rfl⟩, [], .done rfl, List.forall_mem_cons.mpr ⟨⟨_, rfl, rfl, fun h => ?_⟩,
    List.forall_mem_singleton.mpr ⟨_, rfl, rfl, fun h => ?_⟩⟩⟩
  · exact absurd (h.mpr rfl) List.not_mem_nil
  · exact absurd (h.mpr rfl) List.not_mem_nil

end Collection

end MetadataGraph

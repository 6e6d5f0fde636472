import MetadataGraph.Proofs.Collection.LateCommit

/-!
# Purges

A purge removes an element for good: a deleted one of the collection's own, or the copy of one that
another collection owns. The relationships that reference a purged entity go with it. They are found
over the index, which still enters relationships that have been moved away, and the eviction takes
its entries out of the index at every end that a relationship ever had. We prove:

* `Store.chain_foldl_evictions`: evictions remove the identities that they name and no others;
* `plan_eq_ok_iff_of_removes`: what must be stored for a purge to be planned, and what it removes;
* `purge_exact`: an accepted purge removes exactly its target and, with an entity, the relationships
  that reference it now.
-/

namespace MetadataGraph

open Element Instance

/-! ## Evictions -/

namespace Store

variable {store : Store} {guids : List Guid}

/-- Evictions remove the identities that they name and no others. -/
theorem chain_foldl_evictions (validTime transactionTime : Instant) (guid : Guid) :
    ((guids.map Statement.evict).foldl (apply validTime transactionTime) store).chain guid =
      if guid ∈ guids then [] else store.chain guid := by
  induction guids generalizing store with
  | nil => rfl
  | cons evicted rest ih =>
    rw [List.map_cons, List.foldl_cons, ih, chain_apply_evict]
    by_cases hrest : guid ∈ rest
    · simp [hrest]
    · by_cases hevicted : evicted = guid
      · simp [hevicted]
      · simp [hrest, hevicted, Ne.symm hevicted]

/-- Evictions have no guards. -/
theorem checkGuards_evictions (staged : NameMap (Option Record)) :
    store.checkGuards staged (guids.map .evict) = .ok () := by
  induction guids generalizing staged with
  | nil => rfl
  | cons evicted rest ih => exact ih (staged.insert evicted none)

end Store

/-- A purge evicts the relationships that go with an identity and then the identity. -/
theorem Plan.statements_purge (guid : Guid) (edges : List Relationship) :
    (Plan.purge guid edges).statements = (edges.map (·.header.guid) ++ [guid]).map .evict := by
  simp [Plan.purge]

/-! ## Operations that purge -/

namespace Operation

/-- The operation removes an element of a kind: a deleted one, or the copy of one. -/
inductive Removes : Operation → ElementKind → Guid → Prop
  | deleted (kind : ElementKind) (target : Guid) : Removes (.change kind target .purge) kind target
  | copy (kind : ElementKind) (target : Guid) (type : TypeName) (home : CollectionId) :
      Removes (.purgeCopy kind target type home) kind target

/-- The user and all that a purge asks for have names. -/
def IsNamed (call : Call) : Operation → Prop
  | change _ target .purge => ¬Text.isBlank call.user ∧ ¬Text.isBlank target
  | purgeCopy _ target type _ =>
    ¬Text.isBlank call.user ∧ ¬Text.isBlank target ∧ ¬Text.isBlank type
  | _ => False

/-- What a collection may purge by the operation. An element of its own kind must be deleted, and
owned or replicated by the collection. A copy of an element, or the proxy of an entity, must belong
to the other collection that is named and have the type that is named. -/
def MayRemove (collection : CollectionId) : Operation → Record → Prop
  | change kind _ .purge, record =>
    record.kind = recordKind kind.Carrier ∧ record.header.isDeleted ∧
      (record.header.home = collection ∨ record.header.replicatedBy = some collection)
  | purgeCopy kind _ type home, record =>
    (record.isEntityLike ↔ kind = .entity) ∧ record.header.home ≠ collection ∧
      record.header.home = home ∧ record.header.typeName = type
  | _, _ => False

end Operation

namespace Collection

variable {collection next : Collection} {call : Call} {fresh target : Guid} {plan : Plan}
  {operation : Operation} {kind : ElementKind} {reply : Reply}

/-- A purge of an element is planned when the element is stored, deleted and may be changed here. -/
theorem planPurge_eq_ok_iff {α : Type} [TypedElement α] :
    collection.planPurge α call target = .ok plan ↔
      (¬Text.isBlank call.user ∧ ¬Text.isBlank target) ∧
        (∃ current : α, collection.store.latest target = some (toRecord current) ∧
          (header current).isDeleted ∧ ((header current).home = collection.id ∨
            (header current).replicatedBy = some collection.id)) ∧
        plan = .purge target (edges α collection.store target) := by
  simp only [planPurge, Validation.userId, Validation.notBlank, Validation.canUpdate,
    Header.requireDeleted, Header.isUpdatableBy, Header.isHomedIn, Outcome.bind_eq_ok_iff,
    Outcome.pure_eq_ok_iff, Outcome.require_eq_ok_iff, require_eq_ok_iff, Bool.not_eq_true',
    Bool.not_eq_true, Bool.or_eq_true, decide_eq_true_eq]
  constructor
  · rintro ⟨⟨⟩, huser, ⟨⟩, hguid, current, hlatest, ⟨⟩, hdeleted, ⟨⟩, hupdatable, rfl⟩
    exact ⟨⟨huser, hguid⟩, ⟨current, hlatest, hdeleted, hupdatable⟩, rfl⟩
  · rintro ⟨⟨huser, hguid⟩, ⟨current, hlatest, hdeleted, hupdatable⟩, rfl⟩
    exact ⟨(), huser, (), hguid, current, hlatest, (), hdeleted, (), hupdatable, rfl⟩

/-- The stored record of an element is one of its kind. -/
theorem exists_latest_toRecord_iff (collection : Collection) (kind : ElementKind) (target : Guid)
    (p : Header → Prop) :
    (∃ current : kind.Carrier, collection.store.latest target = some (toRecord current) ∧
      p (header current)) ↔
      ∃ record, collection.store.latest target = some record ∧
        record.kind = recordKind kind.Carrier ∧ p record.header := by
  constructor
  · rintro ⟨current, hlatest, hheader⟩
    refine ⟨_, hlatest, ElementKind.kind_toRecord current, ?_⟩
    rwa [header_toRecord]
  · rintro ⟨record, hlatest, hkind, hheader⟩
    obtain ⟨current, rfl⟩ := ElementKind.exists_toRecord hkind
    refine ⟨current, hlatest, ?_⟩
    rwa [header_toRecord] at hheader

/-- What a look-up finds of an element, or of an entity by its proxy. -/
theorem header?_find_eq_some_iff {header : Header} :
    (collection.find kind.Carrier target .now).header? = some header ↔
      ∃ record, collection.store.latest target = some record ∧
        (record.isEntityLike ↔ kind = .entity) ∧ record.header = header := by
  have hfind : collection.find kind.Carrier target .now =
    Element.lookup (collection.store.latest target) := rfl
  rw [hfind]
  cases kind <;> rcases collection.store.latest target with _ | _ | _ | _ <;>
    simp [Element.lookup, Lookup.ofEntityRecord, Lookup.ofRelationshipRecord, Lookup.header?,
      Record.isEntityLike, Record.header, Instance.header]

/-- A purge of a copy is planned when what is stored is a copy from the other collection and of the
type that are named. -/
theorem planPurgeCopy_eq_ok_iff {type : TypeName} {home : CollectionId} :
    collection.planPurgeCopy call kind.Carrier target type home = .ok plan ↔
      (¬Text.isBlank call.user ∧ ¬Text.isBlank target ∧ ¬Text.isBlank type) ∧
        (∃ record, collection.store.latest target = some record ∧
          (record.isEntityLike ↔ kind = .entity) ∧ record.header.home ≠ collection.id ∧
            record.header.home = home ∧ record.header.typeName = type) ∧
        plan = .purge target (edges kind.Carrier collection.store target) := by
  simp only [planPurgeCopy, checkCopy, requireForeign, Validation.userId, Validation.notBlank,
    Header.isHomedIn, Outcome.bind_eq_ok_iff, Outcome.pure_eq_ok_iff, Outcome.require_eq_ok_iff,
    Outcome.ofOption_eq_ok_iff, header?_find_eq_some_iff, Option.any_some, Bool.not_eq_true',
    Bool.not_eq_true, decide_eq_true_eq, decide_eq_false_iff_not]
  constructor
  · rintro ⟨⟨⟩, huser, ⟨⟩, hguid, ⟨⟩, htype, -, ⟨record, hlatest, hkind, rfl⟩, ⟨⟩,
      ⟨⟨⟩, hforeign, ⟨⟩, hhome, hsame⟩, rfl⟩
    exact ⟨⟨huser, hguid, htype⟩, ⟨record, hlatest, hkind, hforeign, hhome, hsame⟩, rfl⟩
  · rintro ⟨⟨huser, hguid, htype⟩, ⟨record, hlatest, hkind, hforeign, hhome, hsame⟩, rfl⟩
    exact ⟨(), huser, (), hguid, (), htype, _, ⟨record, hlatest, hkind, rfl⟩, (),
      ⟨(), hforeign, (), hhome, hsame⟩, rfl⟩

/-- A purge is planned when its arguments are named and what is stored may be removed. It is planned
to remove that and, with an entity, the relationships that reference it. -/
theorem plan_eq_ok_iff_of_removes (hremoves : operation.Removes kind target) :
    collection.plan call fresh operation = .ok plan ↔
      operation.IsNamed call ∧
        (∃ record, collection.store.latest target = some record ∧
          operation.MayRemove collection.id record) ∧
        plan = .purge target (edges kind.Carrier collection.store target) := by
  cases hremoves with
  | deleted =>
    have hplan : collection.plan call fresh (.change kind target .purge) =
        collection.planPurge kind.Carrier call target := rfl
    have hstored := collection.exists_latest_toRecord_iff kind target fun header =>
      header.isDeleted ∧ (header.home = collection.id ∨ header.replicatedBy = some collection.id)
    rw [hplan, planPurge_eq_ok_iff]
    cases kind <;> exact and_congr Iff.rfl (and_congr hstored Iff.rfl)
  | copy type home => exact planPurgeCopy_eq_ok_iff

/-- The collection after identities were evicted in one commit. -/
def evicted (collection : Collection) (guids : List Guid) (now : Instant) : Collection :=
  { collection with store := collection.store.carriedOut (guids.map .evict) now }

theorem chain_evicted (guids : List Guid) (now : Instant) (guid : Guid) :
    (collection.evicted guids now).store.chain guid =
      if guid ∈ guids then [] else collection.store.chain guid :=
  Store.chain_foldl_evictions _ now guid

/-- No guard stops a purge. -/
theorem commit_purge_eq_ok_iff {edges : List Relationship} {now : Instant} :
    collection.commit (.purge target edges) now = .ok (next, reply) ↔
      next = collection.evicted (edges.map (·.header.guid) ++ [target]) now ∧ reply = .done := by
  have hsome : (Plan.purge target edges).statements ≠ [] := by simp [Plan.statements_purge]
  rw [commit_eq_ok_iff hsome, Plan.statements_purge]
  constructor
  · rintro ⟨receipt, hsubmit, hnext, rfl⟩
    obtain ⟨-, hstore, -⟩ := Store.submit_eq_ok_iff.mp hsubmit
    rw [evicted, hstore]
    exact ⟨hnext, rfl⟩
  · rintro ⟨rfl, rfl⟩
    exact ⟨_, Store.submit_eq_ok_iff.mpr ⟨Store.checkGuards_evictions ∅, rfl, rfl⟩, rfl, rfl⟩

/-- A purge is accepted when its arguments are named and what is stored may be removed. -/
theorem execute_eq_ok_iff_of_removes (hremoves : operation.Removes kind target) :
    collection.execute call fresh operation = .ok (next, reply) ↔
      operation.IsNamed call ∧
        (∃ record, collection.store.latest target = some record ∧
          operation.MayRemove collection.id record) ∧
        next = collection.evicted
          ((edges kind.Carrier collection.store target).map (·.header.guid) ++ [target]) call.now ∧
          reply = .done := by
  simp only [execute_eq_ok_iff, plan_eq_ok_iff_of_removes hremoves]
  constructor
  · rintro ⟨-, ⟨hnamed, hstored, rfl⟩, hcommit⟩
    exact ⟨hnamed, hstored, commit_purge_eq_ok_iff.mp hcommit⟩
  · rintro ⟨hnamed, hstored, hresult⟩
    exact ⟨_, ⟨hnamed, hstored, rfl⟩, commit_purge_eq_ok_iff.mpr hresult⟩

/-- The relationships that go with an element are those that link to it now, if it is an entity. -/
theorem mem_guids_edges_iff (hcoherent : collection.store.Coherent) {guid : Guid} :
    guid ∈ (edges kind.Carrier collection.store target).map (·.header.guid) ↔
      kind = .entity ∧ Records.Links collection.store.latest guid target := by
  rw [List.mem_map]
  cases kind with
  | entity => exact (links_iff hcoherent).symm.trans (and_iff_right rfl).symm
  | relationship => exact iff_of_false (fun ⟨_, hedge, _⟩ => List.not_mem_nil hedge) nofun

/-! ## The effect of a purge -/

/-- The effect of a purge of an element on a collection: it is exactly this and nothing else. -/
structure Purges (collection next : Collection) (kind : ElementKind) (target : Guid) : Prop where
  /-- Nothing but the store changes. -/
  store_only : next = { collection with store := next.store }
  /-- No revision is left under the target. -/
  target_removed : next.store.chain target = []
  /-- None is left of a relationship, live or deleted, that referenced a purged entity. -/
  edges_removed : kind = .entity →
    ∀ guid, Records.Links collection.store.latest guid target → next.store.chain guid = []
  /-- Every other identity keeps all its revisions. -/
  others_kept : ∀ guid, guid ≠ target →
    (kind = .entity → ¬Records.Links collection.store.latest guid target) →
      next.store.chain guid = collection.store.chain guid
  /-- No relationship references a purged entity any more. -/
  none_left : kind = .entity → Records.Unreferenced next.store.latest target

/-- An accepted purge has its effect. -/
theorem purges_of_execute (hcoherent : collection.store.Coherent)
    (hremoves : operation.Removes kind target)
    (hexecute : collection.execute call fresh operation = .ok (next, reply)) :
    collection.Purges next kind target := by
  obtain ⟨-, -, rfl, -⟩ := (execute_eq_ok_iff_of_removes hremoves).mp hexecute
  have hmem (guid : Guid) :
      guid ∈ (edges kind.Carrier collection.store target).map (·.header.guid) ++ [target] ↔
        (kind = .entity ∧ Records.Links collection.store.latest guid target) ∨ guid = target := by
    rw [List.mem_append, mem_guids_edges_iff hcoherent, List.mem_singleton]
  constructor
  · rfl
  · rw [chain_evicted, if_pos ((hmem target).mpr (Or.inr rfl))]
  · intro hkind guid hlinks
    rw [chain_evicted, if_pos ((hmem guid).mpr (Or.inl ⟨hkind, hlinks⟩))]
  · intro guid hne hlinks
    rw [chain_evicted, if_neg]
    rintro hevicted
    rcases (hmem guid).mp hevicted with ⟨hkind, hlink⟩ | rfl
    · exact hlinks hkind hlink
    · exact hne rfl
  · intro hkind guid relationship hlatest
    -- what is still seen was not evicted, so it did not reference the target before either
    rw [Store.latest, Store.read, chain_evicted] at hlatest
    split at hlatest
    · cases hlatest
    · rename_i hkept
      refine Bool.eq_false_iff.mpr fun hreferences => hkept ((hmem guid).mpr (Or.inl ⟨hkind, ?_⟩))
      exact ⟨relationship, hlatest, hreferences⟩

/-- A purge is accepted exactly when its arguments are named and its target holds what it may
remove: an element of its kind that is deleted and owned or replicated here, or a copy that another
collection owns. Then it removes the target and, with an entity, every relationship that references
it now, and leaves everything else as it was. -/
theorem purge_exact (hreachable : collection.Reachable) (hremoves : operation.Removes kind target)
    (call : Call) (fresh : Guid) :
    ((∃ next reply, collection.execute call fresh operation = .ok (next, reply)) ↔
      operation.IsNamed call ∧ ∃ record, collection.store.latest target = some record ∧
        operation.MayRemove collection.id record) ∧
    ∀ next reply, collection.execute call fresh operation = .ok (next, reply) →
      collection.Purges next kind target := by
  constructor
  · simp only [execute_eq_ok_iff_of_removes hremoves]
    constructor
    · rintro ⟨next, reply, hnamed, hstored, -⟩
      exact ⟨hnamed, hstored⟩
    · rintro ⟨hnamed, hstored⟩
      exact ⟨_, _, hnamed, hstored, rfl, rfl⟩
  · exact fun next reply => purges_of_execute hreachable.store.coherent hremoves

/-- A link between two assets is moved to a third identity with one of them, and the other asset is
deleted. -/
private def movedLink : Collection :=
  let call : Call := ⟨"ada", .earliest⟩
  run ⟨default, ∅, .empty⟩
    [.addType ⟨"Asset", .entity, none, [], [], [], none, []⟩,
      .addType ⟨"Link", .relationship, none, [], [], [], none, []⟩,
      .operate call "asset" (.addEntity ⟨"Asset", ∅, [], .active, none⟩),
      .operate call "other" (.addEntity ⟨"Asset", ∅, [], .active, none⟩),
      .operate call "link" (.addRelationship ⟨"Link", ∅, "asset", "other", .active, none⟩),
      .operate call "" (.change .entity "asset" (.reIdentify "item")),
      .operate call "" (.change .entity "other" .delete)]

/-- The link goes with the asset that it still has at an end. It does not go with the identity that
it has left, though the index still enters it there. -/
theorem purge_movedLink :
    (∃ next reply, movedLink.execute ⟨"ada", .earliest⟩ "" (.change .entity "other" .purge) =
        .ok (next, reply) ∧
      movedLink.Purges next .entity "other" ∧ next.store.chain "link" = []) ∧
    movedLink.store.Indexed "asset" "link" ∧
    ∃ next reply, movedLink.execute ⟨"ada", .earliest⟩ "" (.change .entity "asset" .purge) =
        .ok (next, reply) ∧
      movedLink.Purges next .entity "asset" ∧
        next.store.chain "link" = movedLink.store.chain "link" := by
  have hreachable : movedLink.Reachable := (Reachable.start _ _).run _
  have hlink : ∃ link, movedLink.store.latest "link" = some (.relationship link) ∧
      link.references "other" ∧ link.references "asset" = false := ⟨_, rfl, by decide, by decide⟩
  obtain ⟨link, hlatest, hother, hasset⟩ := hlink
  refine ⟨?_, rfl, ?_⟩
  · obtain ⟨haccepted, heffect⟩ := purge_exact hreachable (.deleted .entity "other")
      ⟨"ada", .earliest⟩ ""
    obtain ⟨next, reply, hexecute⟩ := haccepted.mpr
      ⟨⟨by decide, by decide⟩, _, rfl, rfl, by decide, Or.inl rfl⟩
    have hpurges := heffect next reply hexecute
    exact ⟨next, reply, hexecute, hpurges, hpurges.edges_removed rfl "link" ⟨link, hlatest, hother⟩⟩
  · obtain ⟨haccepted, heffect⟩ := purge_exact hreachable (.deleted .entity "asset")
      ⟨"ada", .earliest⟩ ""
    obtain ⟨next, reply, hexecute⟩ := haccepted.mpr
      ⟨⟨by decide, by decide⟩, _, rfl, rfl, by decide, Or.inl rfl⟩
    have hpurges := heffect next reply hexecute
    refine ⟨next, reply, hexecute, hpurges, hpurges.others_kept "link" (by decide) fun _ => ?_⟩
    rintro ⟨found, hfound, hreferences⟩
    rw [hlatest] at hfound
    cases hfound
    rw [hasset] at hreferences
    cases hreferences

end Collection

end MetadataGraph

import MetadataGraph.Proofs.Collection.Execute
import MetadataGraph.Proofs.Properties
import MetadataGraph.Proofs.Store.Traversal
import MetadataGraph.Proofs.Versioning

/-!
# What operations plan to write

A change of an element writes the next version of what is stored, guarded by the version that it was
made from. Only a purge and a re-identification plan anything else. We prove:

* `Coherent.mem_relationshipsAt_iff`: the relationships at an entity are those stored now that
  reference it;
* `forUpdate_eq_ok_iff`: when a caller may change an element;
* `planChange_edits`: what all other changes make of an element before they write it;
* `planPurge_eq_ok` and `planReIdentify_eq_ok`: what a purge and a re-identification plan.
-/

namespace MetadataGraph

open Element Instance

/-! ## Relationships at an entity -/

/-- The relationships at an entity are those stored now that reference it. -/
theorem Store.Coherent.mem_relationshipsAt_iff {store : Store} (h : store.Coherent) {node : Guid}
    {relationship : Relationship} :
    relationship ∈ store.relationshipsAt node ↔
      store.latest relationship.header.guid = some (.relationship relationship) ∧
        relationship.references node := by
  simp only [relationshipsAt, List.mem_map, h.mem_traverse_iff, Relationship.references_iff]
  constructor
  · rintro ⟨hop, ⟨hread, other, hconnects, -⟩, rfl⟩
    exact ⟨hread, other, hconnects⟩
  · rintro ⟨hlatest, other, hconnects⟩
    exact ⟨⟨relationship, store.read other .now⟩, ⟨hlatest, other, hconnects, rfl⟩, rfl⟩

/-- The relationships that an entity has are those stored now that reference it. -/
theorem Store.Coherent.mem_edges_iff {store : Store} (h : store.Coherent) {node : Guid}
    {relationship : Relationship} :
    relationship ∈ edges Entity store node ↔
      store.latest relationship.header.guid = some (.relationship relationship) ∧
        relationship.references node :=
  h.mem_relationshipsAt_iff

/-- The relationships at an entity have distinct identities. -/
theorem Store.Coherent.pairwise_relationshipsAt {store : Store} (h : store.Coherent) (node : Guid) :
    (store.relationshipsAt node).Pairwise fun one two => one.header.guid ≠ two.header.guid := by
  rw [relationshipsAt, List.pairwise_map]
  refine (h.pairwise_traverse node .now).imp fun {one two} hlt hsame => ?_
  exact String.lt_irrefl two.relationship.header.guid (hsame ▸ hlt)

/-! ## Revisions -/

/-- A statement writes the next version of the record stored under its identity. -/
def Statement.Revises (store : Store) (statement : Statement) : Prop :=
  ∃ prior next, statement = .replace prior.header.version next ∧
    store.latest next.guid = some prior ∧ next.header.version = prior.header.version + 1

/-- A plan writes the next version of the record stored under one identity, and nothing else. -/
def Plan.Revises (store : Store) (guid : Guid) (plan : Plan) : Prop :=
  ∃ statement, plan.statements = [statement] ∧ statement.guid = guid ∧ statement.Revises store

/-- A statement that writes a next version evicts nothing. -/
theorem Statement.Revises.ne_evict {store : Store} {statement : Statement}
    (h : statement.Revises store) (guid : Guid) : statement ≠ .evict guid := by
  obtain ⟨prior, next, rfl, -, -⟩ := h
  exact Statement.noConfusion

section Revisions

variable {α : Type} [TypedElement α] {store : Store} {guid : Guid} {current next : α}

/-- To replace an element by a version that succeeds it is to write its next version. -/
theorem Statement.revises_replace (hcoherent : store.Coherent)
    (hlatest : store.latest guid = some (toRecord current))
    (hnext : Versioning.Succeeds next current) :
    (Statement.replace (version current) (toRecord next)).guid = guid ∧
      (Statement.replace (version current) (toRecord next)).Revises store := by
  have hguid : (toRecord next).guid = guid := by
    rw [guid_toRecord]
    exact hnext.guid_eq.trans (hcoherent.element_guid_of_read hlatest)
  refine ⟨hguid, toRecord current, toRecord next, ?_, ?_, ?_⟩
  · rw [header_toRecord]
    rfl
  · rw [hguid]
    exact hlatest
  · rw [header_toRecord, header_toRecord]
    exact hnext.version_eq

theorem Plan.Revises.replace (hcoherent : store.Coherent)
    (hlatest : store.latest guid = some (toRecord current))
    (hnext : Versioning.Succeeds next current) : (Plan.replace current next).Revises store guid :=
  ⟨_, rfl, Statement.revises_replace hcoherent hlatest hnext⟩

end Revisions

/-! ## Purges and re-identifications -/

/-- A purge evicts the identity and those of the relationships that go with it. -/
theorem Plan.mem_purge_iff {guid : Guid} {edges : List Relationship} {statement : Statement} :
    statement ∈ (Plan.purge guid edges).statements ↔
      statement = .evict guid ∨ ∃ edge ∈ edges, statement = .evict edge.header.guid := by
  simp only [Plan.purge, List.mem_append, List.mem_map, List.mem_singleton]
  constructor
  · rintro (⟨edge, hedge, rfl⟩ | rfl)
    · exact Or.inr ⟨edge, hedge, rfl⟩
    · exact Or.inl rfl
  · rintro (rfl | ⟨edge, hedge, rfl⟩)
    · exact Or.inr rfl
    · exact Or.inl ⟨edge, hedge, rfl⟩

/-- A purge puts nothing. -/
theorem Plan.put_not_mem_purge {guid : Guid} {edges : List Relationship} {record : Record}
    {guard : Guard} : .put record guard ∉ (Plan.purge guid edges).statements := by
  simp [mem_purge_iff]

/-- The next version of a relationship with a proxy put at every end where an entity stands. -/
def Relationship.moved (relationship : Relationship) (entity : Guid) (proxy : Proxy)
    (stamp : Stamp) : Relationship where
  header := relationship.header.next stamp
  properties := relationship.properties
  endOne := if relationship.endOneGuid = entity then proxy else relationship.endOne
  endTwo := if relationship.endTwoGuid = entity then proxy else relationship.endTwo

namespace Collection

/-- The proxy of an element that is renamed, for the relationships that are moved with it. -/
def renamedProxy {α : Type} [Instance α] (collection : Collection) (current : α) (newGuid : Guid)
    (stamp : Stamp) : Proxy where
  header := header (Versioning.renamed current newGuid stamp)
  uniqueProperties := (properties (Versioning.renamed current newGuid stamp)).project
    (collection.catalog.uniqueProperties (typeName current))

/-- The proxy of an entity that is renamed has those of its properties that are unique for its type,
and no others. -/
theorem get?_renamedProxy (collection : Collection) (current : Entity) (newGuid : Guid)
    (stamp : Stamp) (name : String) :
    (collection.renamedProxy current newGuid stamp).uniqueProperties.get? name =
      if name ∈ collection.catalog.uniqueProperties current.header.typeName then
        current.properties.get? name
      else none :=
  Properties.get?_project ..

/-- The statements that move the relationships at an element to its new identity and retire the
element under the old one. -/
def moves {α : Type} [Element α] (collection : Collection) (current : α) (guid newGuid : Guid)
    (stamp : Stamp) : List Statement :=
  (edges α collection.store guid).map (fun relationship =>
    .replace relationship.header.version (.relationship
      (relationship.moved guid (collection.renamedProxy current newGuid stamp) stamp))) ++
  [.replace (version current) (toRecord (Versioning.retired current stamp))]

/-- There is a version left for an element, and for every relationship at it. -/
structure VersionsLeft {α : Type} [Element α] (collection : Collection) (guid : Guid)
    (current : α) : Prop where
  /-- The element is not at the last version. -/
  element : version current ≠ lastVersion
  /-- No relationship is. -/
  edge : ∀ relationship ∈ edges α collection.store guid,
    relationship.header.version ≠ lastVersion

/-- A re-identification moves every relationship at the element, and retires the element. -/
theorem mem_moves_iff {α : Type} [Element α] {collection : Collection} {current : α}
    {guid newGuid : Guid} {stamp : Stamp} {statement : Statement} :
    statement ∈ collection.moves current guid newGuid stamp ↔
      (∃ relationship ∈ edges α collection.store guid,
        statement = .replace relationship.header.version (.relationship
          (relationship.moved guid (collection.renamedProxy current newGuid stamp) stamp))) ∨
      statement = .replace (version current) (toRecord (Versioning.retired current stamp)) := by
  simp only [moves, List.mem_append, List.mem_map, List.mem_singleton, eq_comm]

/-- The moves of a re-identification evict nothing. -/
theorem evict_not_mem_moves {α : Type} [Element α] {collection : Collection} (current : α)
    {guid : Guid} (newGuid : Guid) (stamp : Stamp) (other : Guid) :
    .evict other ∉ collection.moves current guid newGuid stamp := by
  simp [moves, Statement.replace]

/-! ## Changes -/

variable {collection : Collection} {call : Call} {guid : Guid} {plan : Plan}

/-- A caller may change the current element. -/
structure Updatable {α : Type} [Element α] (collection : Collection) (call : Call) (guid : Guid)
    (current : α) : Prop where
  /-- The caller says who calls. -/
  user : Text.isBlank call.user = false
  /-- The caller says what is to be changed. -/
  named : Text.isBlank guid = false
  /-- The element is stored. -/
  stored : collection.store.latest guid = some (toRecord current)
  /-- It is live. -/
  live : (header current).isDeleted = false
  /-- It is owned or replicated by the collection. -/
  owned : (header current).isUpdatableBy collection.id

section Changes

variable {α : Type} [TypedElement α]

/-- An element is handed out for a change when the caller may change it. -/
theorem forUpdate_eq_ok_iff {current : α} :
    collection.forUpdate α call guid = .ok current ↔ collection.Updatable call guid current := by
  simp only [forUpdate, Validation.userId, Validation.notBlank, Validation.canUpdate,
    Header.requireLive, Outcome.bind_eq_ok_iff, Outcome.require_eq_ok_iff, Outcome.pure_eq_ok_iff,
    require_eq_ok_iff, Bool.not_eq_true']
  constructor
  · rintro ⟨⟨⟩, huser, ⟨⟩, hnamed, found, hstored, ⟨⟩, hlive, ⟨⟩, howned, rfl⟩
    exact ⟨huser, hnamed, hstored, hlive, howned⟩
  · rintro ⟨huser, hnamed, hstored, hlive, howned⟩
    exact ⟨(), huser, (), hnamed, current, hstored, (), hlive, (), howned, rfl⟩

/-- What a caller may change is stored. -/
theorem latest_of_forUpdate {current : α} (h : collection.forUpdate α call guid = .ok current) :
    collection.store.latest guid = some (toRecord current) :=
  (forUpdate_eq_ok_iff.mp h).stored

/-- What a caller may change is live. -/
theorem live_of_forUpdate {current : α} (h : collection.forUpdate α call guid = .ok current) :
    (header current).isDeleted = false :=
  (forUpdate_eq_ok_iff.mp h).live

/-- What a change makes of the current element before the result becomes its next version. -/
inductive Edits (collection : Collection) (guid : Guid) (current : α) : Change → α → Prop
  | status (status : Status) (hlive : (header current).isDeleted = false)
      (hstatus : status.isDeleted = false)
      (hallowed : collection.catalog.checkStatus (typeName current) status = .ok ()) :
      Edits collection guid current (.status status)
        (setHeader current { header current with status })
  | properties (properties : Properties) (hlive : (header current).isDeleted = false)
      (hproperties : collection.catalog.checkProperties (typeName current) properties = .ok ()) :
      Edits collection guid current (.properties properties) (setProperties current properties)
  | undo (previous : α) (hlive : (header current).isDeleted = false)
      (hprevious : collection.previous α guid = .ok previous)
      (hformer : (header previous).isDeleted = false) :
      Edits collection guid current .undo previous
  | delete (hlive : (header current).isDeleted = false) :
      Edits collection guid current .delete (setHeader current { header current with
        status := .deleted
        statusOnDelete := some (header current).status })
  | restore (status : Status) (hdeleted : (header current).isDeleted)
      (hstatus : (header current).statusOnDelete = some status) :
      Edits collection guid current .restore
        (setHeader current { header current with status, statusOnDelete := none })
  | reType (currentType newType : TypeName) (typeRef : TypeRef)
      (hlive : (header current).isDeleted = false) (hcurrent : typeName current = currentType)
      (htype : collection.catalog.typeRef newType (category α) = .ok typeRef)
      (hproperties : collection.catalog.checkProperties newType (properties current) = .ok ())
      (hallowed : collection.catalog.checkStatus newType (header current).status = .ok ())
      (hparts : TypedElement.checkParts collection.catalog newType current = .ok ()) :
      Edits collection guid current (.reType currentType newType)
        (setHeader current { header current with typeRef })
  | reHome (currentHome newHome : CollectionId) (newHomeName : String)
      (hlive : (header current).isDeleted = false)
      (hcurrent : (header current).home = currentHome)
      (hnew : (header current).isHomedIn newHome = false) :
      Edits collection guid current (.reHome currentHome newHome newHomeName)
        (setHeader current { header current with
          home := newHome
          homeName := some newHomeName
          provenance := .cohort
          replicatedBy := none })

/-- A change that neither purges nor re-identifies plans to write the edited element as the next
version. -/
theorem planChange_edits {change : Change} (hpurge : change ≠ .purge)
    (hidentity : ∀ newGuid, change ≠ .reIdentify newGuid)
    (h : collection.planChange α call guid change = .ok plan) :
    ∃ current edited next : α, collection.store.latest guid = some (toRecord current) ∧
      collection.Edits guid current change edited ∧
        Versioning.nextVersion current edited call.stamp = .ok next ∧
          plan = .replace current next := by
  -- every plan starts with an element that is stored and ends with a next version
  cases change with
  | status status =>
    simp only [planChange, planStatus, Outcome.bind_eq_ok_iff, Outcome.pure_eq_ok_iff,
      Versioning.changeStatus_eq_ok_iff] at h
    obtain ⟨⟨⟩, -, current, hcurrent, ⟨⟩, hallowed, next, ⟨hlive, hstatus, hnext⟩, rfl⟩ := h
    exact ⟨current, _, next, latest_of_forUpdate hcurrent, .status status hlive hstatus hallowed,
      hnext, rfl⟩
  | properties properties =>
    simp only [planChange, planProperties, Outcome.bind_eq_ok_iff, Outcome.pure_eq_ok_iff,
      Versioning.update_eq_ok_iff] at h
    obtain ⟨current, hcurrent, ⟨⟩, hproperties, next, ⟨hlive, hnext⟩, rfl⟩ := h
    exact ⟨current, _, next, latest_of_forUpdate hcurrent, .properties properties hlive hproperties,
      hnext, rfl⟩
  | undo =>
    simp only [planChange, planUndo, Outcome.bind_eq_ok_iff, Outcome.pure_eq_ok_iff,
      Header.requireLive, Outcome.require_eq_ok_iff, Bool.not_eq_true'] at h
    obtain ⟨current, hcurrent, previous, hprevious, ⟨⟩, hformer, next, hnext, rfl⟩ := h
    exact ⟨current, _, next, latest_of_forUpdate hcurrent,
      .undo previous (live_of_forUpdate hcurrent) hprevious hformer, hnext, rfl⟩
  | delete =>
    simp only [planChange, planDelete, Outcome.bind_eq_ok_iff, Outcome.pure_eq_ok_iff] at h
    obtain ⟨current, hcurrent, next, hnext, rfl⟩ := h
    obtain ⟨⟨⟩, -, hnext⟩ := Outcome.bind_eq_ok_iff.mp hnext
    exact ⟨current, _, next, latest_of_forUpdate hcurrent, .delete (live_of_forUpdate hcurrent),
      hnext, rfl⟩
  | restore =>
    simp only [planChange, planRestore, Outcome.bind_eq_ok_iff, Outcome.pure_eq_ok_iff,
      Versioning.restore_eq_ok_iff] at h
    obtain ⟨⟨⟩, -, ⟨⟩, -, current, hcurrent, ⟨⟩, -, next, ⟨hdeleted, status, hstatus, hnext⟩,
      rfl⟩ := h
    exact ⟨current, _, next, require_eq_ok_iff.mp hcurrent, .restore status hdeleted hstatus, hnext,
      rfl⟩
  | purge => exact absurd rfl hpurge
  | reIdentify newGuid => exact absurd rfl (hidentity newGuid)
  | reType currentType newType =>
    simp only [planChange, planReType, Outcome.bind_eq_ok_iff, Outcome.pure_eq_ok_iff,
      Outcome.require_eq_ok_iff, decide_eq_true_eq, Versioning.update_eq_ok_iff] at h
    obtain ⟨⟨⟩, -, ⟨⟩, -, current, hcurrent, ⟨⟩, hsame, typeRef, htype, ⟨⟩, hproperties, ⟨⟩,
      hallowed, ⟨⟩, hparts, next, ⟨hlive, hnext⟩, rfl⟩ := h
    exact ⟨current, _, next, latest_of_forUpdate hcurrent, .reType currentType newType typeRef hlive
      hsame htype hproperties hallowed hparts, hnext, rfl⟩
  | reHome currentHome newHome newHomeName =>
    simp only [planChange, planReHome, Validation.newHome, Outcome.bind_eq_ok_iff,
      Outcome.pure_eq_ok_iff, Outcome.require_eq_ok_iff, decide_eq_true_eq, Bool.not_eq_true',
      Versioning.update_eq_ok_iff] at h
    obtain ⟨⟨⟩, -, ⟨⟩, -, ⟨⟩, -, current, hcurrent, ⟨⟩, -, ⟨⟩, hsame, ⟨⟩, hnew, next,
      ⟨hlive, hnext⟩, rfl⟩ := h
    exact ⟨current, _, next, require_eq_ok_iff.mp hcurrent, .reHome currentHome newHome newHomeName
      hlive hsame hnew, hnext, rfl⟩

/-- A change that neither purges nor re-identifies plans to write the next version. -/
theorem planChange_revises (hcoherent : collection.store.Coherent) {change : Change}
    (hpurge : change ≠ .purge) (hidentity : ∀ newGuid, change ≠ .reIdentify newGuid)
    (h : collection.planChange α call guid change = .ok plan) :
    plan.Revises collection.store guid := by
  obtain ⟨current, edited, next, hlatest, -, hnext, rfl⟩ := planChange_edits hpurge hidentity h
  exact .replace hcoherent hlatest (.of_nextVersion hnext)

/-- A purge plans to remove the element and the relationships at it. -/
theorem planPurge_eq_ok (h : collection.planPurge α call guid = .ok plan) :
    plan = .purge guid (edges α collection.store guid) := by
  simp only [planPurge, Outcome.bind_eq_ok_iff, Outcome.pure_eq_ok_iff] at h
  obtain ⟨⟨⟩, -, ⟨⟩, -, current, -, ⟨⟩, -, ⟨⟩, -, rfl⟩ := h
  rfl

/-- What a caller may purge is stored and deleted. -/
theorem deleted_of_planPurge (h : collection.planPurge α call guid = .ok plan) :
    ∃ current : α, collection.store.latest guid = some (toRecord current) ∧
      (header current).isDeleted := by
  simp only [planPurge, Outcome.bind_eq_ok_iff, Header.requireDeleted,
    Outcome.require_eq_ok_iff] at h
  obtain ⟨⟨⟩, -, ⟨⟩, -, current, hcurrent, ⟨⟩, hdeleted, -⟩ := h
  exact ⟨current, require_eq_ok_iff.mp hcurrent, hdeleted⟩

/-- A relationship at the old identity can be moved if there is a version left for it. -/
theorem moveEdge_eq_ok_iff {entity : Guid} {proxy : Proxy} {relationship : Relationship}
    {statement : Statement} :
    moveEdge call entity proxy relationship = .ok statement ↔
      relationship.header.version ≠ lastVersion ∧
        .replace relationship.header.version
          (.relationship (relationship.moved entity proxy call.stamp)) = statement := by
  simp only [moveEdge, Outcome.bind_eq_ok_iff, Outcome.pure_eq_ok_iff,
    Versioning.nextVersion_eq_ok_iff]
  constructor
  · rintro ⟨_, ⟨-, hleft, rfl⟩, hstatement⟩
    exact ⟨hleft, hstatement⟩
  · rintro ⟨hleft, hstatement⟩
    exact ⟨_, ⟨rfl, hleft, rfl⟩, hstatement⟩

/-- A re-identification plans to move the relationships at the old identity to the new one, to
retire the element under the old identity and to create it under the new one. -/
theorem planReIdentify_eq_ok {newGuid : Guid}
    (h : collection.planReIdentify α call guid newGuid = .ok plan) :
    ∃ current : α, collection.store.latest guid = some (toRecord current) ∧ newGuid ≠ guid ∧
      collection.VersionsLeft guid current ∧
      plan.statements = collection.moves current guid newGuid call.stamp ++
        [.create (toRecord (Versioning.renamed current newGuid call.stamp))] ∧
      plan.reply = .written (toRecord (Versioning.renamed current newGuid call.stamp)) := by
  simp only [planReIdentify, Outcome.bind_eq_ok_iff, Outcome.pure_eq_ok_iff,
    Outcome.require_eq_ok_iff, decide_eq_true_eq] at h
  obtain ⟨⟨⟩, -, ⟨⟩, hne, current, hcurrent, retired, hretired, next, hnext, moves, hmoves,
    rfl⟩ := h
  obtain ⟨-, hleft, rfl⟩ := Versioning.softDelete_eq_ok_iff.mp hretired
  rw [Versioning.rekey_of_nextVersion hnext] at hmoves ⊢
  -- no move is cut off, so that the moves are those of all relationships
  obtain ⟨hedges, rfl⟩ := (Outcome.mapM_eq_ok_iff fun _ _ => moveEdge_eq_ok_iff).mp hmoves
  refine ⟨current, latest_of_forUpdate hcurrent, hne, ⟨hleft, hedges⟩, ?_, rfl⟩
  rw [Collection.moves, List.append_assoc]
  rfl

/-- What a caller may re-identify is live. -/
theorem live_of_planReIdentify {newGuid : Guid} {current : α}
    (hcurrent : collection.store.latest guid = some (toRecord current))
    (h : collection.planReIdentify α call guid newGuid = .ok plan) :
    (header current).isDeleted = false := by
  simp only [planReIdentify, Outcome.bind_eq_ok_iff] at h
  obtain ⟨⟨⟩, -, ⟨⟩, -, found, hfound, -⟩ := h
  -- what the operation found is what is stored
  have hsame : toRecord found = toRecord current :=
    Option.some.inj ((latest_of_forUpdate hfound).symm.trans hcurrent)
  rw [← header_toRecord, ← hsame, header_toRecord]
  exact live_of_forUpdate hfound

end Changes

end Collection

end MetadataGraph

import MetadataGraph.Proofs.Collection.Lifecycle
import MetadataGraph.Proofs.Collection.Run

/-!
# What every operation plans

An operation that is not refused plans one of a few kinds of writes: a new instance, the next
version of what is stored, a copy, or the removal of what is stored. `Planned` lists them with what
the operation has checked, so that what holds of all operations is proved by going through this list
and not through the operations. We prove:

* `planned_of_plan`: whatever an operation plans is on the list;
* `planned_of_after`: an event submits statements of the list or leaves the store as it was;
* `Planned.chain_of_submit`: what a transaction of the list makes of the revisions of an identity;
* `chain_after`: an event leaves the revisions of an identity, removes them all or pushes one.
-/

namespace MetadataGraph

open Element Instance

/-! ## Parts of records -/

/-- The classifications of an entity by name; other records have none. -/
def Record.classifications : Record → NameMap Classification
  | entity e => e.classifications
  | _ => ∅

/-- The proxies at the ends of a relationship; other records have none. -/
def Record.endProxies : Record → List Proxy
  | relationship r => [r.endOne, r.endTwo]
  | _ => []

/-- An end of a relationship that is moved is the proxy that it is moved to, or stays. -/
theorem Relationship.eq_or_mem_of_mem_moved {relationship : Relationship} {entity : Guid}
    {proxy found : Proxy} {stamp : Stamp}
    (h : found ∈ (Record.relationship (relationship.moved entity proxy stamp)).endProxies) :
    found = proxy ∨ found ∈ (Record.relationship relationship).endProxies := by
  have hend {stood : Proxy} (hfound : found = if stood.header.guid = entity then proxy else stood) :
      found = proxy ∨ found = stood := by
    rw [hfound]
    exact ite_eq_or_eq _ _ _
  simp only [Record.endProxies, moved, List.mem_cons, List.not_mem_nil, or_false] at h ⊢
  rcases h with hone | htwo
  · exact (hend hone).imp_right Or.inl
  · exact (hend htwo).imp_right Or.inr

/-- Neither the header of an element nor its properties reach to its ends. -/
class EndsApart (α : Type) [Element α] : Prop where
  /-- A new header leaves the ends. -/
  endProxies_setHeader : ∀ (a : α) (h : Header),
    (toRecord (setHeader a h)).endProxies = (toRecord a).endProxies
  /-- New properties leave the ends. -/
  endProxies_setProperties : ∀ (a : α) (p : Properties),
    (toRecord (setProperties a p)).endProxies = (toRecord a).endProxies

instance : EndsApart Entity where
  endProxies_setHeader _ _ := rfl
  endProxies_setProperties _ _ := rfl

instance : EndsApart Relationship where
  endProxies_setHeader _ _ := rfl
  endProxies_setProperties _ _ := rfl

attribute [simp] EndsApart.endProxies_setHeader EndsApart.endProxies_setProperties

/-- The next version has the ends of its content. -/
theorem Versioning.endProxies_nextVersion {α : Type} [Element α] [EndsApart α]
    {prior mutated next : α} {stamp : Stamp} (h : nextVersion prior mutated stamp = .ok next) :
    (toRecord next).endProxies = (toRecord mutated).endProxies := by
  obtain ⟨-, -, rfl⟩ := nextVersion_eq_ok_iff.mp h
  exact EndsApart.endProxies_setHeader _ _

namespace Collection

variable {collection : Collection} {call : Call} {guid : Guid} {plan : Plan}

/-! ## Changes -/

section Changes

variable {α : Type} [TypedElement α]

/-- Only an undo changes the ends. -/
theorem Edits.endProxies_eq [EndsApart α] {current edited : α} {change : Change}
    (h : collection.Edits guid current change edited) (hundo : change ≠ .undo) :
    (toRecord edited).endProxies = (toRecord current).endProxies := by
  cases h with
  | undo => exact absurd rfl hundo
  | properties => exact EndsApart.endProxies_setProperties _ _
  | status | delete | restore | reType | reHome => exact EndsApart.endProxies_setHeader _ _

/-- What an undo brings back is the state of an earlier revision. -/
theorem exists_mem_chain_of_previous {previous : α}
    (h : collection.previous α guid = .ok previous) :
    ∃ revision ∈ collection.store.chain guid, revision.data = toRecord previous := by
  have hget := List.mem_of_getElem? (Outcome.ofOption_eq_ok_iff.mp h)
  obtain ⟨revision, hmem, hprevious⟩ := List.mem_filterMap.mp (List.mem_reverse.mp hget)
  rw [Store.history, List.mem_filter, List.mem_reverse] at hmem
  exact ⟨revision, hmem.1, (ofRecord?_eq_some_iff _ _).mp hprevious⟩

end Changes

end Collection

/-! ## Operations -/

/-- The records that the caller of an operation hands over to be stored as they are. -/
def Operation.supplied : Operation → List Record
  | addProxy proxy => [.proxy proxy]
  | saveEntity entity | saveClassification entity _ => [.entity entity]
  | saveRelationship relationship => [.relationship relationship]
  | _ => []

namespace Collection

open Element Instance

variable {collection : Collection} {call : Call} {fresh guid : Guid} {plan : Plan}

/-- Callers of lifecycle operations do not hand over records to be stored as they are. -/
theorem supplied_of_isLifecycle {operation : Operation} (h : operation.IsLifecycle) :
    operation.supplied = [] := by
  cases operation <;> first | rfl | exact False.elim h

/-- What an operation that is not refused wants to write, and what it has checked before. -/
inductive Planned (collection : Collection) (call : Call) (fresh : Guid) (operation : Operation) :
    List Statement → Prop
  | nothing : Planned collection call fresh operation []
  | addEntity (entity : NewEntity) (typeRef : TypeRef) (hoperation : operation = .addEntity entity)
      (hstatus : entity.status.isDeleted = false)
      (htype : collection.catalog.typeRef entity.typeName .entity = .ok typeRef) :
      Planned collection call fresh operation
        [.create (.entity (.new (collection.newHeader call fresh typeRef entity.status
          entity.source) entity.properties entity.classifications))]
  | addRelationship (relationship : NewRelationship) (typeRef : TypeRef) (endOne endTwo : Proxy)
      (hoperation : operation = .addRelationship relationship)
      (hstatus : relationship.status.isDeleted = false)
      (hone : collection.endpoint relationship.endOne "entityOneGUID" = .ok endOne)
      (htwo : collection.endpoint relationship.endTwo "entityTwoGUID" = .ok endTwo) :
      Planned collection call fresh operation
        [.create (.relationship ⟨collection.newHeader call fresh typeRef relationship.status
          relationship.source, relationship.properties, endOne, endTwo⟩)]
  | addProxy (proxy : Proxy) (hoperation : operation = .addProxy proxy) :
      Planned collection call fresh operation [.putProxy proxy]
  | change (kind : ElementKind) (guid : Guid) (change : Change) (current edited next : kind.Carrier)
      (hoperation : operation = .change kind guid change)
      (hlatest : collection.store.latest guid = some (toRecord current))
      (hedits : collection.Edits guid current change edited)
      (hnext : Versioning.nextVersion current edited call.stamp = .ok next) :
      Planned collection call fresh operation [.replace (version current) (toRecord next)]
  | purge (kind : ElementKind) (guid : Guid) (current : kind.Carrier)
      (hoperation : operation = .change kind guid .purge)
      (hlatest : collection.store.latest guid = some (toRecord current))
      (hdeleted : (header current).isDeleted) :
      Planned collection call fresh operation
        (Plan.purge guid (edges kind.Carrier collection.store guid)).statements
  | reIdentify (kind : ElementKind) (guid newGuid : Guid) (current : kind.Carrier)
      (hoperation : operation = .change kind guid (.reIdentify newGuid)) (hne : newGuid ≠ guid)
      (hlatest : collection.store.latest guid = some (toRecord current))
      (hlive : (header current).isDeleted = false)
      (hleft : collection.VersionsLeft guid current) :
      Planned collection call fresh operation
        (collection.moves current guid newGuid call.stamp ++
          [.create (toRecord (Versioning.renamed current newGuid call.stamp))])
  | relabel (guid : Guid) (current labelled next : Entity)
      (hcurrent : collection.store.latest guid = some (.entity current) ∨
        .entity current ∈ operation.supplied)
      (hheader : labelled.header = current.header)
      (hnext : Versioning.nextVersion current labelled call.stamp = .ok next)
      (hlive : current.header.isDeleted = false) :
      Planned collection call fresh operation [.replace current.header.version (.entity next)]
  | relabelCopy (guid : Guid) (current labelled : Entity) (hlifecycle : ¬operation.IsLifecycle)
      (hcurrent : collection.store.latest guid = some (.entity current) ∨
        .entity current ∈ operation.supplied)
      (hheader : labelled.header = current.header) :
      Planned collection call fresh operation [.overwrite (.entity labelled)]
  | saveEntity (entity : Entity) (hoperation : operation = .saveEntity entity) :
      Planned collection call fresh operation [.overwrite (.entity entity)]
  | saveRelationship (relationship : Relationship)
      (hoperation : operation = .saveRelationship relationship) :
      Planned collection call fresh operation
        ((collection.missingEnds relationship.endOne relationship.endTwo).map .putProxy ++
          [.overwrite (.relationship relationship)])
  | purgeCopy (kind : ElementKind) (guid : Guid) (type : TypeName) (home : CollectionId)
      (hoperation : operation = .purgeCopy kind guid type home) :
      Planned collection call fresh operation
        (Plan.purge guid (edges kind.Carrier collection.store guid)).statements

/-- At an end of a new relationship a live entity is stored, in full or by proxy. -/
theorem latest_of_endpoint {parameter : String} {proxy : Proxy}
    (h : collection.endpoint guid parameter = .ok proxy) :
    ∃ record, collection.store.latest guid = some record ∧ record.isEntityLike ∧
      record.header = proxy.header ∧ proxy.header.isDeleted = false := by
  simp only [endpoint, Outcome.bind_eq_ok_iff, Outcome.ofOption_eq_ok_iff,
    Outcome.require_eq_ok_iff, Outcome.pure_eq_ok_iff, Bool.not_eq_true'] at h
  obtain ⟨⟨⟩, -, found, hfound, ⟨⟩, hlive, rfl⟩ := h
  cases hlatest : collection.store.latest guid with
  | none =>
    rw [proxy?, find, ← Store.latest, hlatest] at hfound
    cases hfound
  | some record =>
    rw [proxy?, find, ← Store.latest, hlatest] at hfound
    cases record with
    | entity entity =>
      cases hfound
      exact ⟨_, rfl, rfl, rfl, hlive⟩
    | proxy proxy =>
      cases hfound
      exact ⟨_, rfl, rfl, rfl, hlive⟩
    | relationship relationship => cases hfound

/-- The proxy at an end of a new relationship has the identity that was asked for. -/
theorem guid_of_endpoint (hcoherent : collection.store.Coherent) {parameter : String}
    {proxy : Proxy} (h : collection.endpoint guid parameter = .ok proxy) :
    proxy.header.guid = guid := by
  obtain ⟨record, hlatest, -, hheader, -⟩ := latest_of_endpoint h
  rw [← hheader]
  exact hcoherent.guid_of_read hlatest

/-- An entity that is found is stored. -/
theorem latest_of_found? {current : Entity}
    (h : (collection.find Entity guid .now).found? = some current) :
    collection.store.latest guid = some (.entity current) := by
  refine (lookup_eq_found_iff _ current).mp ?_
  change collection.find Entity guid .now = .found current
  cases hfind : collection.find Entity guid .now with
  | found value => rw [hfind] at h; exact congrArg _ (Option.some.inj h)
  | proxyOnly proxy => rw [hfind] at h; cases h
  | notFound => rw [hfind] at h; cases h

/-- The copy of a classification goes on an entity that is stored or on the one that comes with
it. -/
theorem latest_or_eq_of_labelled? {incoming current : Entity}
    (h : collection.labelled? incoming = some current) :
    collection.store.latest incoming.header.guid = some (.entity current) ∨ current = incoming := by
  unfold labelled? at h
  split at h
  · rename_i stored hfind
    cases h
    exact Or.inl ((lookup_eq_found_iff _ current).mp hfind)
  · split at h
    · cases h
    · exact Or.inr (Option.some.inj h).symm

/-- What is planned with an entity whose classifications change. -/
private theorem planned_of_planRelabelled {operation : Operation} {current labelled : Entity}
    (hcurrent : collection.store.latest guid = some (.entity current))
    (h : planRelabelled call current labelled = .ok plan)
    (hheader : labelled.header = current.header) :
    collection.Planned call fresh operation plan.statements := by
  simp only [planRelabelled, Outcome.bind_eq_ok_iff, Outcome.pure_eq_ok_iff,
    Versioning.update_eq_ok_iff] at h
  obtain ⟨next, ⟨hlive, hnext⟩, rfl⟩ := h
  exact .relabel guid current labelled next (.inl hcurrent) hheader hnext hlive

/-- What is planned with the copy of a classification. -/
private theorem planned_of_planLabelled {operation : Operation} {current labelled : Entity}
    (hlifecycle : ¬operation.IsLifecycle)
    (hcurrent : collection.store.latest guid = some (.entity current) ∨
      .entity current ∈ operation.supplied)
    (h : collection.planLabelled call current labelled = .ok plan)
    (hheader : labelled.header = current.header) :
    collection.Planned call fresh operation plan.statements := by
  unfold planLabelled at h
  split at h
  · simp only [Outcome.bind_eq_ok_iff, Outcome.pure_eq_ok_iff, Versioning.update_eq_ok_iff] at h
    obtain ⟨next, ⟨hlive, hnext⟩, rfl⟩ := h
    exact .relabel guid current labelled next hcurrent hheader hnext hlive
  · rw [Outcome.pure_eq_ok_iff] at h
    rw [← h]
    exact .relabelCopy guid current labelled hlifecycle hcurrent hheader

/-- What is planned when an element is changed. -/
private theorem planned_of_planChange {kind : ElementKind} {change : Change}
    (h : collection.planChange kind.Carrier call guid change = .ok plan) :
    collection.Planned call fresh (.change kind guid change) plan.statements := by
  -- the two kinds of elements share their class only once the kind is known
  by_cases hpurge : change = .purge
  · subst hpurge
    obtain ⟨current, hlatest, hdeleted⟩ := deleted_of_planPurge h
    rw [planPurge_eq_ok h]
    cases kind <;> exact .purge _ guid current rfl hlatest hdeleted
  by_cases hidentity : ∃ newGuid, change = .reIdentify newGuid
  · obtain ⟨newGuid, rfl⟩ := hidentity
    obtain ⟨current, hlatest, hne, hleft, hstatements, -⟩ := planReIdentify_eq_ok h
    rw [hstatements]
    have hlive := live_of_planReIdentify hlatest h
    cases kind <;> exact .reIdentify _ guid newGuid current rfl hne hlatest hlive hleft
  · obtain ⟨current, edited, next, hlatest, hedits, hnext, rfl⟩ :=
      planChange_edits hpurge (not_exists.mp hidentity) h
    cases kind <;> exact .change _ guid change current edited next rfl hlatest hedits hnext

/-- Whatever an operation plans is on the list. -/
theorem planned_of_plan {operation : Operation}
    (h : collection.plan call fresh operation = .ok plan) :
    collection.Planned call fresh operation plan.statements := by
  -- of what an operation has checked only that is kept which its constructor asks for
  cases operation with
  | addEntity entity =>
    simp only [Collection.plan, planAddEntity, checkNewEntity, Outcome.bind_eq_ok_iff,
      Outcome.pure_eq_ok_iff, Outcome.require_eq_ok_iff, Bool.not_eq_true'] at h
    obtain ⟨⟨⟩, -, ⟨⟩, -, typeRef,
      ⟨⟨⟩, -, ⟨⟩, hstatus, found, htype, ⟨⟩, -, ⟨⟩, -, ⟨⟩, -, rfl⟩, rfl⟩ := h
    exact .addEntity entity found rfl hstatus htype
  | addRelationship relationship =>
    simp only [Collection.plan, planAddRelationship, Outcome.bind_eq_ok_iff,
      Outcome.pure_eq_ok_iff, Outcome.require_eq_ok_iff, Bool.not_eq_true'] at h
    obtain ⟨⟨⟩, -, ⟨⟩, -, ⟨⟩, -, ⟨⟩, hstatus, typeRef, -, ⟨⟩, -, ⟨⟩, -, endOne, hone, endTwo, htwo,
      ⟨⟩, -, rfl⟩ := h
    exact .addRelationship relationship typeRef endOne endTwo rfl hstatus hone htwo
  | addProxy proxy =>
    simp only [Collection.plan, planAddProxy, Outcome.bind_eq_ok_iff] at h
    obtain ⟨⟨⟩, -, ⟨⟩, -, type, -, h⟩ := h
    split at h
    · rw [← Outcome.pure_eq_ok_iff.mp h]
      exact .nothing
    · rw [← Outcome.pure_eq_ok_iff.mp h]
      exact .addProxy proxy rfl
  | change kind target change => exact planned_of_planChange h
  | classify target name source origin properties =>
    simp only [Collection.plan, planClassify, Outcome.bind_eq_ok_iff] at h
    obtain ⟨⟨⟩, -, current, hcurrent, ⟨⟩, -, ⟨⟩, -, hplan⟩ := h
    exact planned_of_planRelabelled (latest_of_forLabelling hcurrent) hplan rfl
  | declassify target name =>
    simp only [Collection.plan, planDeclassify, Outcome.bind_eq_ok_iff] at h
    obtain ⟨⟨⟩, -, current, hcurrent, ⟨⟩, -, hplan⟩ := h
    exact planned_of_planRelabelled (latest_of_forLabelling hcurrent) hplan rfl
  | reclassify target name properties =>
    simp only [Collection.plan, planReclassify, Outcome.bind_eq_ok_iff] at h
    obtain ⟨⟨⟩, -, current, hcurrent, classification, -, ⟨⟩, -, hplan⟩ := h
    exact planned_of_planRelabelled (latest_of_forLabelling hcurrent) hplan rfl
  | saveEntity entity =>
    simp only [Collection.plan, planSaveEntity, Outcome.bind_eq_ok_iff,
      Outcome.pure_eq_ok_iff] at h
    obtain ⟨⟨⟩, -, ⟨⟩, -, type, -, ⟨⟩, -, rfl⟩ := h
    exact .saveEntity entity rfl
  | saveRelationship relationship =>
    simp only [Collection.plan, planSaveRelationship, Outcome.bind_eq_ok_iff,
      Outcome.pure_eq_ok_iff] at h
    obtain ⟨⟨⟩, -, ⟨⟩, -, ⟨⟩, -, ⟨⟩, -, type, -, ⟨⟩, -, rfl⟩ := h
    exact .saveRelationship relationship rfl
  | purgeCopy kind target type home =>
    simp only [Collection.plan, planPurgeCopy, Outcome.bind_eq_ok_iff, Outcome.pure_eq_ok_iff] at h
    obtain ⟨⟨⟩, -, ⟨⟩, -, ⟨⟩, -, header, -, ⟨⟩, -, rfl⟩ := h
    exact .purgeCopy kind target type home rfl
  | saveClassification entity classification =>
    simp only [Collection.plan, planSaveClassification, Outcome.bind_eq_ok_iff] at h
    obtain ⟨⟨⟩, -, ⟨⟩, -, ⟨⟩, -, ⟨⟩, -, h⟩ := h
    split at h
    · rw [← Outcome.pure_eq_ok_iff.mp h]
      exact .nothing
    · rename_i current hlabelled
      split at h
      · rw [← Outcome.pure_eq_ok_iff.mp h]
        exact .nothing
      · obtain ⟨⟨⟩, -, h⟩ := Outcome.bind_eq_ok_iff.mp h
        split at h
        · rw [← Outcome.pure_eq_ok_iff.mp h]
          exact .nothing
        · have hcurrent := latest_or_eq_of_labelled? hlabelled
          have hsupplied : current = entity → .entity current ∈
              (Operation.saveClassification entity classification).supplied := by
            rintro rfl
            exact List.mem_singleton_self _
          exact planned_of_planLabelled not_false (hcurrent.imp_right hsupplied) h rfl
  | purgeClassification entity classification =>
    simp only [Collection.plan, planPurgeClassification, Outcome.bind_eq_ok_iff] at h
    obtain ⟨⟨⟩, -, ⟨⟩, -, ⟨⟩, -, h⟩ := h
    split at h
    · rw [← Outcome.pure_eq_ok_iff.mp h]
      exact .nothing
    · rename_i current hfound
      split at h
      · rw [← Outcome.pure_eq_ok_iff.mp h]
        exact .nothing
      · have hcurrent := latest_of_found? hfound
        exact planned_of_planLabelled not_false (.inl hcurrent) h rfl

/-- An event is an accepted operation that submits what it has planned, or it leaves the store as
it was. -/
theorem planned_of_after (collection : Collection) (event : Event) :
    (collection.after event).store = collection.store ∨
      ∃ call fresh operation statements reply receipt, event = .operate call fresh operation ∧
        collection.execute call fresh operation = .ok (collection.after event, reply) ∧
          collection.Planned call fresh operation statements ∧
            collection.store.submit statements call.now =
              .ok ((collection.after event).store, receipt) := by
  refine (collection.submitted_of_after event).imp_right ?_
  rintro ⟨call, fresh, operation, plan, reply, receipt, hevent, hexecute, hplan, hsubmit⟩
  exact ⟨call, fresh, operation, plan.statements, reply, receipt, hevent, hexecute,
    planned_of_plan hplan, hsubmit⟩

/-- Whatever an operation plans, it evicts only or not at all. -/
theorem Planned.evictions_or_puts {operation : Operation} {statements : List Statement}
    (h : collection.Planned call fresh operation statements) :
    (∀ statement ∈ statements, ∃ guid, statement = .evict guid) ∨
      ∀ guid, .evict guid ∉ statements := by
  cases h with
  | purge | purgeCopy =>
    refine Or.inl fun statement hmem => ?_
    rcases Plan.mem_purge_iff.mp hmem with rfl | ⟨edge, -, rfl⟩ <;> exact ⟨_, rfl⟩
  | reIdentify => exact Or.inr (by simp [evict_not_mem_moves, Statement.create])
  | saveRelationship => exact Or.inr (by simp [Statement.putProxy, Statement.overwrite])
  | _ => exact Or.inr (by simp [Statement.create, Statement.putProxy, Statement.replace,
      Statement.overwrite])

/-- A transaction on the list leaves the revisions of an identity, removes them all or pushes one of
a record of this identity, which begins at the valid time of the commit. -/
theorem Planned.chain_of_submit {operation : Operation} {statements : List Statement}
    (h : collection.Planned call fresh operation statements) {store : Store} {receipt : Receipt}
    (hsubmit : collection.store.submit statements call.now = .ok (store, receipt)) (guid : Guid) :
    store.chain guid = collection.store.chain guid ∨ store.chain guid = [] ∨
      ∃ record, record.guid = guid ∧
        store.chain guid =
          (collection.store.chain guid).push record receipt.validTime call.now := by
  obtain ⟨-, rfl, rfl⟩ := Store.submit_eq_ok_iff.mp hsubmit
  rcases h.evictions_or_puts with hevictions | hputs
  · exact (Store.chain_foldl_apply_of_evictions hevictions guid).imp_right Or.inl
  · -- several statements may name the identity, and the last one of them alone is seen
    by_cases hnamed : ∃ statement ∈ statements, statement.guid = guid
    · obtain ⟨record, guard, -, hguid, hchain⟩ :=
        collection.store.chain_carriedOut (hputs guid) hnamed call.now
      exact Or.inr (Or.inr ⟨record, hguid, hchain⟩)
    · have hunnamed : ∀ statement ∈ statements, statement.guid ≠ guid :=
        fun statement hmem hguid => hnamed ⟨statement, hmem, hguid⟩
      exact Or.inl (collection.store.chain_carriedOut_of_ne hunnamed call.now)

/-- An event leaves the revisions of an identity, removes them all or pushes one. -/
theorem chain_after (collection : Collection) (event : Event) (guid : Guid) :
    (collection.after event).store.chain guid = collection.store.chain guid ∨
      (collection.after event).store.chain guid = [] ∨
        ∃ record validTime transactionTime, (collection.after event).store.chain guid =
          (collection.store.chain guid).push record validTime transactionTime := by
  rcases collection.planned_of_after event with
    hsame | ⟨call, fresh, operation, statements, reply, receipt, rfl, -, hplanned, hsubmit⟩
  · exact Or.inl (congrArg (Store.chain · guid) hsame)
  · refine (hplanned.chain_of_submit hsubmit guid).imp_right (Or.imp_right ?_)
    rintro ⟨record, -, hpush⟩
    exact ⟨record, _, _, hpush⟩

end Collection

end MetadataGraph

import MetadataGraph.Proofs.Collection.Planned

/-!
# Status and status on delete

A deleted instance keeps the status it was deleted in, which a restore brings back; a live instance
keeps none. If this holds of all records that callers hand over to be stored as they are, it holds
of all records that a collection ever stores: in their own headers and in those at the ends of
relationships. We prove:

* `Edits.hasStatusInvariant`: what a change makes of an element fits if all revisions do, as an undo
  brings one of them back and a restore a status on delete;
* `Planned.hasStatusInvariant`: all that an operation plans to write fits;
* `statusInvariant_run`: in every state of a run all revisions fit.
-/

namespace MetadataGraph

open Element Instance

/-! ## Headers and records -/

namespace Header

variable {header other : Header}

/-- Only status and status on delete count. -/
theorem HasStatusInvariant.congr (h : header.HasStatusInvariant)
    (hstatus : other.status = header.status)
    (hkept : other.statusOnDelete = header.statusOnDelete) : other.HasStatusInvariant := by
  rw [HasStatusInvariant, hstatus, hkept]
  exact h

/-- A live instance fits if it has no status on delete. -/
theorem HasStatusInvariant.of_live (hlive : header.status.isDeleted = false)
    (hnone : header.statusOnDelete = none) : header.HasStatusInvariant := by
  rw [HasStatusInvariant, if_neg (of_decide_eq_false hlive)]
  exact hnone

/-- A deleted instance fits if its status on delete is a live one. -/
theorem HasStatusInvariant.of_deleted (hdeleted : header.status = .deleted) {status : Status}
    (hkept : header.statusOnDelete = some status) (hlive : status.isDeleted = false) :
    header.HasStatusInvariant := by
  rw [HasStatusInvariant, if_pos hdeleted]
  exact ⟨status, hkept, of_decide_eq_false hlive⟩

/-- Exactly deleted instances have a status on delete, and it is a live one. -/
theorem hasStatusInvariant_iff :
    header.HasStatusInvariant ↔ (header.statusOnDelete.isSome ↔ header.status = .deleted) ∧
      header.statusOnDelete ≠ some .deleted := by
  unfold HasStatusInvariant
  split
  · rename_i hdeleted
    cases header.statusOnDelete <;> simp [hdeleted]
  · rename_i hlive
    cases header.statusOnDelete <;> simp [hlive]

/-- A live instance that fits has no status on delete. -/
theorem HasStatusInvariant.eq_none (h : header.HasStatusInvariant)
    (hlive : header.isDeleted = false) : header.statusOnDelete = none := by
  rw [HasStatusInvariant, if_neg (of_decide_eq_false hlive)] at h
  exact h

end Header

namespace Record

/-- The headers in a record: its own and those of the proxies at its ends. -/
def headers (record : Record) : List Header :=
  record.header :: record.endProxies.map (·.header)

/-- Status and status on delete fit in all headers of a record. -/
def HasStatusInvariant (record : Record) : Prop :=
  ∀ header ∈ record.headers, header.HasStatusInvariant

variable {record : Record}

theorem hasStatusInvariant_iff :
    record.HasStatusInvariant ↔ record.header.HasStatusInvariant ∧
      ∀ proxy ∈ record.endProxies, proxy.header.HasStatusInvariant := by
  simp [HasStatusInvariant, headers]

theorem HasStatusInvariant.header (h : record.HasStatusInvariant) :
    record.header.HasStatusInvariant := (hasStatusInvariant_iff.mp h).1

variable {α : Type} [Element α] [EndsApart α] {a : α}

/-- A header that fits can replace that of an element that fits. -/
theorem HasStatusInvariant.setHeader (h : (toRecord a).HasStatusInvariant) {header : Header}
    (hheader : header.HasStatusInvariant) :
    (toRecord (Instance.setHeader a header)).HasStatusInvariant := by
  rw [hasStatusInvariant_iff, header_toRecord, header_setHeader, EndsApart.endProxies_setHeader]
  exact ⟨hheader, (hasStatusInvariant_iff.mp h).2⟩

/-- Properties have no part in it. -/
theorem HasStatusInvariant.setProperties (h : (toRecord a).HasStatusInvariant)
    (properties : Properties) :
    (toRecord (Instance.setProperties a properties)).HasStatusInvariant := by
  rw [hasStatusInvariant_iff, header_toRecord] at h ⊢
  rwa [header_setProperties, EndsApart.endProxies_setProperties]

/-- The next version fits if its content does. -/
theorem HasStatusInvariant.nextVersion {prior next : α} {stamp : Stamp}
    (h : (toRecord a).HasStatusInvariant)
    (hnext : Versioning.nextVersion prior a stamp = .ok next) :
    (toRecord next).HasStatusInvariant := by
  obtain ⟨-, -, rfl⟩ := Versioning.nextVersion_eq_ok_iff.mp hnext
  have hown : (Instance.header a).HasStatusInvariant := header_toRecord a ▸ h.header
  exact h.setHeader (hown.congr rfl rfl)

/-- A retired element fits, as it was live before. -/
theorem HasStatusInvariant.retired (h : (toRecord a).HasStatusInvariant)
    (hlive : (Instance.header a).isDeleted = false) (stamp : Stamp) :
    (toRecord (Versioning.retired a stamp)).HasStatusInvariant :=
  h.setHeader (.of_deleted rfl rfl hlive)

/-- A renamed element fits. -/
theorem HasStatusInvariant.renamed (h : (toRecord a).HasStatusInvariant) (newGuid : Guid)
    (stamp : Stamp) : (toRecord (Versioning.renamed a newGuid stamp)).HasStatusInvariant := by
  have hown : (Instance.header a).HasStatusInvariant := header_toRecord a ▸ h.header
  exact h.setHeader (hown.congr rfl rfl)

end Record

/-- The records that callers hand over with an event to be stored as they are. -/
def Event.supplied : Event → List Record
  | addType _ => []
  | operate _ _ operation => operation.supplied

namespace Collection

variable {collection : Collection} {call : Call} {fresh guid : Guid}

/-! ## Changes -/

section Changes

variable {α : Type} [TypedElement α] [EndsApart α] {current : α}

/-- What a change makes of an element fits if all revisions do. -/
theorem Edits.hasStatusInvariant {edited : α} {change : Change}
    (h : collection.Edits guid current change edited)
    (hstore : collection.store.AllRevisions Record.HasStatusInvariant)
    (hlatest : collection.store.latest guid = some (toRecord current)) :
    (toRecord edited).HasStatusInvariant := by
  have hcurrent : (toRecord current).HasStatusInvariant := hstore.of_latest hlatest
  have hown : (header current).HasStatusInvariant := header_toRecord current ▸ hcurrent.header
  cases h with
  | status status hlive hstatus hallowed =>
    exact hcurrent.setHeader (.of_live hstatus (hown.eq_none hlive))
  | properties properties hlive hproperties => exact hcurrent.setProperties properties
  | undo previous hlive hprevious hformer =>
    obtain ⟨revision, hmem, hdata⟩ := exists_mem_chain_of_previous hprevious
    exact hdata ▸ hstore guid revision hmem
  | delete hlive => exact hcurrent.setHeader (.of_deleted rfl rfl hlive)
  | restore status hdeleted hstatus =>
    -- the status comes from the status on delete, which is a live one
    have hlive : status ≠ .deleted := by
      rintro rfl
      exact (Header.hasStatusInvariant_iff.mp hown).2 hstatus
    exact hcurrent.setHeader (.of_live (decide_eq_false hlive) rfl)
  | reType currentType newType typeRef hlive hsame htype hproperties hallowed hparts =>
    exact hcurrent.setHeader (hown.congr rfl rfl)
  | reHome currentHome newHome newHomeName hlive hsame hnew =>
    exact hcurrent.setHeader (hown.congr rfl rfl)

/-- The moves of a re-identification fit if all revisions do. -/
theorem hasStatusInvariant_of_mem_moves
    (hstore : collection.store.AllRevisions Record.HasStatusInvariant)
    (hlatest : collection.store.latest guid = some (toRecord current))
    (hlive : (header current).isDeleted = false) {kind : ElementKind}
    (hedges : collection.EdgesOfKind α kind guid) {newGuid : Guid} {stamp : Stamp} {record : Record}
    {guard : Guard} (hmem : .put record guard ∈ collection.moves current guid newGuid stamp) :
    record.HasStatusInvariant := by
  have hcurrent : (toRecord current).HasStatusInvariant := hstore.of_latest hlatest
  rcases mem_moves_iff.mp hmem with ⟨relationship, hedge, hput⟩ | hput
  · cases hput
    obtain ⟨-, hrelationship, -⟩ := (hedges relationship).mp hedge
    obtain ⟨hheader, hends⟩ := Record.hasStatusInvariant_iff.mp (hstore.of_latest hrelationship)
    -- the proxy that comes to the ends has the header of the renamed element
    have hrenamed : (collection.renamedProxy current newGuid stamp).header.HasStatusInvariant := by
      have h := (hcurrent.renamed newGuid stamp).header
      rwa [header_toRecord] at h
    refine Record.hasStatusInvariant_iff.mpr ⟨hheader.congr rfl rfl, fun proxy hproxy => ?_⟩
    rcases Relationship.eq_or_mem_of_mem_moved hproxy with rfl | hstays
    · exact hrenamed
    · exact hends proxy hstays
  · cases hput
    exact hcurrent.retired hlive stamp

end Changes

/-! ## Operations -/

/-- A new header fits if its status is a live one. -/
theorem hasStatusInvariant_newHeader (collection : Collection) (call : Call) (fresh : Guid)
    (typeRef : TypeRef) {status : Status} (hstatus : status.isDeleted = false)
    (source : Option ExternalSource) :
    (collection.newHeader call fresh typeRef status source).HasStatusInvariant := by
  cases source <;> exact .of_live hstatus rfl

/-- The proxies that must be stored with a relationship are some of those at its ends. -/
theorem mem_ends_of_mem_missingEnds {endOne endTwo proxy : Proxy}
    (h : proxy ∈ collection.missingEnds endOne endTwo) : proxy ∈ [endOne, endTwo] := by
  unfold missingEnds at h
  dsimp only at h
  generalize hmissing : List.filter _ [endOne, endTwo] = missing at h
  have hends : ∀ found ∈ missing, found ∈ [endOne, endTwo] := by
    rw [← hmissing]
    exact fun found hmem => (List.mem_filter.mp hmem).1
  split at h
  · split at h
    · exact hends proxy (List.mem_cons.mpr (Or.inl (List.mem_singleton.mp h)))
    · exact hends proxy h
  · exact hends proxy h

/-- An entity fits whose classifications change. -/
theorem hasStatusInvariant_labelled {operation : Operation} {current labelled : Entity}
    (hstore : collection.store.AllRevisions Record.HasStatusInvariant)
    (hsupplied : ∀ record ∈ operation.supplied, record.HasStatusInvariant)
    (hcurrent : collection.store.latest guid = some (.entity current) ∨
      .entity current ∈ operation.supplied)
    (hheader : labelled.header = current.header) :
    (Record.entity labelled).HasStatusInvariant := by
  have hfits : (Record.entity current).HasStatusInvariant :=
    hcurrent.elim hstore.of_latest (hsupplied _)
  refine Record.hasStatusInvariant_iff.mpr ⟨?_, fun _ hnone => absurd hnone List.not_mem_nil⟩
  exact hfits.header.congr (congrArg _ hheader) (congrArg _ hheader)

/-- All that an operation plans to write fits if all revisions do and all records that are handed
over with it. -/
theorem Planned.hasStatusInvariant {operation : Operation} {statements : List Statement}
    (h : collection.Planned call fresh operation statements)
    (hcoherent : collection.store.Coherent)
    (hstore : collection.store.AllRevisions Record.HasStatusInvariant)
    (hsupplied : ∀ record ∈ operation.supplied, record.HasStatusInvariant) {record : Record}
    {guard : Guard} (hmem : .put record guard ∈ statements) : record.HasStatusInvariant := by
  cases h with
  | nothing => cases hmem
  | addEntity entity typeRef hoperation hstatus =>
    cases List.mem_singleton.mp hmem
    refine Record.hasStatusInvariant_iff.mpr ⟨?_, fun _ hproxy => absurd hproxy List.not_mem_nil⟩
    exact hasStatusInvariant_newHeader collection call fresh typeRef hstatus _
  | addRelationship relationship typeRef endOne endTwo hoperation hstatus hone htwo =>
    cases List.mem_singleton.mp hmem
    -- the proxies at the ends have the headers of stored records
    obtain ⟨one, hone, -, hheader, -⟩ := latest_of_endpoint hone
    obtain ⟨two, htwo, -, hheader', -⟩ := latest_of_endpoint htwo
    have hheaderOne : endOne.header.HasStatusInvariant := hheader ▸ (hstore.of_latest hone).header
    have hheaderTwo : endTwo.header.HasStatusInvariant := hheader' ▸ (hstore.of_latest htwo).header
    have hown := hasStatusInvariant_newHeader collection call fresh typeRef hstatus
      relationship.source
    refine Record.hasStatusInvariant_iff.mpr ⟨hown, ?_⟩
    simpa [Record.endProxies] using ⟨hheaderOne, hheaderTwo⟩
  | addProxy proxy hoperation =>
    cases List.mem_singleton.mp hmem
    exact hsupplied _ (hoperation ▸ List.mem_singleton_self _)
  | change kind guid change current edited next hoperation hlatest hedits hnext =>
    cases List.mem_singleton.mp hmem
    cases kind with
    | entity => exact (hedits.hasStatusInvariant hstore hlatest).nextVersion hnext
    | relationship => exact (hedits.hasStatusInvariant hstore hlatest).nextVersion hnext
  | purge kind guid current hoperation hlatest hdeleted => exact absurd hmem Plan.put_not_mem_purge
  | reIdentify kind guid newGuid current hoperation hne hlatest hlive =>
    have hcurrent := hstore.of_latest hlatest
    rcases List.mem_append.mp hmem with hmem | hmem
    · cases kind with
      | entity =>
        exact hasStatusInvariant_of_mem_moves hstore hlatest hlive (edgesOfKind_entity hcoherent)
          hmem
      | relationship =>
        exact hasStatusInvariant_of_mem_moves hstore hlatest hlive edgesOfKind_relationship hmem
    · cases List.mem_singleton.mp hmem
      cases kind with
      | entity => exact hcurrent.renamed newGuid call.stamp
      | relationship => exact hcurrent.renamed newGuid call.stamp
  | relabel guid current labelled next hcurrent hheader hnext =>
    cases List.mem_singleton.mp hmem
    have hlabelled := hasStatusInvariant_labelled hstore hsupplied hcurrent hheader
    exact Record.HasStatusInvariant.nextVersion hlabelled hnext
  | relabelCopy guid current labelled hlifecycle hcurrent hheader =>
    cases List.mem_singleton.mp hmem
    exact hasStatusInvariant_labelled hstore hsupplied hcurrent hheader
  | saveEntity entity hoperation =>
    cases List.mem_singleton.mp hmem
    exact hsupplied _ (hoperation ▸ List.mem_singleton_self _)
  | saveRelationship relationship hoperation =>
    have hrelationship : (Record.relationship relationship).HasStatusInvariant :=
      hsupplied _ (hoperation ▸ List.mem_singleton_self _)
    rcases List.mem_append.mp hmem with hmem | hmem
    · -- the proxies that are missing are those at the ends
      obtain ⟨proxy, hmissing, hput⟩ := List.mem_map.mp hmem
      cases hput
      have hend := (Record.hasStatusInvariant_iff.mp hrelationship).2 proxy
        (mem_ends_of_mem_missingEnds hmissing)
      exact Record.hasStatusInvariant_iff.mpr ⟨hend, fun _ hnone => absurd hnone List.not_mem_nil⟩
    · cases List.mem_singleton.mp hmem
      exact hrelationship
  | purgeCopy kind guid type home hoperation => exact absurd hmem Plan.put_not_mem_purge

/-! ## Runs -/

/-- An event keeps all revisions fitting if all records fit that are handed over with it. -/
theorem allRevisions_after (hreachable : collection.Reachable)
    (hstore : collection.store.AllRevisions Record.HasStatusInvariant) {event : Event}
    (hsupplied : ∀ record ∈ event.supplied, record.HasStatusInvariant) :
    (collection.after event).store.AllRevisions Record.HasStatusInvariant := by
  rcases collection.planned_of_after event with
    hsame | ⟨call, fresh, operation, statements, reply, receipt, rfl, -, hplanned, hsubmit⟩
  · rwa [hsame]
  · obtain ⟨-, hnext, -⟩ := Store.submit_eq_ok_iff.mp hsubmit
    rw [← hnext]
    refine hstore.carriedOut (fun record guard hmem => ?_) call.now
    exact hplanned.hasStatusInvariant hreachable.store.coherent hstore hsupplied hmem

/-- A run keeps all revisions fitting if all records fit that are handed over in it. -/
theorem allRevisions_run (hreachable : collection.Reachable)
    (hstore : collection.store.AllRevisions Record.HasStatusInvariant) {events : List Event}
    (hsupplied : ∀ event ∈ events, ∀ record ∈ event.supplied, record.HasStatusInvariant) :
    (collection.run events).store.AllRevisions Record.HasStatusInvariant := by
  induction events generalizing collection with
  | nil => exact hstore
  | cons event events ih =>
    obtain ⟨hfirst, hrest⟩ := List.forall_mem_cons.mp hsupplied
    exact ih (hreachable.after event) (allRevisions_after hreachable hstore hfirst) hrest

/-- If status and status on delete fit in all records that callers hand over in a run, they fit in
all revisions that are ever stored in it: exactly deleted instances have a status on delete, and it
is a live one. -/
theorem statusInvariant_run (config : CollectionConfig) (catalog : TypeCatalog)
    {events : List Event}
    (hsupplied : ∀ event ∈ events, ∀ record ∈ event.supplied, ∀ header ∈ record.headers,
      header.checkStatus = .ok ())
    {part : List Event} (hpart : part <+: events) (guid : Guid) :
    ∀ revision ∈ (run ⟨config, catalog, .empty⟩ part).store.chain guid,
      ∀ header ∈ revision.data.headers, header.checkStatus = .ok () ∧
        (header.statusOnDelete.isSome ↔ header.status = .deleted) ∧
          header.statusOnDelete ≠ some .deleted := by
  intro revision hrevision header hheader
  have hfits : ∀ event ∈ part, ∀ record ∈ event.supplied, record.HasStatusInvariant :=
    fun event hevent record hrecord header hheader => Header.checkStatus_eq_ok_iff.mp
      (hsupplied event (hpart.subset hevent) record hrecord header hheader)
  have hall := allRevisions_run (Reachable.start config catalog) (Store.allRevisions_empty _) hfits
  have hinvariant : header.HasStatusInvariant := hall guid revision hrevision header hheader
  exact ⟨Header.checkStatus_eq_ok_iff.mpr hinvariant, Header.hasStatusInvariant_iff.mp hinvariant⟩

/-- A run in which an asset is prepared and deleted, and a copy comes in that is deleted already. -/
private def deletedEvents : List Event :=
  let call : Call := ⟨"ada", .earliest⟩
  let copy : Header := { Header.new "copy" ⟨"Asset", []⟩ "catalog" call.stamp with
    status := .deleted
    statusOnDelete := some .approved }
  [.addType ⟨"Asset", .entity, none, [], [], [], none, []⟩,
    .operate call "asset" (.addEntity ⟨"Asset", ∅, [], .active, none⟩),
    .operate call "" (.change .entity "asset" (.status .prepared)),
    .operate call "" (.change .entity "asset" .delete),
    .operate call "" (.saveEntity ⟨copy, ∅, ∅⟩)]

/-- Both are stored with the status that they were deleted in, and all revisions fit. -/
theorem statusInvariant_deletedAssets :
    let final := run ⟨default, ∅, .empty⟩ deletedEvents
    ((final.store.latest "asset").bind fun record => record.header.statusOnDelete) =
        some .prepared ∧
      ((final.store.latest "copy").bind fun record => record.header.statusOnDelete) =
        some .approved ∧
      ∀ guid, ∀ revision ∈ final.store.chain guid, ∀ header ∈ revision.data.headers,
        (header.statusOnDelete.isSome ↔ header.status = .deleted) ∧
          header.statusOnDelete ≠ some .deleted := by
  intro final
  have hsupplied : ∀ event ∈ deletedEvents, ∀ record ∈ event.supplied, ∀ header ∈ record.headers,
      header.checkStatus = .ok () := by
    simp [deletedEvents, Event.supplied, Operation.supplied, Record.headers, Record.endProxies,
      Record.header, Header.checkStatus, Header.isDeleted, Status.isDeleted]
  refine ⟨by decide, by decide, fun guid revision hrevision header hheader => ?_⟩
  exact (statusInvariant_run default ∅ hsupplied (List.prefix_refl _) guid revision hrevision
    header hheader).2

end Collection

end MetadataGraph

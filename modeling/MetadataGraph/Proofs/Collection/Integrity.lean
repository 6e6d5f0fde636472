import MetadataGraph.Proofs.Collection.Planned
import MetadataGraph.Proofs.Store.Sequential

/-!
# Referential integrity

A relationship should have entities at its ends, in full or by proxy, that are stored as long as the
relationship is. Creation asks for them, a re-identification moves relationships along and a purge
removes them with the entity. Only an undo may break this: it brings back the ends of the revision
before, of which one may have been re-identified and purged since. We prove:

* `endsStored_of_planned`: any other operation keeps entities at all ends;
* `not_endsStored_of_undo`: an undo that brings back a lost end leaves it without an entity;
* `endsStored_iff`: a run has entities at all ends throughout if and only if no undo in it brings
  back a lost end;
* `lostEnd_movedEvents`: there is a run that does.
-/

namespace MetadataGraph

open Element Instance

/-! ## Ends of records -/

namespace Records

/-- An entity is stored under an identity, in full or by proxy. -/
def HasEntity (records : Records) (guid : Guid) : Prop :=
  ∃ record, records guid = some record ∧ record.isEntityLike

/-- Entities are stored at all ends of a record. -/
def HasEnds (records : Records) (record : Record) : Prop :=
  ∀ proxy ∈ record.endProxies, records.HasEntity proxy.header.guid

/-- Entities are stored at all ends of all records. -/
def EndsStored (records : Records) : Prop :=
  ∀ guid record, records guid = some record → records.HasEnds record

variable {records stored : Records} {statements : List Statement}

/-- A relationship has only two ends, and no other record has any. -/
theorem hasEnds_relationship_iff {relationship : Relationship} :
    records.HasEnds (.relationship relationship) ↔
      records.HasEntity relationship.endOneGuid ∧ records.HasEntity relationship.endTwoGuid := by
  simp [HasEnds, Record.endProxies]

theorem hasEnds_of_isEntityLike {record : Record} (h : record.isEntityLike) :
    records.HasEnds record := by
  cases record with
  | relationship relationship => cases h
  | entity | proxy => exact fun _ hmem => absurd hmem List.not_mem_nil

/-- Where a relationship is stored, no entity is. -/
theorem not_hasEntity_of_relationship {guid : Guid} {relationship : Relationship}
    (h : records guid = some (.relationship relationship)) : ¬records.HasEntity guid := by
  rintro ⟨record, hrecord, hentity⟩
  cases h.symm.trans hrecord
  cases hentity

/-- A sequence without evictions that puts relationships only where no entity is keeps all
entities. -/
theorem HasEntity.of_puts (hrun : records.runAll statements = .ok stored)
    (hevict : ∀ guid, .evict guid ∉ statements)
    (hputs : ∀ record guard, .put record guard ∈ statements →
      record.isEntityLike ∨ ¬records.HasEntity record.guid) {guid : Guid}
    (h : records.HasEntity guid) : stored.HasEntity guid := by
  rcases runAll_cases hrun guid with ⟨hsame, -⟩ | ⟨-, hmem⟩ | ⟨record, guard, hrecord, hmem, rfl⟩
  · rwa [HasEntity, hsame]
  · exact absurd hmem (hevict guid)
  · rcases hputs record guard hmem with hentity | hnone
    · exact ⟨record, hrecord, hentity⟩
    · exact absurd h hnone

/-- Such a sequence keeps entities at all ends if they are stored, before or after it, at the ends
of the relationships that it puts. -/
theorem EndsStored.of_puts (h : records.EndsStored) (hrun : records.runAll statements = .ok stored)
    (hevict : ∀ guid, .evict guid ∉ statements)
    (hputs : ∀ record guard, .put record guard ∈ statements →
      record.isEntityLike ∨ ¬records.HasEntity record.guid ∧ ∀ proxy ∈ record.endProxies,
        records.HasEntity proxy.header.guid ∨ stored.HasEntity proxy.header.guid) :
    stored.EndsStored := by
  have hkept {guid : Guid} : records.HasEntity guid → stored.HasEntity guid :=
    .of_puts hrun hevict fun record guard hmem => (hputs record guard hmem).imp_right And.left
  intro guid record hstored
  rcases runAll_cases hrun guid with ⟨hsame, -⟩ | ⟨hnone, -⟩ | ⟨put, guard, hput, hmem, -⟩
  · rw [hsame] at hstored
    exact fun proxy hproxy => hkept (h guid record hstored proxy hproxy)
  · cases hstored.symm.trans hnone
  · cases hstored.symm.trans hput
    rcases hputs record guard hmem with hentity | ⟨-, hends⟩
    · exact hasEnds_of_isEntityLike hentity
    · exact fun proxy hproxy => (hends proxy hproxy).elim hkept id

/-- A relationship that references an identity has a proxy with this identity at an end. -/
theorem exists_endProxy_iff {record : Record} {guid : Guid} :
    (∃ proxy ∈ record.endProxies, proxy.header.guid = guid) ↔
      ∃ relationship, record = .relationship relationship ∧ relationship.references guid := by
  cases record <;> simp [Record.endProxies, Relationship.references]

/-- The removal of an identity together with all relationships that reference it keeps entities at
all ends. -/
theorem EndsStored.of_purge (h : records.EndsStored) {guid : Guid} {edges : List Relationship}
    (hrun : records.runAll (Plan.purge guid edges).statements = .ok stored)
    (hedges : ∀ edge ∈ edges, records edge.header.guid = some (.relationship edge))
    (hall : ∀ other relationship, records other = some (.relationship relationship) →
      relationship.references guid → ∃ edge ∈ edges, edge.header.guid = other) :
    stored.EndsStored := by
  intro other record hstored proxy hproxy
  rcases runAll_cases hrun other with ⟨hsame, hunnamed⟩ | ⟨hnone, -⟩ | ⟨_, _, -, hmem, -⟩
  · rw [hsame] at hstored
    have hentity : records.HasEntity proxy.header.guid := h other record hstored proxy hproxy
    -- what stands at the end is not evicted either
    rcases runAll_cases hrun proxy.header.guid with ⟨hend, -⟩ | ⟨-, hmem⟩ | ⟨_, _, -, hmem, -⟩
    · rwa [HasEntity, hend]
    · rcases Plan.mem_purge_iff.mp hmem with hevict | ⟨edge, hedge, hevict⟩
      · cases hevict
        obtain ⟨relationship, rfl, hreferences⟩ := exists_endProxy_iff.mp ⟨proxy, hproxy, rfl⟩
        obtain ⟨edge, hedge, hguid⟩ := hall other relationship hstored hreferences
        exact absurd hguid (hunnamed _ (Plan.mem_purge_iff.mpr (Or.inr ⟨edge, hedge, rfl⟩)))
      · rw [Statement.evict.inj hevict] at hentity
        exact absurd hentity (not_hasEntity_of_relationship (hedges edge hedge))
    · exact absurd hmem Plan.put_not_mem_purge
  · cases hstored.symm.trans hnone
  · exact absurd hmem Plan.put_not_mem_purge

end Records

/-- The operation is one of those that work on the collection's own instances and proxies, and not
on copies. -/
def Operation.IsLocal (operation : Operation) : Prop :=
  operation.IsLifecycle ∨ ∃ proxy, operation = .addProxy proxy

/-- The event is such an operation, or it adds a type. -/
def Event.IsLocal : Event → Prop
  | addType _ => True
  | operate _ _ operation => operation.IsLocal

namespace Collection

variable {collection : Collection} {call : Call} {fresh guid : Guid} {operation : Operation}
  {statements : List Statement} {stored : Records}

/-! ## Operations -/

/-- At an end of a new relationship an entity is stored. -/
theorem hasEntity_of_endpoint (hcoherent : collection.store.Coherent) {parameter : String}
    {proxy : Proxy} (h : collection.endpoint guid parameter = .ok proxy) :
    Records.HasEntity collection.store.latest proxy.header.guid := by
  obtain ⟨record, hlatest, hentity, -, -⟩ := latest_of_endpoint h
  rw [guid_of_endpoint hcoherent h]
  exact ⟨record, hlatest, hentity⟩

/-- A change of a relationship keeps entities at all ends, if what an undo brings back has its
ends. -/
theorem endsStored_of_edits (hcoherent : collection.store.Coherent)
    (hends : Records.EndsStored collection.store.latest) {current edited next : Relationship}
    {change : Change} (hlatest : collection.store.latest guid = some (.relationship current))
    (hedits : collection.Edits guid current change edited)
    (hnext : Versioning.nextVersion current edited call.stamp = .ok next)
    (hundo : change = .undo → Records.HasEnds collection.store.latest (.relationship edited))
    (hrun : Records.runAll collection.store.latest
      [.replace current.header.version (.relationship next)] = .ok stored) :
    stored.EndsStored := by
  refine hends.of_puts hrun (by simp [Statement.replace]) fun record guard hmem => Or.inr ?_
  cases List.mem_singleton.mp hmem
  have hguid : next.header.guid = guid :=
    (Versioning.Succeeds.of_nextVersion hnext).guid_eq.trans (hcoherent.guid_of_read hlatest)
  have hsame : (Record.relationship next).endProxies = (Record.relationship edited).endProxies :=
    Versioning.endProxies_nextVersion hnext
  constructor
  · rw [Record.guid, Record.header, hguid]
    exact Records.not_hasEntity_of_relationship hlatest
  · rw [hsame]
    intro proxy hproxy
    by_cases hchange : change = .undo
    · exact Or.inl (hundo hchange proxy hproxy)
    · have hcurrent : (Record.relationship edited).endProxies =
          (Record.relationship current).endProxies := hedits.endProxies_eq hchange
      rw [hcurrent] at hproxy
      exact Or.inl (hends guid _ hlatest proxy hproxy)

/-- A re-identification of an entity keeps entities at all ends. -/
theorem endsStored_of_reIdentify_entity (hcoherent : collection.store.Coherent)
    (hends : Records.EndsStored collection.store.latest) {current : Entity} {newGuid : Guid}
    (hrun : Records.runAll collection.store.latest (collection.moves current guid newGuid
      call.stamp ++ [.create (.entity (Versioning.renamed current newGuid call.stamp))]) =
        .ok stored) : stored.EndsStored := by
  refine hends.of_puts hrun (by simp [evict_not_mem_moves, Statement.create]) ?_
  intro record guard hmem
  rcases List.mem_append.mp hmem with hmem | hmem
  · rcases mem_moves_iff.mp hmem with ⟨edge, hedge, hput⟩ | hput
    · cases hput
      obtain ⟨hlatest, -⟩ := hcoherent.mem_edges_iff.mp hedge
      refine Or.inr ⟨Records.not_hasEntity_of_relationship hlatest, fun proxy hproxy => ?_⟩
      -- an end is moved to the new identity, which the last statement creates, or stays
      rcases Relationship.eq_or_mem_of_mem_moved hproxy with rfl | hstays
      · exact Or.inr ⟨_, Records.runAll_concat_put hrun, rfl⟩
      · exact Or.inl (hends _ _ hlatest proxy hstays)
    · cases hput
      exact Or.inl rfl
  · cases List.mem_singleton.mp hmem
    exact Or.inl rfl

/-- A re-identification of a relationship keeps entities at all ends. -/
theorem endsStored_of_reIdentify_relationship (hcoherent : collection.store.Coherent)
    (hends : Records.EndsStored collection.store.latest) {current : Relationship} {newGuid : Guid}
    (hlatest : collection.store.latest guid = some (.relationship current))
    (hrun : Records.runAll collection.store.latest (collection.moves current guid newGuid
      call.stamp ++ [.create (.relationship (Versioning.renamed current newGuid call.stamp))]) =
        .ok stored) : stored.EndsStored := by
  have hcurrent := hends guid _ hlatest
  have hguid : current.header.guid = guid := hcoherent.guid_of_read hlatest
  refine hends.of_puts hrun (by simp [evict_not_mem_moves, Statement.create]) ?_
  intro record guard hmem
  -- both versions have the ends of the current one
  rcases List.mem_append.mp hmem with hmem | hmem
  · rcases mem_moves_iff.mp hmem with ⟨edge, hedge, -⟩ | hput
    · cases hedge
    cases hput
    have hretired : (toRecord (Versioning.retired current call.stamp)).guid = guid := hguid
    refine Or.inr ⟨?_, fun proxy hproxy => Or.inl (hcurrent proxy hproxy)⟩
    rw [hretired]
    exact Records.not_hasEntity_of_relationship hlatest
  · cases List.mem_singleton.mp hmem
    obtain ⟨hnone, -⟩ := Records.runAll_create hrun (evict_not_mem_moves current newGuid call.stamp)
    refine Or.inr ⟨?_, fun proxy hproxy => Or.inl (hcurrent proxy hproxy)⟩
    rintro ⟨record, hrecord, -⟩
    cases hnone.symm.trans hrecord

/-- An operation on the collection's own instances and proxies keeps entities at all ends, if what
an undo of a relationship brings back has its ends. -/
theorem endsStored_of_planned (hcoherent : collection.store.Coherent)
    (h : collection.Planned call fresh operation statements) (hlocal : operation.IsLocal)
    (hends : Records.EndsStored collection.store.latest)
    (hundo : ∀ guid previous, operation = .change .relationship guid .undo →
      collection.previous Relationship guid = .ok previous →
        Records.HasEnds collection.store.latest (.relationship previous))
    (hrun : Records.runAll collection.store.latest statements = .ok stored) :
    stored.EndsStored := by
  -- what is not a relationship can be put anywhere
  have hentity {record : Record} {guard : Guard}
      (hrun : Records.runAll collection.store.latest [.put record guard] = .ok stored)
      (hentity : record.isEntityLike) : stored.EndsStored := by
    refine hends.of_puts hrun (by simp) fun other _ hmem => Or.inl ?_
    cases List.mem_singleton.mp hmem
    exact hentity
  cases h with
  | nothing =>
    cases hrun
    exact hends
  | addEntity entity typeRef hoperation hstatus => exact hentity hrun rfl
  | addRelationship relationship typeRef endOne endTwo hoperation hstatus hone htwo =>
    refine hends.of_puts hrun (by simp [Statement.create]) fun record guard hmem => Or.inr ?_
    cases List.mem_singleton.mp hmem
    constructor
    · -- the guard of the creation has passed
      have hnone := Records.eq_none_of_create hrun List.mem_cons_self (by simp [Statement.create])
      rintro ⟨record, hrecord, -⟩
      cases hnone.symm.trans hrecord
    · intro proxy hproxy
      simp only [Record.endProxies, List.mem_cons, List.not_mem_nil, or_false] at hproxy
      rcases hproxy with rfl | rfl
      · exact Or.inl (hasEntity_of_endpoint hcoherent hone)
      · exact Or.inl (hasEntity_of_endpoint hcoherent htwo)
  | addProxy proxy hoperation => exact hentity hrun rfl
  | change kind guid change current edited next hoperation hlatest hedits hnext =>
    cases kind with
    | entity => exact hentity hrun rfl
    | relationship =>
      refine endsStored_of_edits hcoherent hends hlatest hedits hnext ?_ hrun
      rintro rfl
      cases hedits with
      | undo previous hlive hprevious hformer => exact hundo guid edited hoperation hprevious
  | purge kind guid current hoperation hlatest hdeleted =>
    cases kind with
    | entity =>
      refine hends.of_purge hrun (fun edge hedge => (hcoherent.mem_edges_iff.mp hedge).1) ?_
      intro other relationship hother hreferences
      have hguid : relationship.header.guid = other := hcoherent.guid_of_read hother
      exact ⟨relationship, hcoherent.mem_edges_iff.mpr ⟨hguid ▸ hother, hreferences⟩, hguid⟩
    | relationship =>
      refine hends.of_purge hrun (fun edge hedge => absurd hedge List.not_mem_nil) ?_
      intro other relationship hother hreferences
      -- no relationship stands at the end of another one
      obtain ⟨proxy, hproxy, hguid⟩ := Records.exists_endProxy_iff.mpr ⟨_, rfl, hreferences⟩
      have hend := hends other _ hother proxy hproxy
      rw [hguid] at hend
      exact absurd hend (Records.not_hasEntity_of_relationship hlatest)
  | reIdentify kind guid newGuid current hoperation hne hlatest hlive =>
    cases kind with
    | entity => exact endsStored_of_reIdentify_entity hcoherent hends hrun
    | relationship => exact endsStored_of_reIdentify_relationship hcoherent hends hlatest hrun
  | relabel guid current labelled next hcurrent hheader hnext => exact hentity hrun rfl
  | relabelCopy guid current labelled hlifecycle hcurrent hheader => exact hentity hrun rfl
  | saveEntity entity hoperation => exact hentity hrun rfl
  | saveRelationship relationship hoperation =>
    rw [hoperation] at hlocal
    exact absurd hlocal (by simp [Operation.IsLocal, Operation.IsLifecycle])
  | purgeCopy kind guid type home hoperation =>
    rw [hoperation] at hlocal
    exact absurd hlocal (by simp [Operation.IsLocal, Operation.IsLifecycle])

/-- An undo that brings back a lost end leaves the relationship without an entity there. -/
theorem not_endsStored_of_undo {next : Collection} {reply : Reply} {former : Relationship}
    (hexecute : collection.execute call fresh (.change .relationship guid .undo) =
      .ok (next, reply))
    (hprevious : collection.previous Relationship guid = .ok former)
    (hlost : ¬Records.HasEnds collection.store.latest (.relationship former)) :
    ¬Records.EndsStored next.store.latest := by
  obtain ⟨plan, hplan, hcommit⟩ := execute_eq_ok_iff.mp hexecute
  have hchange : collection.planChange Relationship call guid .undo = .ok plan := hplan
  obtain ⟨current, edited, undone, -, hedits, hnext, rfl⟩ :=
    planChange_edits (by simp) (by simp) hchange
  -- what is written has the ends of the revision before
  have hsame : (Record.relationship undone).endProxies =
      (Record.relationship former).endProxies := by
    cases hedits with
    | undo _ _ hedited _ =>
      cases hprevious.symm.trans hedited
      exact Versioning.endProxies_nextVersion hnext
  obtain ⟨receipt, hsubmit, -, -⟩ := (commit_eq_ok_iff (List.cons_ne_nil _ _)).mp hcommit
  have hrun := Store.runAll_of_submit hsubmit
  have hwritten : next.store.latest undone.header.guid = some (.relationship undone) := by
    rw [← List.nil_append (Plan.replace current undone).statements] at hrun
    exact Records.runAll_concat_put hrun
  intro hends
  refine hlost fun proxy hproxy => ?_
  obtain ⟨record, hrecord, hentity⟩ := hends _ _ hwritten proxy (hsame ▸ hproxy)
  -- an entity that is stored afterwards was stored before, as only a relationship is written
  rcases Records.runAll_cases hrun proxy.header.guid with
    ⟨hkept, -⟩ | ⟨hnone, -⟩ | ⟨put, guard, hput, hmem, -⟩
  · exact ⟨record, hkept ▸ hrecord, hentity⟩
  · cases hnone.symm.trans hrecord
  · cases List.mem_singleton.mp hmem
    cases hput.symm.trans hrecord
    cases hentity

/-! ## Runs -/

/-- The event is an accepted undo of a relationship, and at an end that it brings back no entity is
stored any more. -/
def BringsBackLostEnd (collection : Collection) (event : Event) : Prop :=
  ∃ call fresh guid next reply former,
    event = .operate call fresh (.change .relationship guid .undo) ∧
    collection.execute call fresh (.change .relationship guid .undo) = .ok (next, reply) ∧
      collection.previous Relationship guid = .ok former ∧
        ¬Records.HasEnds collection.store.latest (.relationship former)

/-- An event on the collection's own instances and proxies keeps entities at all ends exactly if it
does not bring back a lost end. -/
theorem endsStored_after_iff (hreachable : collection.Reachable) {event : Event}
    (hlocal : event.IsLocal) (hends : Records.EndsStored collection.store.latest) :
    Records.EndsStored (collection.after event).store.latest ↔
      ¬collection.BringsBackLostEnd event := by
  constructor
  · rintro hafter ⟨call, fresh, guid, next, reply, former, rfl, hexecute, hprevious, hlost⟩
    rw [after_eq_of_ok hexecute] at hafter
    exact not_endsStored_of_undo hexecute hprevious hlost hafter
  · intro hundo
    rcases collection.planned_of_after event with
      hsame | ⟨call, fresh, operation, statements, reply, receipt, rfl, hexecute, hplanned, hsubmit⟩
    · rwa [hsame]
    · refine endsStored_of_planned hreachable.store.coherent hplanned hlocal hends ?_
        (Store.runAll_of_submit hsubmit)
      rintro guid former rfl hprevious
      by_contra hlost
      exact hundo ⟨call, fresh, guid, _, reply, former, rfl, hexecute, hprevious, hlost⟩

/-- In a run from an empty store of operations on the collection's own instances and proxies,
entities are stored at all ends of all relationships throughout if and only if no undo in it brings
back an end at which no entity is stored any more. -/
theorem endsStored_iff (config : CollectionConfig) (catalog : TypeCatalog) {events : List Event}
    (hlocal : ∀ event ∈ events, event.IsLocal) :
    (∀ part, part <+: events →
      Records.EndsStored (run ⟨config, catalog, .empty⟩ part).store.latest) ↔
    ∀ part event, part ++ [event] <+: events →
      ¬(run ⟨config, catalog, .empty⟩ part).BringsBackLostEnd event := by
  refine throughout_iff (fun collection => Records.EndsStored collection.store.latest)
    (fun collection event => ¬collection.BringsBackLostEnd event) ?_
    fun part event hevent hends => ?_
  · rintro guid record hrecord
    cases hrecord
  · have hmem : event ∈ events := hevent.subset (List.mem_append_right _ List.mem_cons_self)
    exact endsStored_after_iff ((Reachable.start config catalog).run part) (hlocal event hmem) hends

/-- A run in which an entity at the end of a relationship is re-identified and purged. -/
private def movedEvents : List Event :=
  let call : Call := ⟨"ada", .earliest⟩
  [.addType ⟨"Asset", .entity, none, [], [], [], none, []⟩,
    .addType ⟨"Link", .relationship, none, [], [], [], none, []⟩,
    .operate call "asset" (.addEntity ⟨"Asset", ∅, [], .active, none⟩),
    .operate call "other" (.addEntity ⟨"Asset", ∅, [], .active, none⟩),
    .operate call "link" (.addRelationship ⟨"Link", ∅, "asset", "other", .active, none⟩),
    .operate call "" (.change .entity "asset" (.reIdentify "item")),
    .operate call "" (.change .entity "asset" .purge)]

/-- There is no undo in it, so that entities are stored at all ends throughout, also when the
relationship has come to the new identity. -/
theorem endsStored_movedEvents :
    (∀ part, part <+: movedEvents →
      Records.EndsStored (run ⟨default, ∅, .empty⟩ part).store.latest) ∧
    ∃ relationship, (run ⟨default, ∅, .empty⟩ movedEvents).store.latest "link" =
      some (.relationship relationship) ∧ relationship.endOneGuid = "item" := by
  have hlocal : ∀ event ∈ movedEvents, event.IsLocal := by
    simp [movedEvents, Event.IsLocal, Operation.IsLocal, Operation.IsLifecycle]
  refine ⟨(endsStored_iff default ∅ hlocal).mpr ?_, _, rfl, by decide⟩
  rintro part event hevent ⟨call, fresh, guid, next, reply, former, rfl, -⟩
  have hmem := hevent.subset (List.mem_append_right _ List.mem_cons_self)
  simp [movedEvents] at hmem

/-- An undo after this run brings back an end at which nothing is stored any more. -/
theorem lostEnd_movedEvents :
    let undo : Event := .operate ⟨"ada", .earliest⟩ "" (.change .relationship "link" .undo)
    let final := run ⟨default, ∅, .empty⟩ (movedEvents ++ [undo])
    (∀ event ∈ movedEvents ++ [undo], event.IsLocal) ∧
      (∃ relationship, final.store.latest "link" = some (.relationship relationship) ∧
        relationship.endOneGuid = "asset") ∧
      final.store.latest "asset" = none ∧ ¬Records.EndsStored final.store.latest := by
  intro undo final
  have hasset : final.store.latest "asset" = none := by decide
  have hlink : ∃ relationship, final.store.latest "link" = some (.relationship relationship) ∧
      relationship.endOneGuid = "asset" := ⟨_, rfl, by decide⟩
  refine ⟨?_, hlink, hasset, ?_⟩
  · simp [undo, movedEvents, Event.IsLocal, Operation.IsLocal, Operation.IsLifecycle]
  · intro hends
    obtain ⟨relationship, hlatest, hend⟩ := hlink
    obtain ⟨record, hrecord, -⟩ := (Records.hasEnds_relationship_iff.mp (hends _ _ hlatest)).1
    rw [hend, hasset] at hrecord
    cases hrecord

end Collection

end MetadataGraph

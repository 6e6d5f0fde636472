import Mathlib.Data.List.Induction
import MetadataGraph.Proofs.Collection.Copies

/-!
# Kinds of records under an identity

A proxy may be followed by its entity in full. Otherwise all that is stored under an identity until
it is purged should be of one kind. What the collection writes of its own keeps to this, since it is
made of what is stored or has a fresh identity. What comes from other collections need not: nothing
stops an entity that has the identity of a relationship, or the other way round. We prove:

* `keepsKinds_of_planned`: an operation that nothing comes with keeps the kinds;
* `keepsKinds_after_iff`: an event keeps the kinds if and only if nothing comes with it under an
  identity of the other kind;
* `kindStable_iff`: a run keeps the kinds throughout if and only if none of its events brings such a
  thing, and then the kinds along all revisions are stable;
* `lostKind_linkedEvents`: there is a run in which a relationship is replaced by a proxy.
-/

namespace MetadataGraph

open Element Instance

/-! ## Kinds -/

/-- A record of the older kind may be followed by one of the newer kind. -/
def RecordKind.MayBecome (older newer : RecordKind) : Prop :=
  newer = older ∨ older = .proxy ∧ newer = .entity

instance (older newer : RecordKind) : Decidable (older.MayBecome newer) :=
  inferInstanceAs (Decidable (_ ∨ _))

theorem RecordKind.MayBecome.refl (kind : RecordKind) : kind.MayBecome kind := Or.inl rfl

theorem RecordKind.MayBecome.trans {first second third : RecordKind}
    (h : first.MayBecome second) (h' : second.MayBecome third) : first.MayBecome third := by
  rcases h with rfl | ⟨rfl, rfl⟩
  · exact h'
  · rcases h' with rfl | ⟨hproxy, -⟩
    · exact Or.inr ⟨rfl, rfl⟩
    · cases hproxy

/-- A record may be followed by another one if both or none stand for an entity, unless it is the
entity in full and the other one is not. -/
theorem Record.mayBecome_iff {older newer : Record} :
    older.kind.MayBecome newer.kind ↔
      newer.isEntityLike = older.isEntityLike ∧ (older.kind = .entity → newer.kind = .entity) := by
  cases older <;> cases newer <;> simp [kind, isEntityLike, RecordKind.MayBecome]

/-! ## Chains -/

namespace Chain

/-- The kinds of the revisions, newest first. -/
def kinds (chain : Chain) : List RecordKind := chain.map fun revision => revision.data.kind

/-- Every revision is of a kind that may follow those of all earlier ones. -/
def KindStable (chain : Chain) : Prop :=
  chain.kinds.Pairwise fun newer older => older.MayBecome newer

theorem kinds_closeAt (time : Instant) (chain : Chain) :
    (closeAt time chain).kinds = chain.kinds := by
  cases chain <;> rfl

/-- A drop leaves kinds out and adds none. -/
theorem kinds_dropAt_sublist (time : Instant) (chain : Chain) :
    (dropAt time chain).kinds.Sublist chain.kinds := by
  refine List.Sublist.map _ ?_
  cases chain with
  | nil => exact List.Sublist.refl _
  | cons newest older =>
    rw [dropAt]
    split
    · exact List.sublist_cons_self newest older
    · exact List.Sublist.refl _

/-- The kinds stay stable if what is pushed may follow what is current. -/
theorem KindStable.push {chain : Chain} (h : chain.KindStable) (hlinked : chain.Linked)
    {record : Record} (hcurrent : ∀ older, chain.visible? .now = some older →
      older.kind.MayBecome record.kind) (validTime transactionTime : Instant) :
    (chain.push record validTime transactionTime).KindStable := by
  -- what may follow the newest revision may follow all that the newest one may follow
  have hall : ∀ kind ∈ chain.kinds, kind.MayBecome record.kind := by
    cases chain with
    | nil => exact fun _ hmem => absurd hmem List.not_mem_nil
    | cons newest older =>
      have hnewest := hcurrent newest.data hlinked.visible?_now
      intro kind hmem
      rcases List.mem_cons.mp hmem with rfl | hmem
      · exact hnewest
      · exact ((List.pairwise_cons.mp h).1 kind hmem).trans hnewest
  have hsublist := kinds_dropAt_sublist validTime chain
  have hpush : (chain.push record validTime transactionTime).kinds =
      record.kind :: (dropAt validTime chain).kinds :=
    congrArg (record.kind :: ·) (kinds_closeAt validTime _)
  rw [KindStable, hpush]
  exact List.pairwise_cons.mpr ⟨fun kind hmem => hall kind (hsublist.subset hmem),
    List.Pairwise.sublist hsublist h⟩

end Chain

/-- The kinds of all identities are stable. -/
def Store.KindStable (store : Store) : Prop := ∀ guid, (store.chain guid).KindStable

/-! ## Records -/

namespace Records

/-- What is stored under an identity that was in use may follow what was stored there before. -/
def KeepsKinds (records stored : Records) : Prop :=
  ∀ guid older newer, records guid = some older → stored guid = some newer →
    older.kind.MayBecome newer.kind

theorem KeepsKinds.refl (records : Records) : records.KeepsKinds records := by
  intro guid older newer holder hnewer
  cases holder.symm.trans hnewer
  exact .refl _

/-- A sequence keeps the kinds if each record that it puts may follow what was there at its
start. -/
theorem KeepsKinds.of_puts {records stored : Records} {statements : List Statement}
    (hrun : records.runAll statements = .ok stored)
    (hputs : ∀ record guard, .put record guard ∈ statements → ∀ older,
      records record.guid = some older → older.kind.MayBecome record.kind) :
    records.KeepsKinds stored := by
  intro guid older newer holder hnewer
  rcases runAll_cases hrun guid with ⟨hsame, -⟩ | ⟨hnone, -⟩ | ⟨record, guard, hrecord, hmem, rfl⟩
  · rw [hsame] at hnewer
    exact KeepsKinds.refl records guid older newer holder hnewer
  · cases hnone.symm.trans hnewer
  · cases hrecord.symm.trans hnewer
    exact hputs newer guard hmem older holder

end Records

namespace Collection

variable {collection next : Collection} {call : Call} {fresh guid : Guid} {operation : Operation}
  {statements : List Statement} {stored : Records} {reply : Reply}

/-! ## Operations -/

/-- What is written under the identity of a stored element of the same kind may follow it. -/
theorem mayBecome_of_guid_eq (hcoherent : collection.store.Coherent) (kind : ElementKind)
    {current next : kind.Carrier}
    (hlatest : collection.store.latest guid = some (toRecord current))
    (hsame : Instance.guid next = Instance.guid current) {older : Record}
    (holder : collection.store.latest (toRecord next).guid = some older) :
    older.kind.MayBecome (toRecord next).kind := by
  have hguid : (toRecord next).guid = guid := by
    rw [guid_toRecord]
    exact hsame.trans (hcoherent.element_guid_of_read hlatest)
  rw [hguid] at holder
  cases hlatest.symm.trans holder
  rw [ElementKind.kind_toRecord, ElementKind.kind_toRecord]
  exact .refl _

/-- An operation that nothing comes with keeps the kinds. -/
theorem keepsKinds_of_planned (hcoherent : collection.store.Coherent)
    (h : collection.Planned call fresh operation statements) (hsupplied : operation.supplied = [])
    (hrun : Records.runAll collection.store.latest statements = .ok stored) :
    Records.KeepsKinds collection.store.latest stored := by
  refine .of_puts hrun fun record guard hmem older holder => ?_
  -- a creation has found nothing
  have hcreated {record : Record} (hmem : .create record ∈ statements)
      (hevict : ∀ guid, .evict guid ∉ statements) :
      collection.store.latest record.guid = none :=
    Records.eq_none_of_create hrun hmem (hevict _)
  cases h with
  | nothing => cases hmem
  | addEntity entity typeRef hoperation hstatus =>
    cases List.mem_singleton.mp hmem
    cases (hcreated hmem (by simp [Statement.create])).symm.trans holder
  | addRelationship relationship typeRef endOne endTwo hoperation hstatus hone htwo =>
    cases List.mem_singleton.mp hmem
    cases (hcreated hmem (by simp [Statement.create])).symm.trans holder
  | addProxy proxy hoperation | saveEntity entity hoperation
  | saveRelationship relationship hoperation =>
    -- the caller hands something over with each of these
    rw [hoperation] at hsupplied
    cases hsupplied
  | change kind guid change current edited next hoperation hlatest hedits hnext =>
    cases List.mem_singleton.mp hmem
    have hsame := (Versioning.Succeeds.of_nextVersion hnext).guid_eq
    exact mayBecome_of_guid_eq hcoherent kind hlatest hsame holder
  | purge | purgeCopy => exact absurd hmem Plan.put_not_mem_purge
  | reIdentify kind guid newGuid current hoperation hne hlatest hlive =>
    rcases List.mem_append.mp hmem with hmem | hmem
    · rcases mem_moves_iff.mp hmem with ⟨relationship, hedge, hput⟩ | hput
      · -- a relationship that is moved has the next version under its own identity
        cases hput
        have hrelationship : collection.store.latest relationship.header.guid =
            some (.relationship relationship) := by
          cases kind with
          | entity => exact (hcoherent.mem_edges_iff.mp hedge).1
          | relationship => exact absurd hedge List.not_mem_nil
        cases hrelationship.symm.trans holder
        exact .refl _
      · cases hput
        have hsame := Versioning.guid_retired current call.stamp
        exact mayBecome_of_guid_eq hcoherent kind hlatest hsame holder
    · cases List.mem_singleton.mp hmem
      have hnone := hcreated (List.mem_append_right _ hmem)
        (by simp [evict_not_mem_moves, Statement.create])
      cases hnone.symm.trans holder
  | relabel guid current labelled next hcurrent hheader hnext =>
    cases List.mem_singleton.mp hmem
    -- nothing is handed over, so that the entity is the one that is stored
    rw [hsupplied] at hcurrent
    have hsame := (Versioning.Succeeds.of_nextVersion hnext).guid_eq
    exact mayBecome_of_guid_eq hcoherent .entity (hcurrent.resolve_right List.not_mem_nil) hsame
      holder
  | relabelCopy guid current labelled hlifecycle hcurrent hheader =>
    cases List.mem_singleton.mp hmem
    rw [hsupplied] at hcurrent
    have hsame : labelled.header.guid = current.header.guid := congrArg Header.guid hheader
    exact mayBecome_of_guid_eq hcoherent .entity (hcurrent.resolve_right List.not_mem_nil) hsame
      holder

/-- An entity in full may follow what stands for an entity. -/
private theorem mayBecome_entity {older : Record} (entity : Entity) (h : older.isEntityLike) :
    older.kind.MayBecome (Record.entity entity).kind :=
  Record.mayBecome_iff.mpr ⟨h.symm, fun _ => rfl⟩

/-- An operation that something comes with keeps the kinds of the identities that it does not
cross. -/
theorem mayBecome_of_supplied (hcoherent : collection.store.Coherent)
    (hsupplied : operation.supplied ≠ [])
    (hexecute : collection.execute call fresh operation = .ok (next, reply))
    (hcross : ¬collection.CrossesAt (.operate call fresh operation) guid) {older newer : Record}
    (holder : collection.store.latest guid = some older)
    (hnewer : next.store.latest guid = some newer) : older.kind.MayBecome newer.kind := by
  have hkept (hsame : next.store.latest guid = collection.store.latest guid) :
      older.kind.MayBecome newer.kind := by
    rw [hsame] at hnewer
    cases holder.symm.trans hnewer
    exact .refl _
  -- what comes with the operation meets what is of the same kind, as it does not cross
  have hentity (hreply : reply ≠ .copied .unchanged) (hbrings : operation.BringsEntity guid) :
      older.isEntityLike := by
    by_contra hkind
    exact hcross (crossesAt_of_entity hexecute hreply holder (eq_false_of_ne_true hkind) hbrings)
  -- a proxy is only put where no entity in full is, so that it does not replace one either
  have hproxy (hbrings : operation.BringsEntity guid) (hreply : reply ≠ .copied .unchanged)
      (hnone : ∀ entity, collection.store.latest guid ≠ some (.entity entity)) (proxy : Proxy) :
      older.kind.MayBecome (Record.proxy proxy).kind := by
    refine Record.mayBecome_iff.mpr ⟨(hentity hreply hbrings).symm, fun hfull => ?_⟩
    cases older with
    | entity entity => exact absurd holder (hnone entity)
    | proxy | relationship => cases hfull
  have hput {target : Guid} {record : Record}
      (hnext : next.store.latest =
        Function.update collection.store.latest target (some record))
      (hfollows : target = guid → older.kind.MayBecome record.kind) :
      older.kind.MayBecome newer.kind := by
    by_cases hguid : target = guid
    · rw [hnext, hguid, Function.update_self] at hnewer
      cases hnewer
      exact hfollows hguid
    · exact hkept (by rw [hnext, Function.update_of_ne (Ne.symm hguid)])
  cases operation with
  | addProxy proxy =>
    obtain ⟨rfl, ⟨hnone, hnext⟩ | ⟨-, hnext⟩⟩ := latest_of_addProxy hexecute
    · exact hput hnext fun hguid => hproxy hguid (by simp) (hguid ▸ hnone) proxy
    · exact hkept (congrFun hnext guid)
  | saveEntity entity =>
    obtain ⟨rfl, hnext, -⟩ := latest_of_saveEntity hexecute
    exact hput hnext fun hguid => mayBecome_entity entity (hentity (by simp) hguid)
  | saveRelationship relationship =>
    obtain ⟨rfl, hsaved⟩ := latest_of_saveRelationship hexecute
    -- it writes its own identity and those of its ends, of which it may be one itself
    by_cases hguid : relationship.header.guid = guid
    · subst hguid
      cases hsaved.own.symm.trans hnewer
      cases older with
      | relationship => exact .refl _
      | entity | proxy =>
        exact absurd (crossesAt_of_relationship hexecute (by simp) holder rfl rfl) hcross
    · by_cases hneeds : collection.NeedsProxy relationship guid
      · obtain ⟨proxy, hstored⟩ := hsaved.proxy guid hguid hneeds
        cases hstored.symm.trans hnewer
        exact hproxy ⟨hguid, hneeds.1⟩ (by simp) hneeds.2 proxy
      · exact hkept (hsaved.others guid hguid hneeds)
  | saveClassification incoming copy =>
    obtain ⟨-, ⟨rfl, hnext⟩ | ⟨rfl, current, -, hnext⟩⟩ :=
      latest_of_saveClassification hcoherent hexecute
    · exact hkept (congrFun hnext guid)
    · exact hput hnext fun hguid => mayBecome_entity _ (hentity (by simp) hguid)
  | _ => exact absurd rfl hsupplied

/-! ## Events -/

/-- An event keeps the kinds if and only if nothing comes with it under an identity of the other
kind. -/
theorem keepsKinds_after_iff (hreachable : collection.Reachable) (event : Event) :
    Records.KeepsKinds collection.store.latest (collection.after event).store.latest ↔
      ∀ guid, ¬collection.CrossesAt event guid := by
  have hcoherent := hreachable.store.coherent
  constructor
  · intro hkeeps guid hcross
    obtain ⟨stored, new, hstored, hnew, hne⟩ := hcross.exists_latest hcoherent
    exact hne (Record.mayBecome_iff.mp (hkeeps guid stored new hstored hnew)).1
  · intro hcross
    rcases collection.planned_of_after event with
      hsame | ⟨call, fresh, operation, statements, reply, receipt, rfl, hexecute, hplanned, hsubmit⟩
    · rw [hsame]
      exact .refl _
    · by_cases hsupplied : operation.supplied = []
      · exact keepsKinds_of_planned hcoherent hplanned hsupplied (Store.runAll_of_submit hsubmit)
      · intro guid older newer holder hnewer
        exact mayBecome_of_supplied hcoherent hsupplied hexecute (hcross guid) holder hnewer

/-- The kinds along all revisions stay stable over an event that keeps the kinds. -/
theorem kindStable_after (hreachable : collection.Reachable) (hstable : collection.store.KindStable)
    {event : Event}
    (hkeeps : Records.KeepsKinds collection.store.latest (collection.after event).store.latest) :
    (collection.after event).store.KindStable := by
  intro guid
  rcases collection.chain_after event guid with
    hsame | hnil | ⟨record, validTime, transactionTime, hpush⟩
  · rw [hsame]
    exact hstable guid
  · rw [hnil]
    exact List.Pairwise.nil
  · have hrecord : (collection.after event).store.latest guid = some record := by
      rw [Store.latest, Store.read, hpush]
      exact Chain.visible?_push_now _ _ _ _
    rw [hpush]
    exact (hstable guid).push (hreachable.store.coherent.linked guid)
      (fun older holder => hkeeps guid older record holder hrecord) validTime transactionTime

/-! ## Runs -/

/-- Nothing comes with any event of a run under an identity of the other kind. -/
def CrossFree (start : Collection) (events : List Event) : Prop :=
  ∀ part event, part ++ [event] <+: events → ∀ guid, ¬(start.run part).CrossesAt event guid

/-- In a run from an empty store every event keeps the kinds if and only if nothing comes with any
of them under an identity of the other kind. Then the kinds along all revisions are stable: until
an identity is purged, a proxy may be followed by its entity in full, and everything else only by
what is of the same kind. -/
theorem kindStable_iff (config : CollectionConfig) (catalog : TypeCatalog) (events : List Event) :
    let start : Collection := ⟨config, catalog, .empty⟩
    ((∀ part event, part ++ [event] <+: events → Records.KeepsKinds (start.run part).store.latest
        (start.run (part ++ [event])).store.latest) ↔ start.CrossFree events) ∧
      (start.CrossFree events → (start.run events).store.KindStable) := by
  intro start
  have hreachable (part : List Event) : (start.run part).Reachable :=
    (Reachable.start config catalog).run part
  have hstep (part : List Event) (event : Event) :
      Records.KeepsKinds (start.run part).store.latest
          (start.run (part ++ [event])).store.latest ↔
        ∀ guid, ¬(start.run part).CrossesAt event guid := by
    rw [run_append]
    exact keepsKinds_after_iff (hreachable part) event
  refine ⟨?_, fun hfree => ?_⟩
  · exact forall_congr' fun part => forall_congr' fun event => imp_congr_right fun _ =>
      hstep part event
  · -- by induction on the run, the last event of which meets chains that are stable
    induction events using List.reverseRecOn with
    | nil => exact fun _ => List.Pairwise.nil
    | append_singleton events event ih =>
      have hkeeps := (hstep events event).mpr (hfree events event (List.prefix_refl _))
      rw [run_append] at hkeeps ⊢
      refine kindStable_after (hreachable events) (ih fun part earlier hpart => ?_) hkeeps
      exact hfree part earlier (hpart.trans (List.prefix_append _ _))

/-- The proxy of an entity that another collection owns. -/
private def remoteProxy (guid : Guid) : Proxy :=
  ⟨Header.new guid ⟨"Asset", []⟩ "remote" ⟨"bob", .earliest⟩, ∅⟩

/-- A run in which an entity comes from another collection, first by proxy and then in full. -/
private def copiedEvents : List Event :=
  let call : Call := ⟨"ada", .earliest⟩
  [.addType ⟨"Asset", .entity, none, [], [], [], none, []⟩,
    .operate call "" (.addProxy (remoteProxy "asset")),
    .operate call "" (.saveEntity (remoteProxy "asset").toEntity)]

/-- No relationship is stored in it, so that nothing crosses, and the entity follows its proxy. -/
theorem kindStable_copiedEvents :
    let final := run ⟨default, ∅, .empty⟩ copiedEvents
    final.store.KindStable ∧ (final.store.chain "asset").kinds = [.entity, .proxy] := by
  refine ⟨(kindStable_iff default ∅ copiedEvents).2 ?_, by decide⟩
  rintro part event ⟨rest, hevents⟩ guid
    ⟨call, fresh, operation, next, reply, stored, rfl, -, -, hstored, hbrings⟩
  rcases part with _ | ⟨first, _ | ⟨second, _ | ⟨third, part⟩⟩⟩
  · simp [copiedEvents] at hevents
  · -- nothing is stored when the proxy comes
    simp only [copiedEvents, List.cons_append, List.nil_append, List.cons.injEq] at hevents
    obtain ⟨rfl, -, -⟩ := hevents
    cases hstored
  · -- when the entity comes, only its proxy is stored
    simp only [copiedEvents, List.cons_append, List.nil_append, List.cons.injEq,
      Event.operate.injEq] at hevents
    obtain ⟨rfl, rfl, ⟨-, -, rfl⟩, -⟩ := hevents
    split at hbrings
    · exact hbrings
    · rename_i hkind
      cases hbrings
      cases hstored
      exact hkind rfl
  · simp [copiedEvents] at hevents

/-- A run that leads to a relationship between two entities. -/
private def linkedEvents : List Event :=
  let call : Call := ⟨"ada", .earliest⟩
  [.addType ⟨"Asset", .entity, none, [], [], [], none, []⟩,
    .addType ⟨"Link", .relationship, none, [], [], [], none, []⟩,
    .operate call "asset" (.addEntity ⟨"Asset", ∅, [], .active, none⟩),
    .operate call "other" (.addEntity ⟨"Asset", ∅, [], .active, none⟩),
    .operate call "link" (.addRelationship ⟨"Link", ∅, "asset", "other", .active, none⟩)]

/-- A proxy that comes after this run under the identity of the relationship replaces it. -/
theorem lostKind_linkedEvents :
    let addProxy : Event := .operate ⟨"ada", .earliest⟩ "" (.addProxy (remoteProxy "link"))
    let linked := run ⟨default, ∅, .empty⟩ linkedEvents
    let final := run ⟨default, ∅, .empty⟩ (linkedEvents ++ [addProxy])
    (final.store.chain "link").kinds = [.proxy, .relationship] ∧
      ¬Records.KeepsKinds linked.store.latest final.store.latest ∧ ¬final.store.KindStable := by
  intro addProxy linked final
  have hkinds : (final.store.chain "link").kinds = [.proxy, .relationship] := by decide
  refine ⟨hkinds, fun hkeeps => ?_, fun hstable => ?_⟩
  · exact absurd (hkeeps "link" _ (.proxy (remoteProxy "link")) rfl (by decide)) (by decide)
  · have hlink := hstable "link"
    rw [Chain.KindStable, hkinds] at hlink
    exact absurd hlink (by decide)

end Collection

end MetadataGraph

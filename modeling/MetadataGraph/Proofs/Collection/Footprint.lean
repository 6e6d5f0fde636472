import MetadataGraph.Proofs.Collection.Copies
import MetadataGraph.Proofs.Collection.LateCommit

/-!
# The footprint of an operation

An operation is about one identity and writes there. Only four kinds of operations write anywhere
else: a re-identification writes under the new identity, it moves the relationships at an entity and
both ways to remove an entity take them away, and with the copy of a relationship come proxies for
its ends. All is written in one commit. We prove:

* `inFootprint_of_plan`: what an operation plans to write is in its footprint;
* `Commits.of_submit`: a commit adds one revision at most to every identity, at one time;
* `execute_oneCommit`: a refused operation leaves everything as it was, and an accepted one makes
  one commit at most, which changes no identity that is not in its footprint.
-/

namespace MetadataGraph

open Element Instance

/-! ## Footprints -/

namespace Operation

/-- The identity that an operation is about; for one that creates an instance the fresh one. -/
def target (fresh : Guid) : Operation → Guid
  | addEntity _ | addRelationship _ => fresh
  | addProxy proxy => proxy.header.guid
  | change _ guid _ | classify guid .. | declassify guid _ | reclassify guid .. => guid
  | saveEntity entity | saveClassification entity _ | purgeClassification entity _ =>
    entity.header.guid
  | saveRelationship relationship => relationship.header.guid
  | purgeCopy _ guid .. => guid

/-- The operation writes to the relationships at an entity too. -/
def TakesEdges : Operation → Prop
  | change .entity _ .purge | change .entity _ (.reIdentify _) | purgeCopy .entity .. => True
  | _ => False

end Operation

namespace Collection

/-- The identities that an operation may write to, in a collection as it is before. -/
inductive InFootprint (collection : Collection) (fresh : Guid) (operation : Operation) :
    Guid → Prop
  | target : InFootprint collection fresh operation (operation.target fresh)
  | renamed (kind : ElementKind) (guid newGuid : Guid)
      (hoperation : operation = .change kind guid (.reIdentify newGuid)) :
      InFootprint collection fresh operation newGuid
  | edge (guid : Guid) (htakes : operation.TakesEdges)
      (hlinks : Records.Links collection.store.latest guid (operation.target fresh)) :
      InFootprint collection fresh operation guid
  | missingEnd (relationship : Relationship) (guid : Guid)
      (hoperation : operation = .saveRelationship relationship)
      (hneeds : collection.NeedsProxy relationship guid) :
      InFootprint collection fresh operation guid

variable {collection next : Collection} {call : Call} {fresh guid : Guid} {plan : Plan}
  {operation : Operation}

/-! ## What operations plan to write -/

/-- What is written under the identity that an operation is about is in its footprint. -/
theorem InFootprint.of_eq_target (h : guid = operation.target fresh) :
    collection.InFootprint fresh operation guid := by
  rw [h]
  exact .target

section Elements

variable {α : Type} [TypedElement α] {kind : ElementKind}

/-- A relationship at an element is in the footprint of an operation that takes it along. -/
theorem InFootprint.of_edge (htarget : operation.target fresh = guid)
    (hedges : collection.EdgesOfKind α kind guid) (htakes : kind = .entity → operation.TakesEdges)
    {edge : Relationship} (hedge : edge ∈ edges α collection.store guid) :
    collection.InFootprint fresh operation edge.header.guid := by
  subst htarget
  obtain ⟨hkind, hlatest, hreferences⟩ := (hedges edge).mp hedge
  exact .edge _ (htakes hkind) ⟨edge, hlatest, hreferences⟩

/-- What is purged with an element is in the footprint of an operation that takes the relationships
at it along. -/
theorem inFootprint_of_purge (htarget : operation.target fresh = guid)
    (hedges : collection.EdgesOfKind α kind guid)
    (htakes : kind = .entity → operation.TakesEdges) :
    ∀ statement ∈ (Plan.purge guid (edges α collection.store guid)).statements,
      collection.InFootprint fresh operation statement.guid := by
  intro statement hmem
  rcases Plan.mem_purge_iff.mp hmem with rfl | ⟨edge, hedge, rfl⟩
  · exact .of_eq_target htarget.symm
  · exact .of_edge htarget hedges htakes hedge

/-- What a re-identification plans to write is in its footprint. -/
theorem inFootprint_of_reIdentify (hcoherent : collection.store.Coherent)
    (hedges : collection.EdgesOfKind α kind guid) {newGuid : Guid}
    (h : collection.planReIdentify α call guid newGuid = .ok plan) :
    ∀ statement ∈ plan.statements,
      collection.InFootprint fresh (.change kind guid (.reIdentify newGuid)) statement.guid := by
  obtain ⟨current, hlatest, -, hleft, hstatements, -⟩ := planReIdentify_eq_ok h
  rw [hstatements]
  intro statement hmem
  rcases List.mem_append.mp hmem with hmem | hmem
  · rcases mem_moves_iff.mp hmem with ⟨edge, hedge, rfl⟩ | rfl
    · have htakes : kind = .entity →
          (Operation.change kind guid (.reIdentify newGuid)).TakesEdges := by
        rintro rfl
        trivial
      -- the relationship keeps its identity when it is moved
      exact show collection.InFootprint fresh _ edge.header.guid from
        .of_edge rfl hedges htakes hedge
    · exact .of_eq_target (Statement.revises_replace hcoherent hlatest
        (Versioning.succeeds_retired hleft.element call.stamp)).1
  · cases List.mem_singleton.mp hmem
    have hguid : (toRecord (Versioning.renamed current newGuid call.stamp)).guid = newGuid := by
      rw [Record.guid, header_toRecord, Versioning.renamed, header_setHeader]
    exact .renamed kind guid _ (congrArg (Operation.change kind guid <| .reIdentify ·) hguid.symm)

end Elements

/-- What a change of an element plans to write is in its footprint. -/
theorem inFootprint_of_planChange (hcoherent : collection.store.Coherent) {kind : ElementKind}
    {change : Change} (h : collection.planChange kind.Carrier call guid change = .ok plan) :
    ∀ statement ∈ plan.statements,
      collection.InFootprint fresh (.change kind guid change) statement.guid := by
  by_cases hpurge : change = .purge
  · subst hpurge
    rw [planPurge_eq_ok h]
    cases kind with
    | entity => exact inFootprint_of_purge rfl (edgesOfKind_entity hcoherent) fun _ => trivial
    | relationship =>
      exact inFootprint_of_purge rfl edgesOfKind_relationship fun hkind => absurd hkind (by decide)
  by_cases hidentity : ∃ newGuid, change = .reIdentify newGuid
  · obtain ⟨newGuid, rfl⟩ := hidentity
    cases kind with
    | entity => exact inFootprint_of_reIdentify hcoherent (edgesOfKind_entity hcoherent) h
    | relationship => exact inFootprint_of_reIdentify hcoherent edgesOfKind_relationship h
  · obtain ⟨statement, hstatements, hguid, -⟩ :=
      planChange_revises hcoherent hpurge (not_exists.mp hidentity) h
    rw [hstatements]
    exact List.forall_mem_singleton.mpr (.of_eq_target hguid)

/-- What is planned to relabel an entity is written to the entity. -/
private theorem inFootprint_of_planRelabelled (hcoherent : collection.store.Coherent)
    {current relabelled : Entity}
    (hcurrent : collection.forLabelling call (operation.target fresh) = .ok current)
    (h : planRelabelled call current relabelled = .ok plan) :
    ∀ statement ∈ plan.statements, collection.InFootprint fresh operation statement.guid := by
  obtain ⟨statement, hstatements, hguid, -⟩ := planRelabelled_revises hcoherent hcurrent h
  rw [hstatements]
  exact List.forall_mem_singleton.mpr (.of_eq_target hguid)

/-- An entity is put under the identity that an operation is about. -/
private theorem inFootprint_of_put {record : Record} {guard : Guard}
    (hguid : record.guid = operation.target fresh) :
    ∀ statement ∈ [Statement.put record guard],
      collection.InFootprint fresh operation statement.guid :=
  List.forall_mem_singleton.mpr (.of_eq_target hguid)

/-- Whatever an operation plans to write is in its footprint. -/
theorem inFootprint_of_plan (hcoherent : collection.store.Coherent)
    (h : collection.plan call fresh operation = .ok plan) :
    ∀ statement ∈ plan.statements, collection.InFootprint fresh operation statement.guid := by
  -- no check counts here, but those that find the record whose identity is written to
  cases operation with
  | addEntity entity =>
    simp only [Collection.plan, planAddEntity, Outcome.bind_eq_ok_iff, Outcome.pure_eq_ok_iff] at h
    obtain ⟨⟨⟩, -, ⟨⟩, -, typeRef, -, rfl⟩ := h
    exact inFootprint_of_put (collection.newHeader_eq call fresh typeRef _ _).1
  | addRelationship relationship =>
    simp only [Collection.plan, planAddRelationship, Outcome.bind_eq_ok_iff,
      Outcome.pure_eq_ok_iff] at h
    obtain ⟨⟨⟩, -, ⟨⟩, -, ⟨⟩, -, ⟨⟩, -, typeRef, -, ⟨⟩, -, ⟨⟩, -, endOne, -, endTwo, -, ⟨⟩, -,
      rfl⟩ := h
    exact inFootprint_of_put (collection.newHeader_eq call fresh typeRef _ _).1
  | addProxy proxy =>
    rcases planAddProxy_eq_ok h with rfl | ⟨rfl, -⟩
    · exact inFootprint_of_put rfl
    · exact List.forall_mem_nil _
  | change kind target change => exact inFootprint_of_planChange hcoherent h
  | classify target name source origin properties =>
    simp only [Collection.plan, planClassify, Outcome.bind_eq_ok_iff] at h
    obtain ⟨⟨⟩, -, current, hcurrent, ⟨⟩, -, ⟨⟩, -, hplan⟩ := h
    exact inFootprint_of_planRelabelled hcoherent hcurrent hplan
  | declassify target name =>
    simp only [Collection.plan, planDeclassify, Outcome.bind_eq_ok_iff] at h
    obtain ⟨⟨⟩, -, current, hcurrent, ⟨⟩, -, hplan⟩ := h
    exact inFootprint_of_planRelabelled hcoherent hcurrent hplan
  | reclassify target name properties =>
    simp only [Collection.plan, planReclassify, Outcome.bind_eq_ok_iff] at h
    obtain ⟨⟨⟩, -, current, hcurrent, classification, -, ⟨⟩, -, hplan⟩ := h
    exact inFootprint_of_planRelabelled hcoherent hcurrent hplan
  | saveEntity entity =>
    obtain ⟨rfl, -⟩ := planSaveEntity_eq_ok h
    exact inFootprint_of_put rfl
  | saveRelationship relationship =>
    obtain ⟨rfl, -⟩ := planSaveRelationship_eq_ok h
    intro statement hmem
    rcases List.mem_append.mp hmem with hmem | hmem
    · obtain ⟨proxy, hproxy, rfl⟩ := List.mem_map.mp hmem
      exact .missingEnd relationship _ rfl (exists_mem_missingEnds_iff.mp ⟨proxy, hproxy, rfl⟩)
    · cases List.mem_singleton.mp hmem
      exact .target
  | purgeCopy kind target type home =>
    simp only [Collection.plan, planPurgeCopy, Outcome.bind_eq_ok_iff, Outcome.pure_eq_ok_iff] at h
    obtain ⟨⟨⟩, -, ⟨⟩, -, ⟨⟩, -, header, -, ⟨⟩, -, rfl⟩ := h
    cases kind with
    | entity => exact inFootprint_of_purge rfl (edgesOfKind_entity hcoherent) fun _ => trivial
    | relationship =>
      exact inFootprint_of_purge rfl edgesOfKind_relationship fun hkind => absurd hkind (by decide)
  | saveClassification entity classification =>
    obtain ⟨-, rfl | ⟨current, guard, hlabelled, rfl⟩⟩ := planSaveClassification_eq_ok h
    · exact List.forall_mem_nil _
    · have hguid := @guid_relabelled collection call current
        (current.withClassification classification) rfl
      refine inFootprint_of_put (hguid.trans ?_)
      -- whether it is the stored entity or the one that comes, it has the identity that comes
      rcases latest_or_eq_of_labelled? hlabelled with hlatest | rfl
      · exact hcoherent.guid_of_read hlatest
      · rfl
  | purgeClassification entity classification =>
    rcases planPurgeClassification_eq_ok h with rfl | ⟨current, guard, hlatest, rfl⟩
    · exact List.forall_mem_nil _
    · have hguid := @guid_relabelled collection call current
        (current.withoutClassification classification.name) rfl
      exact inFootprint_of_put (hguid.trans (hcoherent.guid_of_read hlatest))

/-! ## One commit -/

/-- An operation has made one commit, with the statements of its plan. At the time of the commit an
identity gets one revision at most, unless all that is kept of it is removed. -/
structure Commits (collection next : Collection) (call : Call) (fresh : Guid)
    (operation : Operation) (receipt : Receipt) : Prop where
  /-- The transaction is the one planned. -/
  submitted : ∃ plan, collection.plan call fresh operation = .ok plan ∧
    collection.store.submit plan.statements call.now = .ok (next.store, receipt)
  /-- The revisions that it writes begin at its valid time. -/
  written : ∀ guid, next.store.chain guid = collection.store.chain guid ∨
    next.store.chain guid = [] ∨ ∃ record, record.guid = guid ∧
      next.store.chain guid = (collection.store.chain guid).push record receipt.validTime call.now

/-- A plan that is submitted is carried out in one commit. -/
theorem Commits.of_submit {receipt : Receipt}
    (hplan : collection.plan call fresh operation = .ok plan)
    (hsubmit : collection.store.submit plan.statements call.now = .ok (next.store, receipt)) :
    collection.Commits next call fresh operation receipt :=
  ⟨⟨plan, hplan, hsubmit⟩, (planned_of_plan hplan).chain_of_submit hsubmit⟩

/-- A commit changes only identities in the footprint of its operation. -/
theorem Commits.inFootprint (hcoherent : collection.store.Coherent) {receipt : Receipt}
    (h : collection.Commits next call fresh operation receipt)
    (hne : next.store.chain guid ≠ collection.store.chain guid) :
    collection.InFootprint fresh operation guid := by
  obtain ⟨plan, hplan, hsubmit⟩ := h.submitted
  obtain ⟨-, hnext, -⟩ := Store.submit_eq_ok_iff.mp hsubmit
  -- no statement names an identity outside, and what is not named keeps its revisions
  by_contra houtside
  refine hne ?_
  rw [← hnext]
  refine collection.store.chain_carriedOut_of_ne (fun statement hmem hguid => ?_) call.now
  exact houtside (hguid ▸ inFootprint_of_plan hcoherent hplan statement hmem)

/-- An operation is refused by its plan, before anything is submitted, or by a guard of the
statements that it plans. -/
theorem refused_of_execute {failure : Failure}
    (h : collection.execute call fresh operation = .error failure) :
    collection.plan call fresh operation = .error failure ∨
      ∃ plan, collection.plan call fresh operation = .ok plan ∧
        Records.RefusedAt collection.store.latest plan.statements failure := by
  refine (Outcome.bind_eq_error_iff.mp h).imp_right ?_
  -- a transaction is refused as its statements are when they are carried out one by one
  rintro ⟨plan, hplan, hcommit⟩
  have hsubmit := submit_of_commit_eq_error hcommit
  exact ⟨plan, hplan,
    Records.runAll_eq_error_iff.mp (Store.submit_eq_error_iff_runAll.mp hsubmit)⟩

/-- A refused operation leaves the collection as it was, with its store, index and clock. An
accepted one leaves all of it as it was too or makes one commit, which changes nothing but the
store; and it changes the revisions only of identities in its footprint. -/
theorem execute_oneCommit (h : collection.Reachable) (call : Call) (fresh : Guid)
    (operation : Operation) :
    (∀ failure, collection.execute call fresh operation = .error failure →
      collection.after (.operate call fresh operation) = collection ∧
        (collection.plan call fresh operation = .error failure ∨
          ∃ plan, collection.plan call fresh operation = .ok plan ∧
            Records.RefusedAt collection.store.latest plan.statements failure)) ∧
    ∀ next reply, collection.execute call fresh operation = .ok (next, reply) →
      collection.after (.operate call fresh operation) = next ∧
      (next = collection ∨ next = { collection with store := next.store } ∧
        ∃ receipt, collection.Commits next call fresh operation receipt) ∧
      ∀ guid, next.store.chain guid ≠ collection.store.chain guid →
        collection.InFootprint fresh operation guid := by
  constructor
  · exact fun failure hexecute => ⟨after_eq_of_error hexecute, refused_of_execute hexecute⟩
  · intro next reply hexecute
    refine ⟨after_eq_of_ok hexecute, ?_⟩
    obtain ⟨plan, hplan, hcommit⟩ := execute_eq_ok_iff.mp hexecute
    rcases submit_of_commit hcommit with ⟨-, rfl⟩ | ⟨⟨receipt, hsubmit⟩, hstore⟩
    -- a plan without statements is not submitted at all
    · exact ⟨Or.inl rfl, fun guid hne => absurd rfl hne⟩
    · have hcommits : collection.Commits next call fresh operation receipt :=
        .of_submit hplan hsubmit
      exact ⟨Or.inr ⟨hstore, receipt, hcommits⟩,
        fun guid => hcommits.inFootprint h.store.coherent⟩

/-- Two assets and a relationship between them. -/
private def joinedAssets : List Event :=
  let call : Call := ⟨"ada", .earliest⟩
  [.addType ⟨"Asset", .entity, none, [], [], [], none, []⟩,
    .addType ⟨"Link", .relationship, none, [], [], [], none, []⟩,
    .operate call "asset" (.addEntity ⟨"Asset", ∅, [], .active, none⟩),
    .operate call "other" (.addEntity ⟨"Asset", ∅, [], .active, none⟩),
    .operate call "link" (.addRelationship ⟨"Link", ∅, "asset", "other", .active, none⟩)]

/-- The collection with them. -/
private def joined : Collection := run ⟨default, ∅, .empty⟩ joinedAssets

/-- A new identity for the first asset. -/
private def renameTo (guid : Guid) : Operation := .change .entity "asset" (.reIdentify guid)

/-- A re-identification of the first asset is one commit, which leaves the second one alone but
moves the relationship. To the identity of the second asset it is refused, and changes nothing. -/
theorem execute_oneCommit_joined :
    (∃ next reply receipt,
      joined.execute ⟨"ada", .earliest⟩ "" (renameTo "item") = .ok (next, reply) ∧
      joined.Commits next ⟨"ada", .earliest⟩ "" (renameTo "item") receipt ∧
      (next.store.chain "link").length = 2 ∧
      next.store.chain "other" = joined.store.chain "other") ∧
    ∃ error, joined.execute ⟨"ada", .earliest⟩ "" (renameTo "other") = .error (.refused error) ∧
      joined.after (.operate ⟨"ada", .earliest⟩ "" (renameTo "other")) = joined := by
  have hreachable : joined.Reachable := (Reachable.start default ∅).run joinedAssets
  have hlink : (joined.store.chain "link").length = 1 := by decide
  constructor
  · have hlinks : ∃ next reply,
        joined.execute ⟨"ada", .earliest⟩ "" (renameTo "item") = .ok (next, reply) ∧
          (next.store.chain "link").length = 2 := ⟨_, _, rfl, rfl⟩
    obtain ⟨next, reply, hexecute, hmoved⟩ := hlinks
    obtain ⟨-, heffect, hfootprint⟩ :=
      (execute_oneCommit hreachable _ _ (renameTo "item")).2 next reply hexecute
    obtain ⟨receipt, hcommits⟩ :
        ∃ receipt, joined.Commits next ⟨"ada", .earliest⟩ "" (renameTo "item") receipt := by
      rcases heffect with rfl | ⟨-, hcommits⟩
      · cases hlink.symm.trans hmoved
      · exact hcommits
    refine ⟨next, reply, receipt, hexecute, hcommits, hmoved, ?_⟩
    -- the second asset is neither the target nor the new identity, and no relationship either
    by_contra hother
    have hin := hfootprint "other" hother
    generalize hguid : "other" = guid at hin
    cases hin with
    | target => exact absurd hguid (by decide)
    | renamed kind guid newGuid hoperation =>
      cases hoperation
      exact absurd hguid (by decide)
    | edge guid htakes hlinks =>
      obtain ⟨relationship, hlatest, -⟩ := hlinks
      rw [← hguid] at hlatest
      cases hlatest
    | missingEnd relationship guid hoperation hneeds => cases hoperation
  · have hclash : ∃ error, joined.execute ⟨"ada", .earliest⟩ "" (renameTo "other") =
        .error (.refused error) := ⟨_, rfl⟩
    obtain ⟨error, hexecute⟩ := hclash
    exact ⟨error, hexecute,
      ((execute_oneCommit hreachable _ _ (renameTo "other")).1 _ hexecute).1⟩

end Collection

end MetadataGraph

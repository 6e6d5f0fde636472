import MetadataGraph.Proofs.Collection.Interleaving
import MetadataGraph.Proofs.Collection.Planned
import MetadataGraph.Proofs.Collection.ReIdentify

/-!
# Re-identifications and purges that come late

A re-identification moves the relationships at an entity and a purge removes them: those that were
there when the plan was made. A relationship that is added before the plan is submitted does not
change the version of the entity, and an eviction has no guard at all. So both leave behind what
they have not seen, and a purge removes an element that was restored in the meantime. We prove:

* `unreferenced_iff`: which relationships are left at an entity by writes that were planned before;
* `late_commit`: a late re-identification or purge leaves no relationship at its entity if and only
  if it has seen all of them, and a purge, which is never refused, removes what is deleted if it has
  not changed since;
* `late_commit_race`: there are runs in which relationships are left behind and in which a live
  entity is removed.
-/

namespace MetadataGraph

open Element Instance

namespace Records

/-- No relationship references an identity. -/
def Unreferenced (records : Records) (target : Guid) : Prop :=
  ∀ guid relationship, records guid = some (.relationship relationship) →
    relationship.references target = false

/-- A relationship under an identity references another one. -/
def Links (records : Records) (guid target : Guid) : Prop :=
  ∃ relationship, records guid = some (.relationship relationship) ∧ relationship.references target

/-- Whatever links to an identity now, other than what is stored there itself, did so before. -/
def LinksSeen (before now : Records) (target : Guid) : Prop :=
  ∀ guid, guid ≠ target → now.Links guid target → before.Links guid target

variable {before records stored : Records} {statements : List Statement} {target : Guid}

/-- Statements are planned that write to an identity and to all relationships that link to it, and
leave no link to it in what they put. They leave no relationship that links to it if and only if the
plan has seen all that do. -/
theorem unreferenced_iff (hrun : records.runAll statements = .ok stored)
    (htarget : ∃ statement ∈ statements, statement.guid = target)
    (hall : ∀ guid, before.Links guid target → ∃ statement ∈ statements, statement.guid = guid)
    (honly : ∀ statement ∈ statements, statement.guid = target ∨
      before.Links statement.guid target ∨ records statement.guid = none)
    (hputs : ∀ relationship guard, .put (.relationship relationship) guard ∈ statements →
      relationship.references target = false) :
    stored.Unreferenced target ↔ before.LinksSeen records target := by
  constructor
  · rintro hstored guid hne ⟨relationship, hrelationship, hreferences⟩
    by_contra hunseen
    -- no statement names a relationship that the plan has not seen, so it is left
    have hunnamed : ∀ statement ∈ statements, statement.guid ≠ guid := by
      rintro statement hmem rfl
      rcases honly statement hmem with heq | hlinks | hnone
      · exact hne heq
      · exact hunseen hlinks
      · cases hnone.symm.trans hrelationship
    rcases runAll_cases hrun guid with ⟨hsame, -⟩ | ⟨-, hmem⟩ | ⟨_, _, -, hmem, hguid⟩
    · rw [hrelationship] at hsame
      exact absurd hreferences (Bool.eq_false_iff.mp (hstored guid relationship hsame))
    · exact hunnamed _ hmem rfl
    · exact hunnamed _ hmem hguid
  · intro hseen guid relationship hrelationship
    rcases runAll_cases hrun guid with ⟨hsame, hunnamed⟩ | ⟨hnone, -⟩ | ⟨_, guard, hput, hmem, -⟩
    · rw [hsame] at hrelationship
      refine Bool.eq_false_iff.mpr fun hreferences => ?_
      have hne : guid ≠ target := by
        rintro rfl
        obtain ⟨statement, hmem, hguid⟩ := htarget
        exact hunnamed statement hmem hguid
      obtain ⟨statement, hmem, hguid⟩ :=
        hall guid (hseen guid hne ⟨relationship, hrelationship, hreferences⟩)
      exact hunnamed statement hmem hguid
    · cases hnone.symm.trans hrelationship
    · cases hput.symm.trans hrelationship
      exact hputs relationship guard hmem

/-- Evictions pass whatever is stored. -/
theorem runAll_evictions (records : Records)
    (h : ∀ statement ∈ statements, ∃ guid, statement = .evict guid) :
    ∃ stored, records.runAll statements = .ok stored := by
  induction statements generalizing records with
  | nil => exact ⟨records, rfl⟩
  | cons statement rest ih =>
    obtain ⟨⟨guid, rfl⟩, hrest⟩ := List.forall_mem_cons.mp h
    exact ih _ hrest

end Records

namespace Collection

variable {basis : Collection} {call : Call} {fresh target : Guid} {plan : Plan}
  {records stored : Records}

/-- The edges of an entity are what links to it. -/
theorem links_iff (hcoherent : basis.store.Coherent) {guid : Guid} :
    Records.Links basis.store.latest guid target ↔
      ∃ edge ∈ edges Entity basis.store target, edge.header.guid = guid := by
  constructor
  · rintro ⟨relationship, hlatest, hreferences⟩
    have hguid : relationship.header.guid = guid := hcoherent.guid_of_read hlatest
    exact ⟨relationship, hcoherent.mem_edges_iff.mpr ⟨hguid ▸ hlatest, hreferences⟩, hguid⟩
  · rintro ⟨edge, hedge, rfl⟩
    obtain ⟨hlatest, hreferences⟩ := hcoherent.mem_edges_iff.mp hedge
    exact ⟨edge, hlatest, hreferences⟩

/-- A purge of an entity leaves no relationship at it if and only if it has seen all of them. -/
theorem unreferenced_of_purge (hcoherent : basis.store.Coherent)
    (hrun : records.runAll (Plan.purge target (edges Entity basis.store target)).statements =
      .ok stored) :
    stored.Unreferenced target ↔ Records.LinksSeen basis.store.latest records target := by
  refine Records.unreferenced_iff hrun ?_ ?_ ?_ ?_
  · exact ⟨.evict target, Plan.mem_purge_iff.mpr (Or.inl rfl), rfl⟩
  · intro guid hlinks
    obtain ⟨edge, hedge, rfl⟩ := (links_iff hcoherent).mp hlinks
    exact ⟨_, Plan.mem_purge_iff.mpr (Or.inr ⟨edge, hedge, rfl⟩), rfl⟩
  · intro statement hmem
    rcases Plan.mem_purge_iff.mp hmem with rfl | ⟨edge, hedge, rfl⟩
    · exact Or.inl rfl
    · exact Or.inr (Or.inl ((links_iff hcoherent).mpr ⟨edge, hedge, rfl⟩))
  · exact fun _ _ hmem => absurd hmem Plan.put_not_mem_purge

/-- A re-identification of an entity leaves no relationship at its old identity if and only if it
has seen all of them. -/
theorem unreferenced_of_reIdentify (hcoherent : basis.store.Coherent) {current : Entity}
    {newGuid : Guid} (hlatest : basis.store.latest target = some (.entity current))
    (hne : newGuid ≠ target)
    (hrun : records.runAll (basis.reIdentification current target newGuid call.stamp) =
      .ok stored) :
    stored.Unreferenced target ↔ Records.LinksSeen basis.store.latest records target := by
  have hguid : current.header.guid = target := hcoherent.guid_of_read hlatest
  have hretired : (Record.entity (Versioning.retired current call.stamp)).guid = target := hguid
  have hretire : .replace (version current) (.entity (Versioning.retired current call.stamp)) ∈
      basis.reIdentification current target newGuid call.stamp :=
    List.mem_append_left _ (mem_moves_iff.mpr (Or.inr rfl))
  have hcreate : .create (.entity (Versioning.renamed current newGuid call.stamp)) ∈
      basis.reIdentification current target newGuid call.stamp :=
    List.mem_append_right _ (List.mem_singleton_self _)
  refine Records.unreferenced_iff hrun ?_ ?_ ?_ ?_
  · exact ⟨_, hretire, hretired⟩
  · intro guid hlinks
    obtain ⟨edge, hedge, rfl⟩ := (links_iff hcoherent).mp hlinks
    exact ⟨_, List.mem_append_left _ (mem_moves_iff.mpr (Or.inl ⟨edge, hedge, rfl⟩)), rfl⟩
  · intro statement hmem
    rcases List.mem_append.mp hmem with hmem | hmem
    · rcases mem_moves_iff.mp hmem with ⟨edge, hedge, rfl⟩ | rfl
      · exact Or.inr (Or.inl ((links_iff hcoherent).mpr ⟨edge, hedge, rfl⟩))
      · exact Or.inl hretired
    · -- the guard of the creation asks that nothing is stored there
      rw [List.mem_singleton.mp hmem]
      exact Or.inr (Or.inr
        (Records.eq_none_of_create hrun hcreate (evict_not_mem_reIdentification _)))
  · intro relationship guard hmem
    rcases List.mem_append.mp hmem with hmem | hmem
    · rcases mem_moves_iff.mp hmem with ⟨edge, -, hput⟩ | hput
      · cases hput
        exact references_moved hne
      · cases hput
    · cases List.mem_singleton.mp hmem

end Collection

/-- The operation clears an entity of its relationships: it re-identifies or purges it. -/
def Operation.Clears (operation : Operation) (target : Guid) : Prop :=
  operation = .change .entity target .purge ∨
    ∃ newGuid, operation = .change .entity target (.reIdentify newGuid)

namespace Draft

open Collection

variable {draft : Draft} {collection : Collection} {records stored : Records} {target : Guid}

/-- A re-identification or purge leaves no relationship at its entity if and only if the draft has
seen all of them. -/
theorem unreferenced_iff (hcoherent : draft.basis.store.Coherent)
    (hclears : draft.operation.Clears target)
    (hrun : records.runAll draft.plan.statements = .ok stored) :
    stored.Unreferenced target ↔
      Records.LinksSeen draft.basis.store.latest records target := by
  have hplanned := draft.planned
  rcases hclears with hoperation | ⟨newGuid, hoperation⟩
  · rw [hoperation] at hplanned
    have hpurge : draft.basis.planPurge Entity draft.call target = .ok draft.plan := hplanned
    rw [planPurge_eq_ok hpurge] at hrun
    exact unreferenced_of_purge hcoherent hrun
  · rw [hoperation] at hplanned
    have hidentity : draft.basis.planReIdentify Entity draft.call target newGuid =
      .ok draft.plan := hplanned
    obtain ⟨current, hlatest, hne, -, hstatements, -⟩ := planReIdentify_eq_ok hidentity
    rw [hstatements] at hrun
    exact unreferenced_of_reIdentify hcoherent hlatest hne hrun

/-- A purge is accepted whatever is stored by then, and nothing is stored under its target
afterwards. -/
theorem commit_purge {kind : ElementKind}
    (hoperation : draft.operation = .change kind target .purge) (collection : Collection)
    (now : Instant) :
    ∃ next reply, collection.commit draft.plan now = .ok (next, reply) ∧
      next.store.latest target = none := by
  have hplanned := draft.planned
  rw [hoperation] at hplanned
  have hpurge : draft.basis.planPurge kind.Carrier draft.call target = .ok draft.plan := hplanned
  obtain ⟨edges, hplan⟩ : ∃ edges, draft.plan = .purge target edges := ⟨_, planPurge_eq_ok hpurge⟩
  rw [hplan]
  have hmem : .evict target ∈ (Plan.purge target edges).statements :=
    Plan.mem_purge_iff.mpr (Or.inl rfl)
  have hevictions : ∀ statement ∈ (Plan.purge target edges).statements,
      ∃ guid, statement = .evict guid := by
    intro statement hstatement
    rcases Plan.mem_purge_iff.mp hstatement with rfl | ⟨edge, -, rfl⟩
    · exact ⟨_, rfl⟩
    · exact ⟨_, rfl⟩
  obtain ⟨store, receipt, hsubmit⟩ :=
    (Store.submit_isOk_iff now).mpr (Records.runAll_evictions collection.store.latest hevictions)
  have hcommit : collection.commit (.purge target edges) now =
      .ok ({ collection with store }, .done) :=
    (commit_eq_ok_iff (List.ne_nil_of_mem hmem)).mpr ⟨receipt, hsubmit, rfl, rfl⟩
  refine ⟨_, _, hcommit, ?_⟩
  rcases Records.runAll_cases (runAll_of_commit hcommit) target with
    ⟨-, hunnamed⟩ | ⟨hnone, -⟩ | ⟨_, _, -, hput, -⟩
  · exact absurd rfl (hunnamed _ hmem)
  · exact hnone
  · exact absurd hput Plan.put_not_mem_purge

/-- What a purge was planned for was deleted. -/
theorem deleted_of_purge {kind : ElementKind}
    (hoperation : draft.operation = .change kind target .purge) :
    ∃ record, draft.basis.store.latest target = some record ∧ record.header.isDeleted := by
  have hplanned := draft.planned
  rw [hoperation] at hplanned
  have hpurge : draft.basis.planPurge kind.Carrier draft.call target = .ok draft.plan := hplanned
  obtain ⟨current, hlatest, hdeleted⟩ := deleted_of_planPurge hpurge
  refine ⟨_, hlatest, ?_⟩
  cases kind <;> exact hdeleted

end Draft

namespace Workspace

/-- Whatever clients do between the plan of a re-identification or a purge of an entity and its
accepted submission, it leaves no relationship at the entity if and only if all relationships that
reference the entity by then did so when it was planned. A purge of any element is never refused and
leaves nothing of it; what it removes is deleted if it is what the purge was planned for. -/
theorem late_commit (config : CollectionConfig) (catalog : TypeCatalog) {moves : List Move}
    {client : Nat} {draft : Draft}
    (hdraft : ((start config catalog).run moves).drafts client = some draft) (now : Instant)
    (target : Guid) :
    (∀ next reply, draft.operation.Clears target →
      ((start config catalog).run moves).collection.commit draft.plan now = .ok (next, reply) →
        (Records.Unreferenced next.store.latest target ↔
          Records.LinksSeen draft.basis.store.latest
            ((start config catalog).run moves).collection.store.latest target)) ∧
    ∀ kind, draft.operation = .change kind target .purge →
      (∃ next reply,
        ((start config catalog).run moves).collection.commit draft.plan now = .ok (next, reply) ∧
          next.store.latest target = none) ∧
      (((start config catalog).run moves).collection.store.latest target =
          draft.basis.store.latest target →
        ∃ record, ((start config catalog).run moves).collection.store.latest target = some record ∧
          record.header.isDeleted) := by
  have hreachable := (reachable_start config catalog).run moves
  have hcoherent := (hreachable.basis client draft hdraft).store.coherent
  constructor
  · intro next reply hclears hcommit
    exact Draft.unreferenced_iff hcoherent hclears (Collection.runAll_of_commit hcommit)
  · intro kind hoperation
    refine ⟨Draft.commit_purge hoperation _ now, fun hsame => ?_⟩
    rw [hsame]
    exact Draft.deleted_of_purge hoperation

/-! ## Races -/

/-- A client plans an operation and submits it at once. -/
private def perform (client : Nat) (fresh : Guid) (operation : Operation) : List Move :=
  [.compose client ⟨"ada", .earliest⟩ fresh operation, .submit client .earliest]

/-- Two assets are stored. -/
private def assetMoves : List Move :=
  [.addType ⟨"Asset", .entity, none, [], [], [], none, []⟩,
    .addType ⟨"Link", .relationship, none, [], [], [], none, []⟩] ++
  perform 0 "asset" (.addEntity ⟨"Asset", ∅, [], .active, none⟩) ++
  perform 0 "other" (.addEntity ⟨"Asset", ∅, [], .active, none⟩)

/-- The assets are linked. -/
private def linkMoves (client : Nat) : List Move :=
  perform client "link" (.addRelationship ⟨"Link", ∅, "asset", "other", .active, none⟩)

/-- A client plans to purge an asset that is linked and deleted, and another one changes the asset
at the other end of the link before the purge is submitted. -/
private def seenMoves : List Move :=
  assetMoves ++ linkMoves 0 ++ perform 0 "" (.change .entity "asset" .delete) ++
  [.compose 0 ⟨"ada", .earliest⟩ "" (.change .entity "asset" .purge)] ++
  perform 1 "" (.change .entity "other" (.status .draft))

/-- The purge has seen the link and leaves nothing of it. -/
theorem late_commit_seen :
    ∃ draft next reply, ((start default ∅).run seenMoves).drafts 0 = some draft ∧
      ((start default ∅).run seenMoves).collection.commit draft.plan .earliest = .ok (next, reply) ∧
        next.store.latest "asset" = none ∧ Records.Unreferenced next.store.latest "asset" := by
  have hdraft : ((start default ∅).run seenMoves).drafts 0 = some _ := rfl
  obtain ⟨hcleared, hpurged⟩ := late_commit default ∅ hdraft .earliest "asset"
  obtain ⟨⟨next, reply, hcommit, hnone⟩, -⟩ := hpurged .entity rfl
  refine ⟨_, next, reply, hdraft, hcommit, hnone, ?_⟩
  refine (hcleared next reply (Or.inl rfl) hcommit).mpr fun guid hne hlinks => ?_
  -- the one link there is was there already
  have hcoherent := ((reachable_start default ∅).run seenMoves).collection.store.coherent
  obtain ⟨edge, hedge, rfl⟩ := (Collection.links_iff hcoherent).mp hlinks
  have hedges : edges Entity ((start default ∅).run seenMoves).collection.store "asset" = [_] := rfl
  rw [hedges, List.mem_singleton] at hedge
  rw [hedge]
  exact ⟨_, rfl, by decide⟩

/-- A client plans to re-identify an asset, and another one links the asset before that is
submitted. -/
private def relinkedMoves : List Move :=
  assetMoves ++ [.compose 0 ⟨"ada", .earliest⟩ "" (.change .entity "asset" (.reIdentify "item"))] ++
  linkMoves 1

/-- A client plans to purge a deleted asset, and another one restores and links the asset before
that is submitted. -/
private def restoredMoves : List Move :=
  assetMoves ++ perform 0 "" (.change .entity "asset" .delete) ++
  [.compose 0 ⟨"ada", .earliest⟩ "" (.change .entity "asset" .purge)] ++
  perform 1 "" (.change .entity "asset" .restore) ++ linkMoves 1

/-- Both submissions are accepted. The first one leaves a relationship at the old identity, the
second one removes a live asset and leaves a relationship at it. -/
theorem late_commit_race :
    (∀ move ∈ relinkedMoves ++ restoredMoves, move.Composes Operation.IsLifecycle) ∧
    (∃ draft next reply link, ((start default ∅).run relinkedMoves).drafts 0 = some draft ∧
      draft.operation = .change .entity "asset" (.reIdentify "item") ∧
      ((start default ∅).run relinkedMoves).collection.commit draft.plan .earliest =
        .ok (next, reply) ∧
      next.store.latest "link" = some (.relationship link) ∧ link.references "asset") ∧
    ∃ draft next reply record link, ((start default ∅).run restoredMoves).drafts 0 = some draft ∧
      draft.operation = .change .entity "asset" .purge ∧
      ((start default ∅).run restoredMoves).collection.store.latest "asset" = some record ∧
      record.header.isDeleted = false ∧
      ((start default ∅).run restoredMoves).collection.commit draft.plan .earliest =
        .ok (next, reply) ∧
      next.store.latest "asset" = none ∧
      next.store.latest "link" = some (.relationship link) ∧ link.references "asset" := by
  refine ⟨?_, ⟨_, _, _, _, rfl, rfl, rfl, rfl, by decide⟩,
    ⟨_, _, _, _, _, rfl, rfl, rfl, by decide, rfl, by decide, rfl, by decide⟩⟩
  simp [relinkedMoves, restoredMoves, assetMoves, linkMoves, perform, Move.Composes,
    Operation.IsLifecycle]

end Workspace

end MetadataGraph

import MetadataGraph.Proofs.Collection.Copies
import MetadataGraph.Proofs.Collection.LostUpdate

/-!
# Copies of classifications and the optimistic lock

A client that plans a change of an entity relies on the version that it has seen: its draft is
refused if another one has changed the entity meanwhile. The copy of a classification changes an
entity too. It is put on an entity that the collection owns as a next version, and on any other, a
mirrored one that the collection may change included, as a copy that leaves the version. We prove:

* `Draft.MadeAt.refused`: a draft is refused if what it replaces has another version;
* `Records.isOk_runAll_iff`: guards see the versions and the kinds of records only;
* `header_of_classificationCopy`: what the copy of a classification makes of the header;
* `classificationCopy_locks_iff`: the copy of a classification is seen by the optimistic lock if and
  only if the collection owns the entity;
* `lostLabel_mirrored`: the copy of a classification on a mirrored entity is lost to a client that
  has not seen it.
-/

namespace MetadataGraph

open Element Instance

/-! ## What guards see -/

namespace Records

/-- The same guards hold of what is stored under every identity. -/
def GuardedAlike (records other : Records) : Prop :=
  ∀ guid (guard : Guard), guard.Holds (records guid) ↔ guard.Holds (other guid)

variable {records other next : Records} {statements : List Statement}

theorem GuardedAlike.symm (h : records.GuardedAlike other) : other.GuardedAlike records :=
  fun guid guard => (h guid guard).symm

/-- What is written anew under an identity is the same in both. -/
theorem GuardedAlike.update (h : records.GuardedAlike other) (guid : Guid)
    (record : Option Record) :
    GuardedAlike (Function.update records guid record) (Function.update other guid record) := by
  intro query guard
  by_cases hguid : query = guid
  · subst hguid
    rw [Function.update_self, Function.update_self]
  · rw [Function.update_of_ne hguid, Function.update_of_ne hguid]
    exact h query guard

/-- Of an identity only the version and the kind of its record are seen. -/
theorem guardedAlike_update {guid : Guid} {before after : Entity}
    (hbefore : records guid = some (.entity before))
    (hversion : after.header.version = before.header.version) :
    GuardedAlike (Function.update records guid (some (.entity after))) records := by
  intro query guard
  by_cases hguid : query = guid
  · subst hguid
    rw [Function.update_self, hbefore]
    cases guard <;> simp [Guard.Holds, Record.header, hversion]
  · rw [Function.update_of_ne hguid]

/-- Statements that go through go through wherever the same guards hold. -/
theorem GuardedAlike.runAll (h : records.GuardedAlike other)
    (hrun : ∃ stored, records.runAll statements = .ok stored) :
    ∃ stored, other.runAll statements = .ok stored := by
  induction statements generalizing records other with
  | nil => exact ⟨other, rfl⟩
  | cons statement rest ih =>
    obtain ⟨stored, hrun⟩ := hrun
    rw [runAll_cons, Outcome.bind_eq_ok_iff] at hrun
    obtain ⟨next, hnext, hrest⟩ := hrun
    rw [runAll_cons]
    -- both go on with the same record or with none under the identity of the statement
    cases statement with
    | put record guard =>
      obtain ⟨hguard, rfl⟩ := run_put_eq_ok_iff.mp hnext
      rw [run_put_eq_ok_iff.mpr ⟨(h _ _).mp hguard, rfl⟩]
      exact ih (h.update _ _) ⟨stored, hrest⟩
    | evict guid =>
      cases hnext
      exact ih (h.update guid none) ⟨stored, hrest⟩

theorem isOk_runAll_iff (h : records.GuardedAlike other) :
    (∃ stored, records.runAll statements = .ok stored) ↔
      ∃ stored, other.runAll statements = .ok stored :=
  ⟨h.runAll, h.symm.runAll⟩

end Records

/-! ## Drafts -/

/-- The draft replaces what is stored under an identity, and was made when that had a version. -/
structure Draft.MadeAt (draft : Draft) (guid : Guid) (version : UInt64) : Prop where
  /-- The collection that it was made from is reachable. -/
  reachable : draft.basis.Reachable
  /-- What it replaces it guards by its version. -/
  guarded : draft.operation.IsVersionGuarded
  /-- It replaces what is stored under the identity. -/
  replaces : draft.replaces guid
  /-- That had the version. -/
  version_eq : ∃ prior, draft.basis.store.latest guid = some prior ∧ prior.header.version = version

namespace Collection

variable {collection : Collection}

/-- A plan is carried out if its statements go through one after the other. -/
theorem isOk_commit_iff {plan : Plan} {now : Instant} :
    (∃ next reply, collection.commit plan now = .ok (next, reply)) ↔
      ∃ stored, Records.runAll collection.store.latest plan.statements = .ok stored := by
  constructor
  · rintro ⟨next, reply, hcommit⟩
    exact ⟨_, runAll_of_commit hcommit⟩
  · intro hrun
    by_cases hstatements : plan.statements = []
    · exact ⟨_, _, commit_of_nil hstatements now⟩
    · obtain ⟨store, receipt, hsubmit⟩ := (Store.submit_isOk_iff now).mpr hrun
      exact ⟨{ collection with store }, plan.reply,
        (commit_eq_ok_iff hstatements).mpr ⟨receipt, hsubmit, rfl, rfl⟩⟩

end Collection

/-- A draft is refused by the repository if what it replaces has another version by now. -/
theorem Draft.MadeAt.refused {draft : Draft} {guid : Guid} {version : UInt64}
    (h : draft.MadeAt guid version) {collection : Collection} {current : Record}
    (hcurrent : collection.store.latest guid = some current)
    (hversion : current.header.version ≠ version) (now : Instant) :
    ∃ failure, collection.commit draft.plan now = .error failure ∧
      failure.kind? = some .repository := by
  obtain ⟨seen, record, hmem, hguid⟩ := Draft.replaces_iff.mp h.replaces
  obtain ⟨prior, hprior, hmade⟩ := h.version_eq
  cases hcommit : collection.commit draft.plan now with
  | error failure =>
    exact ⟨failure, rfl,
      Store.kind_of_submit_eq_error (Collection.submit_of_commit_eq_error hcommit)⟩
  | ok result =>
    obtain ⟨next, reply⟩ := result
    have hguarded := Collection.guarded_of_planned h.reachable.store.coherent
      (Collection.planned_of_plan draft.planned) h.guarded
    rcases Collection.submit_of_commit hcommit with ⟨hnil, -⟩ | ⟨⟨receipt, hsubmit⟩, -⟩
    · rw [hnil] at hmem
      cases hmem
    · -- an accepted draft was made from the version that is stored
      rcases Store.latest_of_submit hguarded hsubmit hcurrent with
        ⟨hunnamed, -⟩ | ⟨basis, -, hbasis, hsame, -⟩
      · exact absurd hguid (hunnamed _ hmem)
      · cases hprior.symm.trans hbasis
        exact absurd (hsame.symm.trans hmade) hversion

namespace Collection

variable {collection next : Collection} {call : Call} {fresh guid : Guid} {operation : Operation}
  {incoming entity : Entity} {copy : Classification}

/-! ## Copies of classifications -/

/-- The header of an entity with changed classifications as it is written. -/
theorem header_relabelled {labelled : Entity} (hheader : labelled.header = entity.header) :
    (collection.relabelled call entity labelled).header =
      if entity.header.isHomedIn collection.id then entity.header.next call.stamp
      else entity.header := by
  unfold relabelled
  split
  · rfl
  · exact hheader

/-- The copy of a classification that is put on a stored entity or taken away from it makes a next
version of the entity if the collection owns it, and leaves the header of any other. -/
theorem header_of_classificationCopy (hcoherent : collection.store.Coherent)
    (hoperation : operation = .saveClassification incoming copy ∨
      operation = .purgeClassification incoming copy)
    (hlatest : collection.store.latest incoming.header.guid = some (.entity entity))
    (happlied : collection.execute call fresh operation = .ok (next, .copied .applied)) :
    ∃ labelled : Entity, next.store.latest =
        Function.update collection.store.latest incoming.header.guid (some (.entity labelled)) ∧
      labelled.header = if entity.header.isHomedIn collection.id then entity.header.next call.stamp
        else entity.header := by
  rcases hoperation with rfl | rfl
  · obtain ⟨-, ⟨hreply, -⟩ | ⟨-, current, hlabelled, hnext⟩⟩ :=
      latest_of_saveClassification hcoherent happlied
    · cases hreply
    · -- the entity that is stored goes before the one that comes with the copy
      cases (labelled?_of_latest hlatest).symm.trans hlabelled
      exact ⟨_, hnext, header_relabelled rfl⟩
  · obtain ⟨hreply, -⟩ | ⟨-, current, hstored, hnext⟩ :=
      latest_of_purgeClassification hcoherent happlied
    · cases hreply
    · cases hstored.symm.trans hlatest
      exact ⟨_, hnext, header_relabelled rfl⟩

/-- The copy of a classification that is applied to a stored entity makes its next version if and
only if the collection owns the entity. Then all drafts that replace the entity and were made from
its version before are refused by the repository. If the collection does not own the entity, whether
it mirrors it or not, the header stays as it was, and no plan is refused that would have been
accepted without the copy. -/
theorem classificationCopy_locks_iff (hreachable : collection.Reachable)
    (hoperation : operation = .saveClassification incoming copy ∨
      operation = .purgeClassification incoming copy)
    (hlatest : collection.store.latest incoming.header.guid = some (.entity entity))
    (happlied : collection.execute call fresh operation = .ok (next, .copied .applied)) :
    ∃ labelled : Entity,
      next.store.latest incoming.header.guid = some (.entity labelled) ∧
      (labelled.header.version = entity.header.version + 1 ↔
        entity.header.isHomedIn collection.id) ∧
      (entity.header.isHomedIn collection.id →
        ∀ draft : Draft, draft.MadeAt incoming.header.guid entity.header.version → ∀ now,
          ∃ failure, next.commit draft.plan now = .error failure ∧
            failure.kind? = some .repository) ∧
      (entity.header.isHomedIn collection.id = false → labelled.header = entity.header ∧
        ∀ plan now, (∃ later reply, next.commit plan now = .ok (later, reply)) ↔
          ∃ later reply, collection.commit plan now = .ok (later, reply)) := by
  obtain ⟨labelled, hnext, hheader⟩ :=
    header_of_classificationCopy hreachable.store.coherent hoperation hlatest happlied
  have hlabelled : next.store.latest incoming.header.guid = some (.entity labelled) := by
    rw [hnext, Function.update_self]
  refine ⟨labelled, hlabelled, ?_, fun howned draft hmade now => ?_, fun hforeign => ?_⟩
  · rw [hheader]
    split
    · rename_i howned
      exact iff_of_true rfl howned
    · rename_i hforeign
      exact iff_of_false (by simp) hforeign
  · refine hmade.refused hlabelled ?_ now
    rw [if_pos howned] at hheader
    show labelled.header.version ≠ entity.header.version
    rw [hheader]
    simp [Header.next]
  · rw [if_neg (Bool.eq_false_iff.mp hforeign)] at hheader
    refine ⟨hheader, fun plan now => ?_⟩
    rw [isOk_commit_iff, isOk_commit_iff, hnext]
    exact Records.isOk_runAll_iff
      (Records.guardedAlike_update hlatest (congrArg Header.version hheader))

/-- The call that puts on an entity the copy of a classification from another collection. -/
private def certify (guid : Guid) : Operation :=
  let stamp : Stamp := ⟨"bob", .earliest⟩
  .saveClassification (.new (Header.new guid ⟨"Asset", []⟩ "remote" stamp) ∅ [])
    (.new "Certified" "remote" stamp)

/-- A collection that owns one entity and mirrors another one. -/
private def mirror : Collection :=
  let call : Call := ⟨"ada", .earliest⟩
  run ⟨default, ∅, .empty⟩
    [.addType ⟨"Asset", .entity, none, [], [], [], none, []⟩,
      .addType ⟨"Certified", .classification, none, [], [], [], none, []⟩,
      .operate call "asset" (.addEntity ⟨"Asset", ∅, [], .active, none⟩),
      .operate call "mirrored" (.addEntity ⟨"Asset", ∅, [], .active, some ⟨"crm", "CRM"⟩⟩)]

private theorem reachable_mirror : mirror.Reachable := (Reachable.start _ _).run _

/-- The entity that the collection owns gets its second version with the classification, and a
change of its status that was planned before is refused. -/
theorem classificationCopy_locks_asset :
    ∃ next labelled plan failure,
      mirror.execute ⟨"ada", .earliest⟩ "" (certify "asset") = .ok (next, .copied .applied) ∧
        next.store.latest "asset" = some (.entity labelled) ∧ labelled.header.version = 2 ∧
        mirror.plan ⟨"ada", .earliest⟩ "" (.change .entity "asset" (.status .draft)) = .ok plan ∧
        next.commit plan .earliest = .error failure ∧ failure.kind? = some .repository := by
  obtain ⟨asset, hasset, hhome, hversion⟩ : ∃ asset,
      mirror.store.latest "asset" = some (.entity asset) ∧ asset.header.isHomedIn mirror.id ∧
        asset.header.version = 1 := ⟨_, rfl, rfl, rfl⟩
  obtain ⟨next, happlied⟩ : ∃ next, mirror.execute ⟨"ada", .earliest⟩ "" (certify "asset") =
      .ok (next, .copied .applied) := ⟨_, rfl⟩
  obtain ⟨plan, hplan⟩ : ∃ plan, mirror.plan ⟨"ada", .earliest⟩ ""
      (.change .entity "asset" (.status .draft)) = .ok plan := ⟨_, rfl⟩
  obtain ⟨labelled, hlabelled, hlocks, hrefused, -⟩ :=
    classificationCopy_locks_iff reachable_mirror (.inl rfl) hasset happlied
  let draft : Draft := ⟨_, _, "", mirror, plan, hplan⟩
  have hmade : draft.MadeAt "asset" asset.header.version := by
    refine ⟨reachable_mirror, ⟨trivial, by simp [draft]⟩, ?_, _, hasset, rfl⟩
    cases hplan
    rfl
  obtain ⟨failure, hcommit, hkind⟩ := hrefused hhome draft hmade .earliest
  refine ⟨next, labelled, plan, failure, happlied, hlabelled, ?_, hplan, hcommit, hkind⟩
  rw [hlocks.mpr hhome, hversion]
  rfl

/-- The mirrored entity, which the collection may change, keeps its version when the copy of a
classification is put on it. A change of its status that was planned before is accepted and writes
it without the classification. -/
theorem lostLabel_mirrored :
    ∃ entity labelled plan reply next,
      mirror.Reachable ∧ mirror.store.latest "mirrored" = some (.entity entity) ∧
        entity.header.isUpdatableBy mirror.id ∧
        mirror.execute ⟨"ada", .earliest⟩ "" (certify "mirrored") =
          .ok (labelled, .copied .applied) ∧
        (labelled.store.latest "mirrored").map (·.header.version) = some entity.header.version ∧
        mirror.plan ⟨"ada", .earliest⟩ "" (.change .entity "mirrored" (.status .draft)) =
          .ok plan ∧
        labelled.commit plan .earliest = .ok (next, reply) ∧
        ((next.store.latest "mirrored").bind Record.entity?).map (·.isClassifiedAs "Certified") =
          some false :=
  ⟨_, _, _, _, _, reachable_mirror, rfl, rfl, rfl, rfl, rfl, rfl, rfl⟩

end Collection

end MetadataGraph

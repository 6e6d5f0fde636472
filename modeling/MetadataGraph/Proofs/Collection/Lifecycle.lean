import MetadataGraph.Proofs.Collection.Plans
import MetadataGraph.Proofs.Store.Sequential

/-!
# The lifecycle of elements

The lifecycle operations are those that create, change and remove elements and label entities, in
contrast to those that keep proxies and copies. What they write is told by three properties of an
operation: it revises an identity, it creates one, or it removes identities. We prove:

* `plan_isLifecycle`: a lifecycle operation plans to remove identities, or to write next versions
  and to create at most one identity;
* `chainStep_of_execute`: an accepted lifecycle operation keeps the chain of an identity, adds the
  next version to it, starts it or removes it.
-/

namespace MetadataGraph

open Element Instance

namespace Operation

/-- The operation creates, changes or removes an element or labels an entity. -/
def IsLifecycle : Operation → Prop
  | addEntity _ | addRelationship _ | change .. => True
  | classify .. | declassify .. | reclassify .. => True
  | _ => False

/-- Whether the operation writes the next version of what is stored under an identity: it changes
the element itself, or it re-identifies an entity that a relationship references. -/
def revises (operation : Operation) (store : Store) (guid : Guid) : Bool :=
  match operation with
  | change _ _ .purge => false
  | change kind target (.reIdentify _) =>
    target = guid || kind = .entity &&
      ((store.latest guid).bind Record.relationship?).any (·.references target)
  | change _ target _ | classify target .. | declassify target _ | reclassify target .. =>
    target = guid
  | _ => false

/-- The operation creates an identity, with 1 as its first version or with the version that follows
the one of the element that is re-identified. -/
def Creates (operation : Operation) (store : Store) (fresh guid : Guid) (first : Nat) : Prop :=
  match operation with
  | addEntity _ | addRelationship _ => fresh = guid ∧ first = 1
  | change _ target (.reIdentify newGuid) =>
    newGuid = guid ∧
      ∃ prior, store.latest target = some prior ∧ first = prior.header.version.toNat + 1
  | _ => False

end Operation

/-- A plan of a lifecycle operation: it removes identities, or it writes next versions and creates
at most one identity. -/
inductive Plan.IsLifecycle (store : Store) (fresh : Guid) (operation : Operation) (plan : Plan) :
    Prop
  | removes (hevict : ∀ statement ∈ plan.statements, ∃ guid, statement = .evict guid)
      (hrevises : ∀ guid, operation.revises store guid = false)
  | writes {revisions : List Statement} (hstatements : plan.statements = revisions)
      (hrevises : ∀ statement ∈ revisions, statement.Revises store)
      (hnamed : ∀ guid, (∃ statement ∈ revisions, statement.guid = guid) ↔
        operation.revises store guid)
  | creates (revisions : List Statement) (record : Record) (previous : UInt64)
      (hstatements : plan.statements = revisions ++ [.create record])
      (hrevises : ∀ statement ∈ revisions, statement.Revises store)
      (hnamed : ∀ guid, (∃ statement ∈ revisions, statement.guid = guid) ↔
        operation.revises store guid)
      (hversion : record.header.version = previous + 1)
      (hcreates : operation.Creates store fresh record.guid (previous.toNat + 1))

/-- A plan that revises one identity is a plan of any operation that revises just this one. -/
theorem Plan.Revises.isLifecycle {store : Store} {fresh guid : Guid} {operation : Operation}
    {plan : Plan} (h : plan.Revises store guid)
    (hrevises : ∀ other, operation.revises store other ↔ guid = other) :
    plan.IsLifecycle store fresh operation := by
  obtain ⟨statement, hstatements, hguid, hstatement⟩ := h
  refine .writes hstatements (by simpa using hstatement) fun other => ?_
  rw [hrevises, ← hguid]
  simp

/-- A plan that creates an element of the first version. -/
theorem Plan.isLifecycle_create {α : Type} [Element α] {store : Store} {fresh : Guid}
    {operation : Operation} {element : α} (hversion : version element = 1)
    (hcreates : operation.Creates store fresh (guid element) 1)
    (hrevises : ∀ other, operation.revises store other = false) :
    (Plan.create element).IsLifecycle store fresh operation := by
  refine .creates [] (toRecord element) 0 rfl (by simp) (by simp [hrevises]) ?_ ?_
  · rw [header_toRecord]
    exact hversion
  · rw [guid_toRecord]
    exact hcreates

namespace Collection

variable {collection : Collection} {call : Call} {fresh guid : Guid} {plan : Plan}

/-! ## Plans -/

/-- A new instance has the first version. -/
theorem newHeader_eq (collection : Collection) (call : Call) (fresh : Guid) (typeRef : TypeRef)
    (status : Status) (source : Option ExternalSource) :
    (collection.newHeader call fresh typeRef status source).guid = fresh ∧
      (collection.newHeader call fresh typeRef status source).version = 1 := by
  cases source <;> exact ⟨rfl, rfl⟩

/-- What a caller may label is stored. -/
theorem latest_of_forLabelling {current : Entity}
    (h : collection.forLabelling call guid = .ok current) :
    collection.store.latest guid = some (.entity current) := by
  simp only [forLabelling, Outcome.bind_eq_ok_iff, Outcome.pure_eq_ok_iff] at h
  obtain ⟨⟨⟩, -, ⟨⟩, -, found, hfound, ⟨⟩, -, rfl⟩ := h
  exact require_eq_ok_iff.mp hfound

/-- To relabel an entity is to write its next version. -/
theorem planRelabelled_revises (hcoherent : collection.store.Coherent)
    {current relabelled : Entity} (hcurrent : collection.forLabelling call guid = .ok current)
    (h : planRelabelled call current relabelled = .ok plan) :
    plan.Revises collection.store guid := by
  simp only [planRelabelled, Outcome.bind_eq_ok_iff, Outcome.pure_eq_ok_iff] at h
  obtain ⟨next, hnext, rfl⟩ := h
  exact .replace hcoherent (latest_of_forLabelling hcurrent) (.of_update hnext)

/-- A purge plans to remove identities. -/
theorem plan_purge_isLifecycle {kind : ElementKind}
    (h : collection.plan call fresh (.change kind guid .purge) = .ok plan) :
    plan.IsLifecycle collection.store fresh (.change kind guid .purge) := by
  have hplan : collection.planPurge kind.Carrier call guid = .ok plan := h
  refine .removes ?_ fun _ => rfl
  rw [planPurge_eq_ok hplan]
  intro statement hmem
  rcases Plan.mem_purge_iff.mp hmem with rfl | ⟨relationship, -, rfl⟩
  · exact ⟨_, rfl⟩
  · exact ⟨_, rfl⟩

section ReIdentification

variable {α : Type} [TypedElement α] {kind : ElementKind} {current : α} {newGuid : Guid}
  {stamp : Stamp}

/-- The relationships at an element are those that reference it, if it is an entity. -/
def EdgesOfKind (collection : Collection) (α : Type) [Element α] (kind : ElementKind)
    (guid : Guid) : Prop :=
  ∀ relationship, relationship ∈ edges α collection.store guid ↔
    kind = .entity ∧
      collection.store.latest relationship.header.guid = some (.relationship relationship) ∧
        relationship.references guid

theorem edgesOfKind_entity (hcoherent : collection.store.Coherent) :
    collection.EdgesOfKind Entity .entity guid :=
  fun _ => hcoherent.mem_edges_iff.trans (and_iff_right rfl).symm

theorem edgesOfKind_relationship : collection.EdgesOfKind Relationship .relationship guid :=
  fun _ => iff_of_false List.not_mem_nil fun h => by cases h.1

/-- The moves of a re-identification write next versions. -/
theorem moves_revises (hcoherent : collection.store.Coherent)
    (hedges : collection.EdgesOfKind α kind guid)
    (hcurrent : collection.store.latest guid = some (toRecord current))
    (hleft : collection.VersionsLeft guid current) :
    ∀ statement ∈ collection.moves current guid newGuid stamp,
      statement.Revises collection.store := by
  intro statement hmem
  rcases mem_moves_iff.mp hmem with ⟨relationship, hedge, rfl⟩ | rfl
  · obtain ⟨-, hlatest, -⟩ := (hedges relationship).mp hedge
    exact ⟨.relationship relationship, _, rfl, hlatest, rfl⟩
  · exact (Statement.revises_replace hcoherent hcurrent
      (Versioning.succeeds_retired hleft.element stamp)).2

/-- The moves of a re-identification write under the old identity and under those of the
relationships that reference it. -/
theorem moves_named (hcoherent : collection.store.Coherent)
    (hedges : collection.EdgesOfKind α kind guid)
    (hcurrent : collection.store.latest guid = some (toRecord current))
    (hleft : collection.VersionsLeft guid current) (other : Guid) :
    (∃ statement ∈ collection.moves current guid newGuid stamp, statement.guid = other) ↔
      (Operation.change kind guid (.reIdentify newGuid)).revises collection.store other := by
  have hretired := (Statement.revises_replace hcoherent hcurrent
    (Versioning.succeeds_retired hleft.element stamp)).1
  simp only [Operation.revises, Bool.or_eq_true, Bool.and_eq_true, decide_eq_true_eq,
    Option.any_eq_true, Option.bind_eq_some_iff]
  constructor
  · rintro ⟨statement, hmem, rfl⟩
    rcases mem_moves_iff.mp hmem with ⟨relationship, hedge, rfl⟩ | rfl
    · obtain ⟨hkind, hlatest, hreferences⟩ := (hedges relationship).mp hedge
      exact Or.inr ⟨hkind, relationship, ⟨_, hlatest, rfl⟩, hreferences⟩
    · exact Or.inl hretired.symm
  · rintro (rfl | ⟨hkind, relationship, ⟨record, hlatest, hrecord⟩, hreferences⟩)
    · exact ⟨_, mem_moves_iff.mpr (Or.inr rfl), hretired⟩
    · cases record with
      | relationship stored =>
        cases hrecord
        have hother : relationship.header.guid = other := hcoherent.guid_of_read hlatest
        have hedge := (hedges relationship).mpr
          ⟨hkind, by rw [hother]; exact hlatest, hreferences⟩
        exact ⟨_, mem_moves_iff.mpr (Or.inl ⟨relationship, hedge, rfl⟩), hother⟩
      | entity => cases hrecord
      | proxy => cases hrecord

/-- A re-identification plans to write next versions of the element and, for an entity, of the
relationships that reference it, and to create the new identity. -/
theorem planReIdentify_isLifecycle (hcoherent : collection.store.Coherent)
    (hedges : collection.EdgesOfKind α kind guid)
    (h : collection.planReIdentify α call guid newGuid = .ok plan) :
    plan.IsLifecycle collection.store fresh (.change kind guid (.reIdentify newGuid)) := by
  obtain ⟨current, hcurrent, -, hleft, hstatements, -⟩ := planReIdentify_eq_ok h
  have hrenamed : (toRecord (Versioning.renamed current newGuid call.stamp)).header =
      { (header current).next call.stamp with
        guid := newGuid
        reIdentifiedFrom := some (Instance.guid current) } :=
    (header_toRecord _).trans (header_setHeader _ _)
  refine .creates _ _ (version current) hstatements (moves_revises hcoherent hedges hcurrent hleft)
    (moves_named hcoherent hedges hcurrent hleft) ?_ ⟨?_, toRecord current, hcurrent, ?_⟩
  · rw [hrenamed]
    rfl
  · rw [Record.guid, hrenamed]
  · rw [header_toRecord]
    rfl

end ReIdentification

/-- What a lifecycle operation plans. -/
theorem plan_isLifecycle (hcoherent : collection.store.Coherent) {operation : Operation}
    (hlifecycle : operation.IsLifecycle) (h : collection.plan call fresh operation = .ok plan) :
    plan.IsLifecycle collection.store fresh operation := by
  -- creations make a new header; all others but two write one next version
  cases operation with
  | addEntity entity =>
    simp only [Collection.plan, planAddEntity, Outcome.bind_eq_ok_iff, Outcome.pure_eq_ok_iff] at h
    obtain ⟨⟨⟩, -, ⟨⟩, -, typeRef, -, rfl⟩ := h
    obtain ⟨hguid, hversion⟩ := collection.newHeader_eq call fresh typeRef entity.status
      entity.source
    exact Plan.isLifecycle_create hversion ⟨hguid.symm, rfl⟩ fun _ => rfl
  | addRelationship relationship =>
    simp only [Collection.plan, planAddRelationship, Outcome.bind_eq_ok_iff,
      Outcome.pure_eq_ok_iff] at h
    obtain ⟨⟨⟩, -, ⟨⟩, -, ⟨⟩, -, ⟨⟩, -, typeRef, -, ⟨⟩, -, ⟨⟩, -, endOne, -, endTwo, -, ⟨⟩, -,
      rfl⟩ := h
    obtain ⟨hguid, hversion⟩ := collection.newHeader_eq call fresh typeRef relationship.status
      relationship.source
    exact Plan.isLifecycle_create hversion ⟨hguid.symm, rfl⟩ fun _ => rfl
  | change kind target change =>
    by_cases hpurge : change = .purge
    · subst hpurge
      exact plan_purge_isLifecycle h
    · by_cases hidentity : ∃ newGuid, change = .reIdentify newGuid
      · obtain ⟨newGuid, rfl⟩ := hidentity
        cases kind with
        | entity => exact planReIdentify_isLifecycle hcoherent (edgesOfKind_entity hcoherent) h
        | relationship => exact planReIdentify_isLifecycle hcoherent edgesOfKind_relationship h
      · have hplan : collection.planChange kind.Carrier call target change = .ok plan := h
        refine (planChange_revises hcoherent hpurge (not_exists.mp hidentity) hplan).isLifecycle ?_
        intro other
        cases change <;> simp_all [Operation.revises]
  | classify target name source origin properties =>
    simp only [Collection.plan, planClassify, Outcome.bind_eq_ok_iff] at h
    obtain ⟨⟨⟩, -, current, hcurrent, ⟨⟩, -, ⟨⟩, -, hplan⟩ := h
    exact (planRelabelled_revises hcoherent hcurrent hplan).isLifecycle fun _ => decide_eq_true_iff
  | declassify target name =>
    simp only [Collection.plan, planDeclassify, Outcome.bind_eq_ok_iff] at h
    obtain ⟨⟨⟩, -, current, hcurrent, ⟨⟩, -, hplan⟩ := h
    exact (planRelabelled_revises hcoherent hcurrent hplan).isLifecycle fun _ => decide_eq_true_iff
  | reclassify target name properties =>
    simp only [Collection.plan, planReclassify, Outcome.bind_eq_ok_iff] at h
    obtain ⟨⟨⟩, -, current, hcurrent, classification, -, ⟨⟩, -, hplan⟩ := h
    exact (planRelabelled_revises hcoherent hcurrent hplan).isLifecycle fun _ => decide_eq_true_iff
  | addProxy | saveEntity | saveRelationship | purgeCopy | saveClassification
  | purgeClassification => exact False.elim hlifecycle

/-! ## Chains -/

/-- What an accepted lifecycle operation makes of the chain of an identity. -/
inductive ChainStep (store : Store) (fresh : Guid) (operation : Operation) (guid : Guid) :
    Chain → Prop
  | kept (hrevises : operation.revises store guid = false) :
      ChainStep store fresh operation guid (store.chain guid)
  | revised (prior record : Record) (time now : Instant) (hrevises : operation.revises store guid)
      (hlatest : store.latest guid = some prior)
      (hversion : record.header.version = prior.header.version + 1) :
      ChainStep store fresh operation guid
        (.new record time now :: (store.chain guid).closeAt time)
  | created (record : Record) (previous : UInt64) (time now : Instant)
      (hempty : store.chain guid = [])
      (hcreates : operation.Creates store fresh guid (previous.toNat + 1))
      (hversion : record.header.version = previous + 1) :
      ChainStep store fresh operation guid [.new record time now]
  | removed : ChainStep store fresh operation guid []

section Accepted

variable {store : Store} {operation : Operation} {now : Instant}

/-- An identity under which statements only write next versions gets one more revision. -/
theorem chainStep_of_revises (hreachable : store.Reachable) (hrange : store.clock.InRange)
    {statements : List Statement} (hnamed : ∃ statement ∈ statements, statement.guid = guid)
    (hall : ∀ statement ∈ statements, statement.guid = guid → statement.Revises store)
    (hrevises : operation.revises store guid) :
    ChainStep store fresh operation guid ((store.carriedOut statements now).chain guid) := by
  have hevict : .evict guid ∉ statements :=
    fun hmem => (hall _ hmem rfl).ne_evict guid rfl
  obtain ⟨record, guard, hmem, hguid, hchain⟩ := store.chain_carriedOut hevict hnamed now
  obtain ⟨prior, next, hput, hlatest, hversion⟩ := hall _ hmem hguid
  cases hput
  rw [hguid] at hlatest
  rw [hchain, Chain.push_eq_cons (hreachable.clockReached.lt_commitTime hrange now guid)]
  exact .revised prior record _ _ hrevises hlatest hversion

/-- An identity that only a creation names has one revision afterwards. -/
theorem chainStep_of_create (hcoherent : store.Coherent) {statements : List Statement}
    {record : Record} {previous : UInt64} (hnone : store.latest record.guid = none)
    (hothers : ∀ statement ∈ statements, statement.guid ≠ record.guid)
    (hcreates : operation.Creates store fresh record.guid (previous.toNat + 1))
    (hversion : record.header.version = previous + 1) :
    ChainStep store fresh operation record.guid
      ((store.carriedOut (statements ++ [.create record]) now).chain record.guid) := by
  have hempty := hcoherent.latest_eq_none_iff.mp hnone
  have hlast {statement : Statement} (hmem : statement ∈ statements ++ [.create record])
      (hguid : statement.guid = record.guid) : statement = .create record := by
    rcases List.mem_append.mp hmem with hmem | hmem
    · exact absurd hguid (hothers statement hmem)
    · exact List.mem_singleton.mp hmem
  have hevict : .evict record.guid ∉ statements ++ [.create record] :=
    fun hmem => Statement.noConfusion (hlast hmem rfl)
  obtain ⟨other, guard, hmem, hguid, hchain⟩ := store.chain_carriedOut hevict
    ⟨_, List.mem_append_right _ (List.mem_singleton_self _), rfl⟩ now
  cases hlast hmem hguid
  rw [hchain, hempty]
  exact .created record previous _ _ hempty hcreates hversion

/-- An accepted plan of a lifecycle operation makes one of these steps on every chain. -/
theorem chainStep_of_submit (hreachable : store.Reachable) (hrange : store.clock.InRange)
    (hplan : plan.IsLifecycle store fresh operation) {next : Store} {receipt : Receipt}
    (hsubmit : store.submit plan.statements now = .ok (next, receipt)) (guid : Guid) :
    ChainStep store fresh operation guid (next.chain guid) := by
  have hrecords := Store.runAll_of_submit hsubmit
  obtain ⟨-, rfl, -⟩ := Store.submit_eq_ok_iff.mp hsubmit
  cases hplan with
  | removes hevict hrevises =>
    rcases Store.chain_foldl_apply_of_evictions hevict guid with hchain | hchain
    · rw [Store.carriedOut, hchain]
      exact .kept (hrevises guid)
    · rw [Store.carriedOut, hchain]
      exact .removed
  | @writes revisions hstatements hrevises hnamed =>
    rw [hstatements]
    by_cases hguid : ∃ statement ∈ revisions, statement.guid = guid
    · exact chainStep_of_revises hreachable hrange hguid (fun statement hmem _ =>
        hrevises statement hmem) ((hnamed guid).mp hguid)
    · rw [Store.chain_carriedOut_of_ne store fun statement hmem heq =>
        hguid ⟨statement, hmem, heq⟩]
      exact .kept (Bool.eq_false_iff.mpr (mt (hnamed guid).mpr hguid))
  | creates revisions record previous hstatements hrevises hnamed hversion hcreates =>
    rw [hstatements] at hrecords ⊢
    -- the guard of the creation has passed, so nothing was stored and no revision writes there
    obtain ⟨hnone, hothers⟩ := Records.runAll_create hrecords fun guid hmem =>
      (hrevises _ hmem).ne_evict guid rfl
    by_cases hcreated : record.guid = guid
    · subst hcreated
      exact chainStep_of_create hreachable.coherent hnone hothers hcreates hversion
    · -- the creation does not name the identity, so only the revisions count
      have hmem {statement : Statement} (hmem : statement ∈ revisions ++ [.create record])
          (hguid : statement.guid = guid) : statement ∈ revisions := by
        rcases List.mem_append.mp hmem with hmem | hmem
        · exact hmem
        · rw [List.mem_singleton.mp hmem] at hguid
          exact absurd hguid hcreated
      by_cases hguid : ∃ statement ∈ revisions, statement.guid = guid
      · have hrevised := (hnamed guid).mp hguid
        obtain ⟨statement, hstatement, heq⟩ := hguid
        exact chainStep_of_revises hreachable hrange
          ⟨statement, List.mem_append_left _ hstatement, heq⟩
          (fun other hother heq => hrevises other (hmem hother heq)) hrevised
      · rw [Store.chain_carriedOut_of_ne store fun statement hother heq =>
          hguid ⟨statement, hmem hother heq, heq⟩]
        exact .kept (Bool.eq_false_iff.mpr (mt (hnamed guid).mpr hguid))

/-- A lifecycle operation that plans nothing revises nothing. -/
theorem revises_of_nil (hplan : plan.IsLifecycle store fresh operation)
    (hstatements : plan.statements = []) (guid : Guid) : operation.revises store guid = false := by
  cases hplan with
  | removes hevict hrevises => exact hrevises guid
  | writes hrevisions hrevises hnamed =>
    rw [← hrevisions, hstatements] at hnamed
    exact Bool.eq_false_iff.mpr fun hrevised => by simpa using (hnamed guid).mpr hrevised
  | creates revisions record previous hrevisions => simp [hstatements] at hrevisions

end Accepted

/-- An accepted lifecycle operation makes one of these steps on every chain. -/
theorem chainStep_of_execute {next : Collection} {operation : Operation} {reply : Reply}
    (hreachable : collection.store.Reachable) (hrange : collection.store.clock.InRange)
    (hlifecycle : operation.IsLifecycle)
    (hexecute : collection.execute call fresh operation = .ok (next, reply)) (guid : Guid) :
    ChainStep collection.store fresh operation guid (next.store.chain guid) := by
  obtain ⟨plan, hplan, hcommit⟩ := execute_eq_ok_iff.mp hexecute
  have hshape := plan_isLifecycle hreachable.coherent hlifecycle hplan
  by_cases hstatements : plan.statements = []
  · rw [commit_of_nil hstatements] at hcommit
    cases hcommit
    exact .kept (revises_of_nil hshape hstatements guid)
  · obtain ⟨receipt, hsubmit, -, -⟩ := (commit_eq_ok_iff hstatements).mp hcommit
    exact chainStep_of_submit hreachable hrange hshape hsubmit guid

end Collection

end MetadataGraph

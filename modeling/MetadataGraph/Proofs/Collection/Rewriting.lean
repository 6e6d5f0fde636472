import MetadataGraph.Proofs.Collection.Planned
import MetadataGraph.Proofs.Collection.Run

/-!
# What is written over what is stored

A lifecycle operation creates records under identities that are not in use, removes records, or
writes the next version of a record over it. `Rewrites` lists the ways in which it does the last,
with what it has checked, so that what holds of two successive revisions is proved by going through
four cases and not through the operations. We prove:

* `rewrites_of_planned`: what a lifecycle operation puts is a creation or is on the list;
* `Rewrites.version_eq` and `Rewrites.kind_eq`: what is on the list is the next version of an
  instance of the same kind;
* `Planned.chain_of_isLifecycle`: what a lifecycle operation makes of the revisions of an identity.
-/

namespace MetadataGraph

open Element Instance

/-! ## Records with other headers -/

/-- The record with another header. -/
def Record.withHeader : Record → Header → Record
  | entity e, header => entity { e with header }
  | proxy p, header => proxy { p with header }
  | relationship r, header => relationship { r with header }

@[simp]
theorem Record.header_withHeader (record : Record) (header : Header) :
    (record.withHeader header).header = header := by
  cases record <;> rfl

/-- The header of an element is that of its record. -/
class HeaderApart (α : Type) [Element α] : Prop where
  /-- To replace the one is to replace the other. -/
  toRecord_setHeader : ∀ (a : α) (h : Header), toRecord (setHeader a h) = (toRecord a).withHeader h

instance : HeaderApart Entity where
  toRecord_setHeader _ _ := rfl

instance : HeaderApart Relationship where
  toRecord_setHeader _ _ := rfl

namespace Collection

variable {collection : Collection} {call : Call} {fresh guid : Guid} {operation : Operation}
  {statements : List Statement} {stamp : Stamp} {prior record : Record}

/-! ## The list -/

/-- How an operation writes the next version of a record over it. -/
inductive Rewrites (collection : Collection) (operation : Operation) (stamp : Stamp) :
    Record → Record → Prop
  | edited (kind : ElementKind) (guid : Guid) (change : Change) (current edited next : kind.Carrier)
      (hoperation : operation = .change kind guid change)
      (hlatest : collection.store.latest guid = some (toRecord current))
      (hedits : collection.Edits guid current change edited)
      (hnext : Versioning.nextVersion current edited stamp = .ok next) :
      Rewrites collection operation stamp (toRecord current) (toRecord next)
  | retired (kind : ElementKind) (current : kind.Carrier)
      (hlive : (header current).isDeleted = false) :
      Rewrites collection operation stamp (toRecord current)
        (toRecord (Versioning.retired current stamp))
  | moved (relationship : Relationship) (entity : Guid) (proxy : Proxy) :
      Rewrites collection operation stamp (.relationship relationship)
        (.relationship (relationship.moved entity proxy stamp))
  | relabelled (current labelled next : Entity) (hlive : current.header.isDeleted = false)
      (hheader : labelled.header = current.header)
      (hnext : Versioning.nextVersion current labelled stamp = .ok next) :
      Rewrites collection operation stamp (.entity current) (.entity next)

/-- What a lifecycle operation puts is a creation, or the next version of what is stored under its
identity. -/
theorem rewrites_of_planned (hcoherent : collection.store.Coherent)
    (h : collection.Planned call fresh operation statements) (hlifecycle : operation.IsLifecycle)
    {guard : Guard} (hmem : .put record guard ∈ statements) :
    guard = .absent ∨ ∃ prior, collection.store.latest record.guid = some prior ∧
      collection.Rewrites operation call.stamp prior record := by
  -- an element that succeeds a stored one is put under the identity of that one
  have hstored {kind : ElementKind} {guid : Guid} {current next : kind.Carrier}
      (hlatest : collection.store.latest guid = some (toRecord current))
      (hsame : Instance.guid next = Instance.guid current) :
      collection.store.latest (toRecord next).guid = some (toRecord current) := by
    rw [guid_toRecord, hsame, hcoherent.element_guid_of_read hlatest]
    exact hlatest
  cases h with
  | nothing => cases hmem
  | addEntity | addRelationship =>
    cases List.mem_singleton.mp hmem
    exact Or.inl rfl
  | change kind guid change current edited next hoperation hlatest hedits hnext =>
    cases List.mem_singleton.mp hmem
    refine Or.inr ⟨_, hstored hlatest ?_,
      .edited kind guid change current edited next hoperation hlatest hedits hnext⟩
    cases kind <;> exact (Versioning.Succeeds.of_nextVersion hnext).guid_eq
  | purge => exact absurd hmem Plan.put_not_mem_purge
  | reIdentify kind guid newGuid current hoperation hne hlatest hlive =>
    rcases List.mem_append.mp hmem with hmem | hmem
    · right
      rcases mem_moves_iff.mp hmem with ⟨relationship, hedge, hput⟩ | hput
      · cases hput
        -- only an entity has relationships, and those are stored
        have hrelationship : collection.store.latest relationship.header.guid =
            some (.relationship relationship) := by
          cases kind with
          | entity => exact (hcoherent.mem_edges_iff.mp hedge).1
          | relationship => exact absurd hedge List.not_mem_nil
        exact ⟨_, hrelationship, .moved relationship guid _⟩
      · cases hput
        refine ⟨_, hstored hlatest ?_, .retired kind current hlive⟩
        cases kind <;> exact Versioning.guid_retired current call.stamp
    · cases List.mem_singleton.mp hmem
      exact Or.inl rfl
  | relabel guid current labelled next hcurrent hheader hnext hlive =>
    cases List.mem_singleton.mp hmem
    rw [supplied_of_isLifecycle hlifecycle] at hcurrent
    have hsame := (Versioning.Succeeds.of_nextVersion hnext).guid_eq
    exact Or.inr ⟨_, @hstored .entity _ _ _ (hcurrent.resolve_right List.not_mem_nil) hsame,
      .relabelled current labelled next hlive hheader hnext⟩
  | relabelCopy guid current labelled hcopy => exact absurd hlifecycle hcopy
  | addProxy _ hoperation | saveEntity _ hoperation | saveRelationship _ hoperation
  | purgeCopy _ _ _ _ hoperation =>
    subst hoperation
    exact hlifecycle.elim

/-! ## Successive revisions -/

/-- Every rewrite adds one to the version. -/
theorem Rewrites.version_eq (h : collection.Rewrites operation stamp prior record) :
    record.header.version = prior.header.version + 1 := by
  cases h with
  | edited kind guid change current edited next hoperation hlatest hedits hnext =>
    rw [header_toRecord, header_toRecord]
    cases kind <;> exact (Versioning.Succeeds.of_nextVersion hnext).version_eq
  | retired kind current hlive =>
    rw [header_toRecord, header_toRecord]
    exact Versioning.version_retired current stamp
  | moved => rfl
  | relabelled current labelled next hlive hheader hnext =>
    exact (Versioning.Succeeds.of_nextVersion hnext).version_eq

/-- Every rewrite keeps the kind. -/
theorem Rewrites.kind_eq (h : collection.Rewrites operation stamp prior record) :
    record.kind = prior.kind := by
  cases h with
  | edited | retired => rw [ElementKind.kind_toRecord, ElementKind.kind_toRecord]
  | moved | relabelled => rfl

/-- A transaction of a lifecycle operation keeps the revisions of an identity, leaves one at most,
or writes the next version of what is stored over it. -/
theorem Planned.chain_of_isLifecycle (hreachable : collection.Reachable)
    (hrange : collection.store.clock.InRange)
    (h : collection.Planned call fresh operation statements) (hlifecycle : operation.IsLifecycle)
    {store : Store} {receipt : Receipt}
    (hsubmit : collection.store.submit statements call.now = .ok (store, receipt)) (guid : Guid) :
    store.chain guid = collection.store.chain guid ∨ (store.chain guid).length ≤ 1 ∨
      ∃ prior record, collection.store.latest guid = some prior ∧
        collection.Rewrites operation call.stamp prior record ∧
        store.chain guid = .new record receipt.validTime call.now ::
          (collection.store.chain guid).closeAt receipt.validTime := by
  have hcoherent := hreachable.store.coherent
  have hrun := Store.runAll_of_submit hsubmit
  obtain ⟨-, rfl, rfl⟩ := Store.submit_eq_ok_iff.mp hsubmit
  rcases h.evictions_or_puts with hevictions | hputs
  · refine (Store.chain_foldl_apply_of_evictions hevictions guid).imp_right fun hnil => Or.inl ?_
    rw [Store.carriedOut, hnil]
    exact Nat.zero_le 1
  by_cases hnamed : ∃ statement ∈ statements, statement.guid = guid
  · obtain ⟨record, guard, hmem, rfl, hchain⟩ :=
      collection.store.chain_carriedOut (hputs guid) hnamed call.now
    right
    rcases rewrites_of_planned hcoherent h hlifecycle hmem with rfl | ⟨prior, hlatest, hrewrites⟩
    · -- the guard of a creation has passed, so that there were no revisions
      have hnone := Records.eq_none_of_create hrun hmem (hputs _)
      rw [hchain, hcoherent.latest_eq_none_iff.mp hnone]
      exact Or.inl (Nat.le_refl 1)
    · refine Or.inr ⟨prior, record, hlatest, hrewrites, ?_⟩
      rw [hchain, Chain.push_eq_cons
        (hreachable.store.clockReached.lt_commitTime hrange call.now record.guid)]
  · have hunnamed : ∀ statement ∈ statements, statement.guid ≠ guid :=
      fun statement hmem hguid => hnamed ⟨statement, hmem, hguid⟩
    exact Or.inl (collection.store.chain_carriedOut_of_ne hunnamed call.now)

end Collection

end MetadataGraph

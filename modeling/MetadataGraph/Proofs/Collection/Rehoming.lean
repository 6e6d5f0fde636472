import MetadataGraph.Proofs.Collection.LostUpdate
import MetadataGraph.Proofs.Collection.Rewriting

/-!
# Changes of ownership

Who owns an instance, and which collection replicates it, is part of its header. A re-home gives it
another owner. All other operations that write the next version of an instance keep its owner, but
for one: an undo brings back the header of the version before with its content, and with it the
owner of then. We prove:

* `Edits.ownership_eq` and `Rewrites.ownership_eq`: what neither re-homes nor undoes keeps the
  owner;
* `ownership_of_undo`: an undo brings back the owner of the version before;
* `ownership_of_execute`: after any operation but a purge and a re-home everything that was stored
  has the owner that it had, except for what is undone;
* `lostOwnership_asset`: an undo can take an instance away from the collection.
-/

namespace MetadataGraph

open Element Instance

/-- Who owns an instance and where it came from. -/
structure Ownership where
  /-- The owner. -/
  home : CollectionId
  /-- The owner's display name. -/
  homeName : Option String
  /-- Where the instance originated. -/
  provenance : Provenance
  /-- The collection that replicates it. -/
  replicatedBy : Option CollectionId
  deriving DecidableEq

namespace Header

/-- The part of the header that tells who owns the instance. -/
def ownership (header : Header) : Ownership :=
  ⟨header.home, header.homeName, header.provenance, header.replicatedBy⟩

/-- Which collections may change an instance depends on its owner only. -/
theorem isUpdatableBy_congr {one other : Header} (h : one.ownership = other.ownership)
    (collection : CollectionId) :
    one.isUpdatableBy collection = other.isUpdatableBy collection := by
  have hhome : one.home = other.home := congrArg Ownership.home h
  have hreplica : one.replicatedBy = other.replicatedBy := congrArg Ownership.replicatedBy h
  rw [isUpdatableBy, isUpdatableBy, isHomedIn, isHomedIn, hhome, hreplica]

end Header

/-- The next version has the owner that its content has. -/
theorem Versioning.ownership_nextVersion {α : Type} [Instance α] {prior mutated next : α}
    {stamp : Stamp} (h : nextVersion prior mutated stamp = .ok next) :
    (header next).ownership = (header mutated).ownership := by
  obtain ⟨-, -, rfl⟩ := nextVersion_eq_ok_iff.mp h
  rw [header_setHeader]
  rfl

/-- The operation gives an element another owner. -/
def Operation.IsRehome : Operation → Prop
  | change _ _ (.reHome ..) => True
  | _ => False

namespace Collection

variable {collection next : Collection} {call : Call} {fresh guid : Guid} {operation : Operation}
  {stamp : Stamp} {reply : Reply} {prior record : Record}

/-! ## Rewrites -/

section Changes

variable {α : Type} [TypedElement α] {current edited : α}

/-- Only an undo and a re-home change the owner. -/
theorem Edits.ownership_eq {change : Change} (h : collection.Edits guid current change edited)
    (hundo : change ≠ .undo)
    (hrehome : ∀ currentHome newHome newHomeName,
      change ≠ .reHome currentHome newHome newHomeName) :
    (header edited).ownership = (header current).ownership := by
  cases h with
  | properties => rw [header_setProperties]
  | status | delete | restore | reType =>
    rw [header_setHeader]
    rfl
  | undo => exact absurd rfl hundo
  | reHome currentHome newHome newHomeName => exact absurd rfl (hrehome _ _ _)

/-- An accepted undo writes the next version of what is stored with the owner of the version
before. -/
theorem ownership_of_planUndo {plan : Plan} (h : collection.planUndo α call guid = .ok plan) :
    ∃ current previous next : α, plan = .replace current next ∧
      collection.store.latest guid = some (toRecord current) ∧
        collection.previous α guid = .ok previous ∧ Versioning.Succeeds next current ∧
          (header next).ownership = (header previous).ownership := by
  obtain ⟨current, edited, next, hlatest, hedits, hnext, rfl⟩ :=
    planChange_edits (by simp) (by simp) (show collection.planChange α call guid .undo = .ok plan
      from h)
  cases hedits with
  | undo previous hlive hprevious hformer =>
    exact ⟨current, edited, next, rfl, hlatest, hprevious, .of_nextVersion hnext,
      Versioning.ownership_nextVersion hnext⟩

end Changes

/-- A rewrite that neither undoes nor re-homes the record keeps the owner. -/
theorem Rewrites.ownership_eq (hcoherent : collection.store.Coherent)
    (h : collection.Rewrites operation stamp prior record) (hrehome : ¬operation.IsRehome)
    (hundo : ∀ kind, operation ≠ .change kind prior.guid .undo) :
    record.header.ownership = prior.header.ownership := by
  cases h with
  | edited kind guid change current edited next hoperation hlatest hedits hnext =>
    subst hoperation
    have hguid : (toRecord current).guid = guid := hcoherent.guid_of_read hlatest
    have hchange : change ≠ .undo := fun heq => hundo kind (by rw [hguid, heq])
    have hhome : ∀ currentHome newHome newHomeName,
        change ≠ .reHome currentHome newHome newHomeName := by
      rintro currentHome newHome newHomeName rfl
      exact hrehome trivial
    rw [header_toRecord, header_toRecord]
    cases kind with
    | entity =>
      exact (Versioning.ownership_nextVersion hnext).trans (hedits.ownership_eq hchange hhome)
    | relationship =>
      exact (Versioning.ownership_nextVersion hnext).trans (hedits.ownership_eq hchange hhome)
  | retired kind current hlive =>
    rw [header_toRecord, header_toRecord, Versioning.retired, header_setHeader]
    rfl
  | moved => rfl
  | relabelled current labelled next hlive hheader hnext =>
    exact (Versioning.ownership_nextVersion hnext).trans (congrArg Header.ownership hheader)

/-! ## Operations -/

/-- What was stored before an accepted operation that is guarded by versions is still stored, or the
operation has written the next version over it. -/
theorem rewritten_of_execute (hcoherent : collection.store.Coherent)
    (hguarded : operation.IsVersionGuarded)
    (hexecute : collection.execute call fresh operation = .ok (next, reply))
    (hlatest : collection.store.latest guid = some prior) :
    next.store.latest guid = some prior ∨ ∃ record, next.store.latest guid = some record ∧
      collection.Rewrites operation call.stamp prior record := by
  obtain ⟨plan, hplan, -, hrun⟩ := runAll_of_execute hexecute
  have hplanned := planned_of_plan hplan
  have hevict := (guarded_of_planned hcoherent hplanned hguarded).evict_not_mem
  rcases Records.runAll_cases hrun guid with
    ⟨hsame, -⟩ | ⟨-, hmem⟩ | ⟨record, guard, hrecord, hmem, rfl⟩
  · exact Or.inl (hsame.trans hlatest)
  · exact absurd hmem (hevict guid)
  · rcases rewrites_of_planned hcoherent hplanned hguarded.1 hmem with
      rfl | ⟨stored, hstored, hrewrites⟩
    · -- where something is stored nothing is created
      have hnone := Records.eq_none_of_create hrun hmem (hevict _)
      cases hnone.symm.trans hlatest
    · cases hlatest.symm.trans hstored
      exact Or.inr ⟨record, hrecord, hrewrites⟩

/-- What an accepted undo writes has the owner of the version before. -/
theorem ownership_of_undo (hcoherent : collection.store.Coherent) {kind : ElementKind}
    (hexecute : collection.execute call fresh (.change kind guid .undo) = .ok (next, reply))
    (hrecord : next.store.latest guid = some record) :
    ∃ previous : kind.Carrier, collection.previous kind.Carrier guid = .ok previous ∧
      record.header.ownership = (header previous).ownership := by
  obtain ⟨plan, hplan, -, hrun⟩ := runAll_of_execute hexecute
  have hwritten {α : Type} [TypedElement α] (h : collection.planUndo α call guid = .ok plan) :
      ∃ previous : α, collection.previous α guid = .ok previous ∧
        record.header.ownership = (header previous).ownership := by
    obtain ⟨current, previous, written, rfl, hlatest, hprevious, hsucceeds, howner⟩ :=
      ownership_of_planUndo h
    have hguid : (toRecord written).guid = guid := by
      rw [guid_toRecord]
      exact hsucceeds.guid_eq.trans (hcoherent.element_guid_of_read hlatest)
    obtain ⟨-, hstored⟩ := Records.runAll_put_eq_ok_iff.mp hrun
    rw [← hstored, hguid, Function.update_self] at hrecord
    cases hrecord
    exact ⟨previous, hprevious, by rw [header_toRecord, howner]⟩
  cases kind with
  | entity => exact hwritten hplan
  | relationship => exact hwritten hplan

/-- After any accepted lifecycle operation but a purge and a re-home, everything that was stored is
still stored, of the same kind, and has the owner that it had, so that the same collections may
change it. Only what is undone has the owner of the version that is brought back. -/
theorem ownership_of_execute (hreachable : collection.Reachable)
    (hguarded : operation.IsVersionGuarded) (hrehome : ¬operation.IsRehome)
    (hexecute : collection.execute call fresh operation = .ok (next, reply))
    (hlatest : collection.store.latest guid = some prior) :
    ∃ record, next.store.latest guid = some record ∧ record.kind = prior.kind ∧
      ((∀ kind, operation ≠ .change kind guid .undo) →
        record.header.ownership = prior.header.ownership ∧
          ∀ id, record.header.isUpdatableBy id = prior.header.isUpdatableBy id) ∧
      ∀ kind, operation = .change kind guid .undo →
        ∃ previous : kind.Carrier, collection.previous kind.Carrier guid = .ok previous ∧
          record.header.ownership = (header previous).ownership := by
  have hcoherent := hreachable.store.coherent
  have hundone {record : Record} (hrecord : next.store.latest guid = some record) :
      ∀ kind, operation = .change kind guid .undo →
        ∃ previous : kind.Carrier, collection.previous kind.Carrier guid = .ok previous ∧
          record.header.ownership = (header previous).ownership := by
    rintro kind rfl
    exact ownership_of_undo hcoherent hexecute hrecord
  rcases rewritten_of_execute hcoherent hguarded hexecute hlatest with
    hkept | ⟨record, hrecord, hrewrites⟩
  · exact ⟨prior, hkept, rfl, fun _ => ⟨rfl, fun _ => rfl⟩, hundone hkept⟩
  · refine ⟨record, hrecord, hrewrites.kind_eq, fun hundo => ?_, hundone hrecord⟩
    have hguid : prior.guid = guid := hcoherent.guid_of_read hlatest
    have howner := hrewrites.ownership_eq hcoherent hrehome (hguid.symm ▸ hundo)
    exact ⟨howner, Header.isUpdatableBy_congr howner⟩

/-- A collection that has taken over two entities from another one, whose copies it had. -/
private def heir : Collection :=
  let call : Call := ⟨"ada", .earliest⟩
  let copy (guid : Guid) : Entity :=
    .new (Header.new guid ⟨"Asset", []⟩ "remote" ⟨"bob", .earliest⟩) ∅ []
  let takeOver : Change := .reHome "remote" "local" "Local"
  run ⟨default, ∅, .empty⟩
    [.addType ⟨"Asset", .entity, none, [], [], [], none, []⟩,
      .operate call "" (.saveEntity (copy "asset")),
      .operate call "" (.saveEntity (copy "other")),
      .operate call "" (.change .entity "asset" takeOver),
      .operate call "" (.change .entity "other" takeOver)]

private theorem reachable_heir : heir.Reachable := (Reachable.start _ _).run _

/-- After a change of the status of one of them both have the owner that they had, and after an undo
the other one has. -/
theorem ownership_heir :
    let draft : Operation := .change .entity "asset" (.status .draft)
    let undo : Operation := .change .entity "asset" .undo
    (∃ next reply record, heir.execute ⟨"ada", .earliest⟩ "" draft = .ok (next, reply) ∧
      next.store.latest "asset" = some record ∧ record.header.version = 3 ∧
        record.header.ownership = ⟨"local", some "Local", .cohort, none⟩) ∧
    ∃ next reply record, heir.execute ⟨"ada", .earliest⟩ "" undo = .ok (next, reply) ∧
      next.store.latest "other" = some record ∧
        record.header.ownership = ⟨"local", some "Local", .cohort, none⟩ := by
  intro draft undo
  have hdraft : draft.IsVersionGuarded := ⟨trivial, by simp [draft]⟩
  have hundo : undo.IsVersionGuarded := ⟨trivial, by simp [undo]⟩
  obtain ⟨drafted, reply, hdrafted⟩ : ∃ next reply,
      heir.execute ⟨"ada", .earliest⟩ "" draft = .ok (next, reply) := ⟨_, _, rfl⟩
  obtain ⟨undone, reply', hundone⟩ : ∃ next reply,
      heir.execute ⟨"ada", .earliest⟩ "" undo = .ok (next, reply) := ⟨_, _, rfl⟩
  obtain ⟨asset, hasset⟩ : ∃ asset, heir.store.latest "asset" = some asset := ⟨_, rfl⟩
  obtain ⟨other, hother⟩ : ∃ other, heir.store.latest "other" = some other := ⟨_, rfl⟩
  constructor
  · obtain ⟨record, hrecord, -, hkept, -⟩ :=
      ownership_of_execute reachable_heir hdraft not_false hdrafted hasset
    refine ⟨drafted, reply, record, hdrafted, hrecord, ?_, ?_⟩
    · cases hdrafted
      cases hrecord
      rfl
    · rw [(hkept (by simp [draft])).1]
      cases hasset
      rfl
  · obtain ⟨record, hrecord, -, hkept, -⟩ :=
      ownership_of_execute reachable_heir hundo not_false hundone hother
    refine ⟨undone, reply', record, hundone, hrecord, ?_⟩
    rw [(hkept (by simp [undo])).1]
    cases hother
    rfl

/-- The undo gives the one that is undone back to its former owner, so that the collection may not
change it any more. -/
theorem lostOwnership_asset :
    let undo : Operation := .change .entity "asset" .undo
    heir.Reachable ∧ undo.IsVersionGuarded ∧ ¬undo.IsRehome ∧
      ∃ next reply prior record, heir.execute ⟨"ada", .earliest⟩ "" undo = .ok (next, reply) ∧
        heir.store.latest "asset" = some prior ∧ next.store.latest "asset" = some record ∧
          prior.kind = .entity ∧ record.header.ownership ≠ prior.header.ownership ∧
            prior.header.isUpdatableBy heir.id ∧ record.header.isUpdatableBy heir.id = false := by
  refine ⟨reachable_heir, ⟨trivial, by simp⟩, not_false, _, _, _, _, rfl, rfl, rfl, rfl, ?_⟩
  decide

end Collection

end MetadataGraph

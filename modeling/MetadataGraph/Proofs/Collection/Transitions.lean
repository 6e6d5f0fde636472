import Mathlib.Data.List.Chain
import MetadataGraph.Proofs.Collection.Rewriting
import MetadataGraph.Proofs.Collection.StatusInvariant
import MetadataGraph.Proofs.Collection.VersionCount

/-!
# The state machine of an instance

An instance is live or deleted. Lifecycle operations change what it says while it is live, delete
it, and restore it as it was; while it is deleted only the ends of a relationship may move, since
the entities at them may get new identities. We prove:

* `Rewrites.legalNext`: every rewrite of a record is a legal step;
* `legal_run`: over a run from an empty store, successive revisions are legal steps;
* `Record.SameContent.of_deleted` and `of_restored`: what is restored after legal steps agrees with
  what was deleted;
* `legal_transitions`: what this says of every two revisions that follow each other, and of every
  delete that is followed by a restore.
-/

namespace MetadataGraph

open Element Instance

/-! ## Legal steps -/

namespace Record

/-- The record after a delete, which only the status and the status on delete tell of. -/
def deletedBy (record : Record) (stamp : Stamp) : Record :=
  record.withHeader ({ record.header with
    status := .deleted
    statusOnDelete := some record.header.status }.next stamp)

/-- The record after a restore to a status. -/
def restoredBy (record : Record) (status : Status) (stamp : Stamp) : Record :=
  record.withHeader ({ record.header with status, statusOnDelete := none }.next stamp)

/-- What a lifecycle operation may write over a record. -/
structure LegalNext (prior next : Record) : Prop where
  /-- The version is one more. -/
  version_eq : next.header.version.toNat = prior.header.version.toNat + 1
  /-- A live record is deleted as it is. -/
  deleted : prior.header.isDeleted = false → next.header.isDeleted →
    ∃ stamp, next = prior.deletedBy stamp
  /-- A deleted record is restored as it is, to the status that it was deleted in. -/
  restored : prior.header.isDeleted → next.header.isDeleted = false →
    ∃ status stamp, prior.header.statusOnDelete = some status ∧ next = prior.restoredBy status stamp
  /-- Only a relationship is changed while it is deleted, and only at its ends. -/
  moved : prior.header.isDeleted → next.header.isDeleted →
    ∃ old new stamp, prior = .relationship old ∧ next = .relationship new ∧
      new.header = old.header.next stamp ∧ new.properties = old.properties

variable {prior next : Record} {stamp : Stamp}

/-- Whatever is live may follow what is live. -/
theorem LegalNext.of_live
    (hversion : next.header.version.toNat = prior.header.version.toNat + 1)
    (hprior : prior.header.isDeleted = false) (hnext : next.header.isDeleted = false) :
    prior.LegalNext next where
  version_eq := hversion
  deleted _ hdeleted := absurd hdeleted (Bool.eq_false_iff.mp hnext)
  restored hdeleted _ := absurd hdeleted (Bool.eq_false_iff.mp hprior)
  moved hdeleted _ := absurd hdeleted (Bool.eq_false_iff.mp hprior)

/-- What is live may be deleted. -/
theorem LegalNext.of_deletedBy
    (hversion : (prior.deletedBy stamp).header.version.toNat = prior.header.version.toNat + 1)
    (hlive : prior.header.isDeleted = false) : prior.LegalNext (prior.deletedBy stamp) where
  version_eq := hversion
  deleted _ _ := ⟨stamp, rfl⟩
  restored hdeleted _ := absurd hdeleted (Bool.eq_false_iff.mp hlive)
  moved hdeleted _ := absurd hdeleted (Bool.eq_false_iff.mp hlive)

/-- What is deleted may be restored to the live status that it was deleted in. -/
theorem LegalNext.of_restoredBy {status : Status}
    (hversion :
      (prior.restoredBy status stamp).header.version.toNat = prior.header.version.toNat + 1)
    (hdeleted : prior.header.isDeleted) (hkept : prior.header.statusOnDelete = some status)
    (hlive : status.isDeleted = false) : prior.LegalNext (prior.restoredBy status stamp) where
  version_eq := hversion
  deleted hprior _ := absurd hdeleted (Bool.eq_false_iff.mp hprior)
  restored _ _ := ⟨status, stamp, hkept, rfl⟩
  moved _ hnext := by
    rw [restoredBy, header_withHeader] at hnext
    exact absurd hnext (Bool.eq_false_iff.mp hlive)

/-- A relationship may be moved, whether it is live or deleted. -/
theorem LegalNext.of_moved {relationship : Relationship} {entity : Guid} {proxy : Proxy}
    (hversion : (relationship.header.version + 1).toNat = relationship.header.version.toNat + 1) :
    (Record.relationship relationship).LegalNext
      (.relationship (relationship.moved entity proxy stamp)) where
  version_eq := hversion
  -- a move keeps the status
  deleted hlive hdeleted := absurd hdeleted (Bool.eq_false_iff.mp hlive)
  restored hdeleted hlive := absurd hdeleted (Bool.eq_false_iff.mp hlive)
  moved _ _ := ⟨relationship, _, stamp, rfl, rfl, rfl, rfl⟩

end Record

section Headers

variable {α : Type} [Element α] [HeaderApart α] {prior mutated next : α} {stamp : Stamp}

/-- The record of the next version has the content of the mutated element. -/
theorem Versioning.toRecord_nextVersion (h : nextVersion prior mutated stamp = .ok next) :
    toRecord next = (toRecord mutated).withHeader
      ({ header mutated with version := version prior }.next stamp) := by
  obtain ⟨-, -, rfl⟩ := nextVersion_eq_ok_iff.mp h
  exact HeaderApart.toRecord_setHeader _ _

/-- A new header replaces the one that replaced another before. -/
theorem Element.withHeader_toRecord_setHeader (a : α) (first second : Header) :
    (toRecord (setHeader a first)).withHeader second = (toRecord a).withHeader second := by
  rw [HeaderApart.toRecord_setHeader]
  cases toRecord a <;> rfl

/-- A retired element is the element after a delete. -/
theorem Versioning.toRecord_retired (a : α) (stamp : Stamp) :
    toRecord (retired a stamp) = (toRecord a).deletedBy stamp := by
  rw [retired, HeaderApart.toRecord_setHeader, Record.deletedBy, header_toRecord]

end Headers

namespace Collection

variable {collection : Collection} {guid : Guid} {operation : Operation} {stamp : Stamp}

/-- A change of an element, if it neither purges nor re-identifies, is a legal step. -/
theorem Edits.legalNext {α : Type} [TypedElement α] [HeaderApart α] {current edited next : α}
    {change : Change} (h : collection.Edits guid current change edited)
    (hnext : Versioning.nextVersion current edited stamp = .ok next)
    (hfits : (header current).HasStatusInvariant)
    (hversion : (toRecord next).header.version.toNat =
      (toRecord current).header.version.toNat + 1) :
    (toRecord current).LegalNext (toRecord next) := by
  have hrecord := Versioning.toRecord_nextVersion hnext
  -- the next version is live if what the change makes is live
  have hstill (hcurrent : (header current).isDeleted = false)
      (hedited : (header edited).isDeleted = false) :
      (toRecord current).LegalNext (toRecord next) := by
    refine .of_live hversion (by rwa [header_toRecord]) ?_
    rw [hrecord, Record.header_withHeader]
    exact hedited
  cases h with
  | status status hlive hstatus hallowed =>
    exact hstill hlive (by rwa [header_setHeader])
  | properties properties hlive hproperties =>
    exact hstill hlive (by rwa [header_setProperties])
  | undo previous hlive hprevious hformer => exact hstill hlive hformer
  | delete hlive =>
    have hdeleted : toRecord next = (toRecord current).deletedBy stamp := by
      rw [hrecord, Element.withHeader_toRecord_setHeader, header_setHeader, Record.deletedBy,
        header_toRecord]
      rfl
    rw [hdeleted] at hversion ⊢
    exact .of_deletedBy hversion (by rwa [header_toRecord])
  | restore status hdeleted hstatus =>
    have hrestored : toRecord next = (toRecord current).restoredBy status stamp := by
      rw [hrecord, Element.withHeader_toRecord_setHeader, header_setHeader, Record.restoredBy,
        header_toRecord]
      rfl
    -- what is kept of a deleted element is a live status
    have hlive : status.isDeleted = false := by
      refine decide_eq_false ?_
      rintro rfl
      exact (Header.hasStatusInvariant_iff.mp hfits).2 hstatus
    rw [hrestored] at hversion ⊢
    exact .of_restoredBy hversion (by rwa [header_toRecord]) (by rwa [header_toRecord]) hlive
  | reType currentType newType typeRef hlive hsame htype hproperties hallowed hparts =>
    exact hstill hlive (by rwa [header_setHeader])
  | reHome currentHome newHome newHomeName hlive hsame hnew =>
    exact hstill hlive (by rwa [header_setHeader])

/-- Every rewrite of a record is a legal step. -/
theorem Rewrites.legalNext {prior record : Record}
    (h : collection.Rewrites operation stamp prior record) (hfits : prior.HasStatusInvariant)
    (hversion : (prior.header.version + 1).toNat = prior.header.version.toNat + 1) :
    prior.LegalNext record := by
  have hnextVersion : record.header.version.toNat = prior.header.version.toNat + 1 := by
    rw [h.version_eq, hversion]
  have hown := hfits.header
  cases h with
  | edited kind guid change current edited next hoperation hlatest hedits hnext =>
    rw [header_toRecord] at hown
    cases kind with
    | entity => exact hedits.legalNext hnext hown hnextVersion
    | relationship => exact hedits.legalNext hnext hown hnextVersion
  | retired kind current hlive =>
    have hretired : toRecord (Versioning.retired current stamp) =
        (toRecord current).deletedBy stamp := by
      cases kind <;> exact Versioning.toRecord_retired current stamp
    rw [hretired] at hnextVersion ⊢
    exact .of_deletedBy hnextVersion (by rwa [header_toRecord])
  | moved relationship entity proxy => exact .of_moved hversion
  | relabelled current labelled next hlive hheader hnext =>
    refine .of_live hnextVersion hlive ?_
    have hlabelled : labelled.header.isDeleted = false := hheader ▸ hlive
    rw [show Record.entity next = _ from Versioning.toRecord_nextVersion hnext,
      Record.header_withHeader]
    exact hlabelled

end Collection

/-! ## Deletes and restores -/

/-- The header without its version and without who changed it last and when. -/
def Header.unversioned (header : Header) : Header :=
  { header with version := 0, updatedBy := none, updatedAt := none }

namespace Record

/-- Two records agree in all but their headers and the ends of relationships. -/
structure SameBody (one other : Record) : Prop where
  /-- The kind is the same. -/
  kind_eq : other.kind = one.kind
  /-- The properties are the same. -/
  properties_eq : other.properties = one.properties
  /-- The classifications are the same. -/
  classifications_eq : other.classifications = one.classifications

/-- Two records agree in all but their versions, who made them and when, and the ends of
relationships. -/
structure SameContent (one other : Record) : Prop extends SameBody one other where
  /-- Identity, type, ownership and status are the same. -/
  unversioned_eq : other.header.unversioned = one.header.unversioned

variable {original deleted prior next restored : Record} {stamp : Stamp}

theorem SameBody.trans (h : original.SameBody deleted) (h' : deleted.SameBody next) :
    original.SameBody next where
  kind_eq := h'.kind_eq.trans h.kind_eq
  properties_eq := h'.properties_eq.trans h.properties_eq
  classifications_eq := h'.classifications_eq.trans h.classifications_eq

theorem sameBody_withHeader (record : Record) (header : Header) :
    record.SameBody (record.withHeader header) := by
  cases record <;> exact ⟨rfl, rfl, rfl⟩

/-- A legal step of a deleted record changes nothing but ends and version. -/
theorem LegalNext.sameContent (h : prior.LegalNext next) (hprior : prior.header.isDeleted)
    (hnext : next.header.isDeleted) : prior.SameContent next := by
  obtain ⟨old, new, stamp, rfl, rfl, hheader, hproperties⟩ := h.moved hprior hnext
  refine ⟨⟨rfl, hproperties, rfl⟩, ?_⟩
  show new.header.unversioned = old.header.unversioned
  rw [hheader]
  rfl

/-- The revisions of a record while it is deleted agree with the one that the delete made. -/
theorem SameContent.of_deleted {older : List Record}
    (hlegal : (deleted :: older ++ [original]).IsChain fun next prior => prior.LegalNext next)
    (hdeleted : ∀ record ∈ deleted :: older, record.header.isDeleted)
    (hlive : original.header.isDeleted = false) :
    ∃ stamp, (original.deletedBy stamp).SameContent deleted := by
  -- by induction from the newest of these revisions back to the first one
  induction older generalizing deleted with
  | nil =>
    obtain ⟨hstep, -⟩ := List.isChain_cons_cons.mp hlegal
    obtain ⟨stamp, rfl⟩ := hstep.deleted hlive (hdeleted _ List.mem_cons_self)
    exact ⟨stamp, ⟨rfl, rfl, rfl⟩, rfl⟩
  | cons before older ih =>
    obtain ⟨hstep, hrest⟩ := List.isChain_cons_cons.mp hlegal
    obtain ⟨hnewest, hothers⟩ := List.forall_mem_cons.mp hdeleted
    obtain ⟨stamp, hsame⟩ := ih hrest hothers
    have hstays := hstep.sameContent (hothers before List.mem_cons_self) hnewest
    exact ⟨stamp, hsame.toSameBody.trans hstays.toSameBody,
      hstays.unversioned_eq.trans hsame.unversioned_eq⟩

/-- A restore brings back what the delete has kept. -/
theorem SameContent.of_restored (hsame : (original.deletedBy stamp).SameContent deleted)
    (hstep : deleted.LegalNext restored) (hdeleted : deleted.header.isDeleted)
    (hlive : restored.header.isDeleted = false) (hnone : original.header.statusOnDelete = none) :
    original.SameContent restored := by
  obtain ⟨status, time, hkept, rfl⟩ := hstep.restored hdeleted hlive
  have hheader := hsame.unversioned_eq
  rw [deletedBy, header_withHeader] at hheader
  -- the status on delete is the status that was replaced
  have hstatus : some status = some original.header.status := by
    rw [← hkept]
    exact congrArg Header.statusOnDelete hheader
  refine ⟨((sameBody_withHeader original _).trans hsame.toSameBody).trans
    (sameBody_withHeader deleted _), ?_⟩
  calc (deleted.restoredBy status time).header.unversioned
      = { deleted.header.unversioned with status, statusOnDelete := none } := by
        rw [restoredBy, header_withHeader]
        rfl
    _ = { original.header.unversioned with statusOnDelete := none } := by
        rw [hheader, Option.some.inj hstatus]
        rfl
    _ = original.header.unversioned := by
        rw [← hnone]
        rfl

end Record

/-! ## Histories -/

namespace Chain

/-- The records of a chain, newest first. -/
def records (chain : Chain) : List Record := chain.map fun revision => revision.data

/-- Each revision is followed by what a lifecycle operation may write over it. -/
def Legal (chain : Chain) : Prop := chain.records.IsChain fun next prior => prior.LegalNext next

theorem legal_of_length_le {chain : Chain} (h : chain.length ≤ 1) : chain.Legal := by
  rcases chain with _ | ⟨revision, _ | ⟨older, rest⟩⟩
  · exact .nil
  · exact .singleton _
  · simp at h

/-- A history stays legal when a legal next record is written over what is current. -/
theorem Legal.cons {chain : Chain} (h : chain.Legal) (hlinked : chain.Linked)
    {prior record : Record} (hcurrent : chain.visible? .now = some prior)
    (hlegal : prior.LegalNext record) (validTime transactionTime : Instant) :
    Legal (.new record validTime transactionTime :: chain.closeAt validTime) := by
  cases chain with
  | nil => cases hcurrent
  | cons newest older =>
    rw [hlinked.visible?_now, Option.some.injEq] at hcurrent
    subst hcurrent
    exact List.isChain_cons_cons.mpr ⟨hlegal, h⟩

end Chain

namespace Collection

variable {collection : Collection} {guid : Guid}

/-- A lifecycle event keeps histories legal while the clock is in range. -/
theorem legal_after (hreachable : collection.Reachable) (hcounted : collection.store.Counted)
    (hfits : collection.store.AllRevisions Record.HasStatusInvariant)
    (hrange : collection.store.clock.InRange) {event : Event} (hlifecycle : event.IsLifecycle)
    (hlegal : (collection.store.chain guid).Legal) :
    ((collection.after event).store.chain guid).Legal := by
  rcases collection.planned_of_after event with
    hsame | ⟨call, fresh, operation, statements, reply, receipt, rfl, -, hplanned, hsubmit⟩
  · rwa [hsame]
  rcases hplanned.chain_of_isLifecycle hreachable hrange hlifecycle hsubmit guid with
    hkept | hshort | ⟨prior, record, hlatest, hrewrites, hchain⟩
  · rwa [hkept]
  · exact Chain.legal_of_length_le hshort
  · -- no version overflows, as it has not reached the number of commits
    have hversion := Store.toNat_version_add_one (hcounted.lt_of_latest hlatest)
    rw [hchain]
    exact hlegal.cons (hreachable.store.coherent.linked guid) hlatest
      (hrewrites.legalNext (hfits.of_latest hlatest) hversion) _ _

/-- A run of lifecycle events brings nothing from outside, so that status and status on delete fit
in all revisions. -/
theorem hasStatusInvariant_run {start : Collection} (hreachable : start.Reachable)
    (hempty : start.store = .empty) {events : List Event}
    (hlifecycle : ∀ event ∈ events, event.IsLifecycle) :
    (start.run events).store.AllRevisions Record.HasStatusInvariant := by
  refine allRevisions_run hreachable (hempty ▸ Store.allRevisions_empty _) ?_
  intro event hmem record hrecord
  have hnone : event.supplied = [] := by
    cases event with
    | addType type => rfl
    | operate call fresh operation => exact supplied_of_isLifecycle (hlifecycle _ hmem)
  rw [hnone] at hrecord
  cases hrecord

/-- A run of lifecycle events makes legal histories while the clock is in range. -/
theorem legal_run {start : Collection} (hreachable : start.Reachable)
    (hempty : start.store = .empty) {events : List Event}
    (hlifecycle : ∀ event ∈ events, event.IsLifecycle)
    (hrange : (start.run events).store.clock.InRange) :
    ((start.run events).store.chain guid).Legal := by
  -- by induction on the run: what the last event finds was made by the events before it
  induction events using List.reverseRecOn with
  | nil =>
    rw [run_nil, hempty]
    exact .nil
  | append_singleton events last ih =>
    have hevents : ∀ event ∈ events, event.IsLifecycle :=
      fun event hmem => hlifecycle event (List.mem_append_left _ hmem)
    rw [run_append] at hrange ⊢
    have hbefore := inRange_of_after hrange
    exact legal_after (hreachable.run events)
      (counted_run hreachable (hempty ▸ Store.counted_empty) hevents hbefore)
      (hasStatusInvariant_run hreachable hempty hevents) hbefore
      (hlifecycle last (List.mem_append_right _ (List.mem_singleton_self last)))
      (ih hevents hbefore)

/-- Over a run of lifecycle operations from an empty store, all revisions of an identity follow each
other legally: a live record is deleted as it is, a deleted one is restored as it is to the status
that it was deleted in, and while it is deleted only the ends of a relationship change. So what is
restored after a delete is, but for version and ends, what was there before the delete. -/
theorem legal_transitions (config : CollectionConfig) (catalog : TypeCatalog) {events : List Event}
    (hlifecycle : ∀ event ∈ events, event.IsLifecycle)
    (hrange : (run ⟨config, catalog, .empty⟩ events).store.clock.InRange) (guid : Guid) :
    let records := ((run ⟨config, catalog, .empty⟩ events).store.chain guid).records
    (∀ newer next prior older, records = newer ++ next :: prior :: older → prior.LegalNext next) ∧
    ∀ newer restored deleted original older,
      records = newer ++ restored :: (deleted ++ original :: older) →
      restored.header.isDeleted = false → deleted ≠ [] →
      (∀ record ∈ deleted, record.header.isDeleted) → original.header.isDeleted = false →
        original.SameContent restored := by
  intro records
  have hreachable := Reachable.start config catalog
  have hlegal : records.IsChain fun next prior => prior.LegalNext next :=
    legal_run hreachable rfl hlifecycle hrange
  refine ⟨fun newer next prior older hsplit =>
    List.isChain_iff_forall_rel_of_append_cons_cons.mp hlegal hsplit, ?_⟩
  intro newer restored deleted original older hsplit hrestored hsome hdeleted horiginal
  obtain ⟨last, before, rfl⟩ := List.exists_cons_of_ne_nil hsome
  -- the part of the history from the original to the restored revision
  have hpart : (restored :: last :: before ++ [original]).IsChain
      fun next prior => prior.LegalNext next := by
    refine hlegal.infix ⟨newer, older, ?_⟩
    rw [hsplit]
    simp
  obtain ⟨hstep, hrest⟩ := List.isChain_cons_cons.mp hpart
  obtain ⟨stamp, hsame⟩ := Record.SameContent.of_deleted hrest hdeleted horiginal
  have hfits : original.header.HasStatusInvariant := by
    have hmem : original ∈ records := by
      rw [hsplit]
      simp
    obtain ⟨revision, hrevision, rfl⟩ := List.mem_map.mp hmem
    exact (hasStatusInvariant_run hreachable rfl hlifecycle guid revision hrevision).header
  exact hsame.of_restored hstep (hdeleted last List.mem_cons_self) hrestored
    (hfits.eq_none horiginal)

/-- A run in which a relationship is deleted, moved with the entity at one of its ends, and
restored. -/
private def restoredEvents : List Event :=
  let call : Call := ⟨"ada", .earliest⟩
  [.addType ⟨"Asset", .entity, none, [], [], [], none, []⟩,
    .addType ⟨"Link", .relationship, none, [], [], [], none, []⟩,
    .operate call "asset" (.addEntity ⟨"Asset", ∅, [], .active, none⟩),
    .operate call "other" (.addEntity ⟨"Asset", ∅, [], .active, none⟩),
    .operate call "link" (.addRelationship ⟨"Link", ∅, "asset", "other", .prepared, none⟩),
    .operate call "" (.change .relationship "link" .delete),
    .operate call "" (.change .entity "asset" (.reIdentify "item")),
    .operate call "" (.change .relationship "link" .restore)]

/-- The relationship has four revisions, the third of which is moved while it is deleted, and the
last one is the first one again. -/
theorem legal_transitions_link :
    ∃ restored moved deleted original,
      ((run ⟨default, ∅, .empty⟩ restoredEvents).store.chain "link").records =
          [restored, moved, deleted, original] ∧
        restored.header.status = .prepared ∧ moved.header.isDeleted ∧
        restored.ends? = some ("item", "other") ∧ original.ends? = some ("asset", "other") ∧
        deleted.LegalNext moved ∧ original.SameContent restored := by
  have hlifecycle : ∀ event ∈ restoredEvents, event.IsLifecycle := by
    simp [restoredEvents, Event.IsLifecycle, Operation.IsLifecycle]
  obtain ⟨hsteps, hrestore⟩ := legal_transitions default ∅ hlifecycle (by decide) "link"
  refine ⟨_, _, _, _, rfl, by decide, by decide, by decide, by decide, ?_, ?_⟩
  · exact hsteps [_] _ _ [_] rfl
  · exact hrestore [] _ [_, _] _ [] rfl (by decide) (by simp) (by decide) (by decide)

end Collection

end MetadataGraph

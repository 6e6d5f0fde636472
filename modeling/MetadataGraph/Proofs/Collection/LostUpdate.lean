import Mathlib.Data.List.Induction
import Mathlib.Data.List.Infix
import MetadataGraph.Proofs.Collection.Interleaving
import MetadataGraph.Proofs.Collection.Planned
import MetadataGraph.Proofs.Store.Sequential

/-!
# No lost updates

Every operation but a purge guards what it replaces by the version that it was planned from. As long
as versions do not overflow, a version tells the revisions of an identity apart, whatever the order
in which clients plan and submit: no submission overwrites what its draft has not seen. We prove:

* `guarded_of_planned`: what these operations plan is guarded;
* `latest_of_submit`: what a guarded submission makes of what is stored under an identity;
* `advances_of_submit`: an accepted submission keeps the revisions of an identity, or its version
  grows;
* `chain_eq_of_submit`: what an accepted submission replaces has not changed since it was planned;
* `no_lost_update`: accepted drafts replace what they were made from, superseded ones are refused
  and change nothing, and the last version counts the accepted replacements.
-/

namespace MetadataGraph

open Element Instance

/-- The operation guards what it replaces by its version: it is any lifecycle operation but a
purge. -/
def Operation.IsVersionGuarded (operation : Operation) : Prop :=
  operation.IsLifecycle ∧ ∀ kind guid, operation ≠ .change kind guid .purge

namespace Store

/-- The statements create identities or write the next versions of what is stored. -/
def Guarded (store : Store) (statements : List Statement) : Prop :=
  ∀ statement ∈ statements, (∃ record, statement = .create record) ∨ statement.Revises store

/-- Versions stay in the range of 64 bits. They start at 1, so one that gets out of it is 0. -/
def VersionsInRange (store : Store) : Prop :=
  ∀ guid record, store.latest guid = some record → record.header.version ≠ 0

/-- What is stored under an identity is still stored, or a later version is. -/
def Advances (before after : Store) : Prop :=
  ∀ guid prior, before.latest guid = some prior →
    after.chain guid = before.chain guid ∨
      ∃ record, after.latest guid = some record ∧
        prior.header.version.toNat < record.header.version.toNat

variable {basis store next later : Store} {guid : Guid} {statements : List Statement}

/-- What is current depends on the revisions only. -/
theorem latest_congr (h : store.chain guid = next.chain guid) :
    store.latest guid = next.latest guid := by
  rw [latest, read, h, latest, read]

theorem Advances.refl (store : Store) : store.Advances store := fun _ _ _ => Or.inl rfl

theorem Advances.trans (h : store.Advances next) (hlater : next.Advances later) :
    store.Advances later := by
  intro guid prior hprior
  rcases h guid prior hprior with hsame | ⟨record, hrecord, hlt⟩
  · rw [← hsame]
    exact hlater guid prior ((latest_congr hsame).trans hprior)
  · rcases hlater guid record hrecord with hsame | ⟨last, hlast, hlt'⟩
    · exact Or.inr ⟨record, (latest_congr hsame).trans hrecord, hlt⟩
    · exact Or.inr ⟨last, hlast, Nat.lt_trans hlt hlt'⟩

/-- A version that does not become 0 grows by one. -/
theorem toNat_succ_version {version : UInt64} (h : version + 1 ≠ 0) :
    (version + 1).toNat = version.toNat + 1 := by
  have hne : version ≠ lastVersion := by
    rintro rfl
    exact h rfl
  exact Versioning.toNat_add_one hne

/-- Only what is current has to be looked at. -/
theorem versionsInRange_iff :
    store.VersionsInRange ↔ ∀ record ∈ store.visibleRecords .now, record.header.version ≠ 0 := by
  rw [visibleRecords_eq]
  constructor
  · intro h record hmem
    obtain ⟨guid, -, hread⟩ := List.mem_filterMap.mp hmem
    exact h guid record hread
  · intro h guid record hlatest
    have hkept := NameMap.mem_keys_iff.mpr (isSome_get?_of_read hlatest)
    exact h record (List.mem_filterMap.mpr ⟨guid, hkept, hlatest⟩)

instance : Decidable store.VersionsInRange := decidable_of_iff _ versionsInRange_iff.symm

/-- Guarded statements evict nothing. -/
theorem Guarded.evict_not_mem (h : basis.Guarded statements) (guid : Guid) :
    .evict guid ∉ statements := by
  intro hmem
  rcases h _ hmem with ⟨record, hcreate⟩ | hrevises
  · cases hcreate
  · exact hrevises.ne_evict guid rfl

/-- What an accepted submission of guarded statements makes of an identity that is stored: it leaves
the identity as it is, or it writes the next version, planned from a record with the version that is
stored. -/
theorem latest_of_submit (hguarded : basis.Guarded statements) {now : Instant} {receipt : Receipt}
    (hsubmit : store.submit statements now = .ok (next, receipt)) {current : Record}
    (hcurrent : store.latest guid = some current) :
    ((∀ statement ∈ statements, statement.guid ≠ guid) ∧ next.chain guid = store.chain guid) ∨
    ∃ prior record, basis.latest guid = some prior ∧
      prior.header.version = current.header.version ∧
        .replace prior.header.version record ∈ statements ∧ next.latest guid = some record ∧
          record.header.version = current.header.version + 1 := by
  have hrun := runAll_of_submit hsubmit
  have hevict := hguarded.evict_not_mem guid
  -- an identity that is stored is not created, so what names it writes the next version
  have hrevises {record : Record} {guard : Guard} (hmem : .put record guard ∈ statements)
      (hguid : record.guid = guid) : ∃ prior, guard = .version prior.header.version ∧
        basis.latest guid = some prior ∧ record.header.version = prior.header.version + 1 := by
    rcases hguarded _ hmem with ⟨created, hcreate⟩ | ⟨prior, _, hreplace, hprior, hversion⟩
    · cases hcreate
      have hnone := Records.eq_none_of_create hrun hmem (hguarded.evict_not_mem _)
      rw [hguid, hcurrent] at hnone
      cases hnone
    · cases hreplace
      exact ⟨prior, rfl, hguid ▸ hprior, hversion⟩
  by_cases hnamed : ∃ statement ∈ statements, statement.guid = guid
  · right
    -- the first statement at the identity has seen the version that is stored
    obtain ⟨first, guard, hfirst, hguid, hholds⟩ :=
      Records.exists_holds_of_named hrun hevict hnamed
    obtain ⟨prior, rfl, hprior, -⟩ := hrevises hfirst hguid
    obtain ⟨seen, hseen, hversion⟩ := hholds
    cases hcurrent.symm.trans hseen
    -- what is left is put by a statement planned from the same record
    rcases Records.runAll_cases hrun guid with
      ⟨-, hunnamed⟩ | ⟨-, hmem⟩ | ⟨record, guard, hrecord, hmem, hrecordGuid⟩
    · obtain ⟨statement, hmem, heq⟩ := hnamed
      exact absurd heq (hunnamed statement hmem)
    · exact absurd hmem hevict
    · obtain ⟨prior', rfl, hprior', hnext⟩ := hrevises hmem hrecordGuid
      cases hprior.symm.trans hprior'
      refine ⟨prior, record, hprior, hversion.symm, hmem, hrecord, ?_⟩
      rw [hnext, hversion]
  · left
    have hunnamed : ∀ statement ∈ statements, statement.guid ≠ guid :=
      fun statement hmem heq => hnamed ⟨statement, hmem, heq⟩
    obtain ⟨-, rfl, -⟩ := submit_eq_ok_iff.mp hsubmit
    exact ⟨hunnamed, chain_carriedOut_of_ne store hunnamed now⟩

/-- An accepted submission of guarded statements advances a store while versions are in range. -/
theorem advances_of_submit (hguarded : basis.Guarded statements) {now : Instant} {receipt : Receipt}
    (hsubmit : store.submit statements now = .ok (next, receipt)) (hrange : next.VersionsInRange) :
    store.Advances next := by
  intro guid current hcurrent
  rcases latest_of_submit hguarded hsubmit hcurrent with
    ⟨-, hsame⟩ | ⟨prior, record, -, -, -, hrecord, hversion⟩
  · exact Or.inl hsame
  · refine Or.inr ⟨record, hrecord, ?_⟩
    have hne := hrange guid record hrecord
    rw [hversion] at hne ⊢
    rw [toNat_succ_version hne]
    exact Nat.lt_succ_self _

/-- What an accepted submission of guarded statements replaces has not changed since the statements
were planned. -/
theorem chain_eq_of_submit (hguarded : basis.Guarded statements) (hadvances : basis.Advances store)
    {now : Instant} {receipt : Receipt}
    (hsubmit : store.submit statements now = .ok (next, receipt)) {record : Record}
    {version : UInt64} (hmem : .replace version record ∈ statements) :
    store.chain record.guid = basis.chain record.guid ∧ ∃ prior,
      basis.latest record.guid = some prior ∧ store.latest record.guid = some prior ∧
        version = prior.header.version ∧
          record.header.version = prior.header.version + 1 := by
  obtain ⟨created, hcreate⟩ | ⟨prior, _, hreplace, hprior, hversion⟩ := hguarded _ hmem
  · cases hcreate
  cases hreplace
  have hsame : store.chain record.guid = basis.chain record.guid := by
    rcases hadvances _ prior hprior with hsame | ⟨current, hcurrent, hlt⟩
    · exact hsame
    · -- a later version does not pass the guard
      rcases latest_of_submit hguarded hsubmit hcurrent with
        ⟨hunnamed, -⟩ | ⟨prior', _, hprior', hguard, -⟩
      · exact absurd rfl (hunnamed _ hmem)
      · cases hprior.symm.trans hprior'
        rw [hguard] at hlt
        exact absurd hlt (Nat.lt_irrefl _)
  exact ⟨hsame, prior, hprior, (latest_congr hsame).trans hprior, rfl, hversion⟩

end Store

namespace Collection

variable {collection : Collection} {call : Call} {fresh : Guid} {operation : Operation}

/-- What a guarded operation plans is guarded. -/
theorem guarded_of_planned (hcoherent : collection.store.Coherent) {statements : List Statement}
    (h : collection.Planned call fresh operation statements)
    (hguarded : operation.IsVersionGuarded) : collection.store.Guarded statements := by
  obtain ⟨hlifecycle, hpurge⟩ := hguarded
  -- what writes the next version of something stored is a revision
  have hrevises {α : Type} [TypedElement α] {guid : Guid} {current next : α}
      (hlatest : collection.store.latest guid = some (toRecord current))
      (hnext : Versioning.Succeeds next current) :
      collection.store.Guarded [.replace (version current) (toRecord next)] := by
    intro statement hmem
    rw [List.mem_singleton.mp hmem]
    exact Or.inr (Statement.revises_replace hcoherent hlatest hnext).2
  have hcreates {record : Record} : collection.store.Guarded [.create record] :=
    fun statement hmem => Or.inl ⟨record, List.mem_singleton.mp hmem⟩
  cases h with
  | nothing => exact fun _ hmem => absurd hmem List.not_mem_nil
  | addEntity entity typeRef hoperation hstatus => exact hcreates
  | addRelationship relationship typeRef endOne endTwo hoperation hstatus hone htwo =>
    exact hcreates
  | addProxy proxy hoperation =>
    subst hoperation
    exact False.elim hlifecycle
  | change kind guid change current edited next hoperation hlatest hedits hnext =>
    cases kind <;> exact hrevises hlatest (.of_nextVersion hnext)
  | purge kind guid current hoperation hlatest hdeleted =>
    exact absurd hoperation (hpurge kind guid)
  | reIdentify kind guid newGuid current hoperation hne hlatest hlive hleft =>
    intro statement hmem
    rcases List.mem_append.mp hmem with hmem | hmem
    · right
      cases kind with
      | entity =>
        exact moves_revises hcoherent (edgesOfKind_entity hcoherent) hlatest hleft _ hmem
      | relationship =>
        exact moves_revises hcoherent edgesOfKind_relationship hlatest hleft _ hmem
    · exact Or.inl ⟨_, List.mem_singleton.mp hmem⟩
  | relabel guid current labelled next hcurrent hheader hnext =>
    rw [supplied_of_isLifecycle hlifecycle] at hcurrent
    have hlatest := hcurrent.resolve_right List.not_mem_nil
    exact hrevises hlatest (.of_nextVersion hnext)
  | relabelCopy guid current labelled hcopy hcurrent hheader => exact absurd hlifecycle hcopy
  | saveEntity entity hoperation =>
    subst hoperation
    exact False.elim hlifecycle
  | saveRelationship relationship hoperation =>
    subst hoperation
    exact False.elim hlifecycle
  | purgeCopy kind guid type home hoperation =>
    subst hoperation
    exact False.elim hlifecycle

end Collection

/-- Whether the draft replaces what is stored under an identity. -/
def Draft.replaces (draft : Draft) (guid : Guid) : Bool :=
  draft.plan.statements.any fun statement =>
    match statement with
    | .put record (.version _) => record.guid = guid
    | _ => false

theorem Draft.replaces_iff {draft : Draft} {guid : Guid} :
    draft.replaces guid ↔
      ∃ version record, .replace version record ∈ draft.plan.statements ∧ record.guid = guid := by
  rw [replaces, List.any_eq_true]
  constructor
  · rintro ⟨statement, hmem, hguid⟩
    split at hguid
    · rename_i record version
      exact ⟨version, record, hmem, of_decide_eq_true hguid⟩
    · cases hguid
  · rintro ⟨version, record, hmem, hguid⟩
    exact ⟨_, hmem, decide_eq_true hguid⟩

/-- A statement of the draft was planned from the very revision that is current in a store, and
writes the version after it. -/
def Draft.FromCurrent (draft : Draft) (store : Store) (version : UInt64) (record : Record) : Prop :=
  store.chain record.guid = draft.basis.store.chain record.guid ∧ ∃ prior,
    draft.basis.store.latest record.guid = some prior ∧ store.latest record.guid = some prior ∧
      version = prior.header.version ∧ record.header.version = prior.header.version + 1

namespace Workspace

variable {workspace : Workspace} {guid : Guid} {move : Move}

/-! ## One move -/

/-- Drafts are guarded and the store has only advanced since they were made. -/
structure Guarded (workspace : Workspace) : Prop where
  /-- The workspace is reachable. -/
  reachable : workspace.Reachable
  /-- Drafts write next versions of what they were made from. -/
  guarded : ∀ client draft, workspace.drafts client = some draft →
    draft.basis.store.Guarded draft.plan.statements
  /-- What drafts were made from is still stored, or later versions of it are. -/
  advances : ∀ client draft, workspace.drafts client = some draft →
    draft.basis.store.Advances workspace.collection.store

theorem guarded_start (config : CollectionConfig) (catalog : TypeCatalog) :
    (start config catalog).Guarded where
  reachable := reachable_start config catalog
  guarded _ _ h := by cases h
  advances _ _ h := by cases h

/-- A move advances the store. -/
theorem Guarded.advances_after (h : workspace.Guarded)
    (hrange : (workspace.after move).collection.store.VersionsInRange) :
    workspace.collection.store.Advances (workspace.after move).collection.store := by
  rcases workspace.collection_after move with
    ⟨client, now, draft, reply, rfl, hdraft, hcommit⟩ | ⟨type, rfl⟩ | hsame
  · rcases Collection.submit_of_commit hcommit with ⟨-, hsame⟩ | ⟨⟨receipt, hsubmit⟩, -⟩
    · rw [hsame]
      exact .refl _
    · exact Store.advances_of_submit (h.guarded client draft hdraft) hsubmit hrange
  · exact .refl _
  · rw [hsame]
    exact .refl _

/-- A move keeps drafts guarded. -/
theorem Guarded.after (h : workspace.Guarded) (hmove : move.Composes Operation.IsVersionGuarded)
    (hrange : (workspace.after move).collection.store.VersionsInRange) :
    (workspace.after move).Guarded where
  reachable := h.reachable.after move
  guarded client draft hdraft := by
    rcases drafts_after hdraft with hbefore | ⟨rfl, hbasis⟩
    · exact h.guarded client draft hbefore
    · have hcoherent : draft.basis.store.Coherent := by
        rw [hbasis]
        exact h.reachable.collection.store.coherent
      exact Collection.guarded_of_planned hcoherent (Collection.planned_of_plan draft.planned) hmove
  advances client draft hdraft := by
    have hstep := h.advances_after hrange
    rcases drafts_after hdraft with hbefore | ⟨-, hbasis⟩
    · exact (h.advances client draft hbefore).trans hstep
    · rw [hbasis]
      exact hstep

/-- Whether the move is an accepted submission that replaces what is stored under an identity. -/
def replaces (workspace : Workspace) (move : Move) (guid : Guid) : Bool :=
  match move with
  | .submit client now => (workspace.drafts client).any fun draft =>
    (workspace.collection.commit draft.plan now).toBool && draft.replaces guid
  | _ => false

/-- An accepted draft keeps an identity stored, and its version grows by one if the draft replaces
it. -/
theorem Guarded.version_of_commit (h : workspace.Guarded) {client : Nat} {draft : Draft}
    (hdraft : workspace.drafts client = some draft) {now : Instant} {next : Collection}
    {reply : Reply} (hcommit : workspace.collection.commit draft.plan now = .ok (next, reply))
    (hrange : next.store.VersionsInRange) {current : Record}
    (hcurrent : workspace.collection.store.latest guid = some current) :
    ∃ record, next.store.latest guid = some record ∧
      record.header.version.toNat =
        current.header.version.toNat + if draft.replaces guid then 1 else 0 := by
  -- a draft that does not replace the identity leaves it as it is
  have hkept (hnone : ¬draft.replaces guid)
      (hchain : next.store.chain guid = workspace.collection.store.chain guid) :
      ∃ record, next.store.latest guid = some record ∧
        record.header.version.toNat =
          current.header.version.toNat + if draft.replaces guid then 1 else 0 := by
    rw [if_neg hnone]
    exact ⟨current, (Store.latest_congr hchain).trans hcurrent, rfl⟩
  rcases Collection.submit_of_commit hcommit with ⟨hnil, rfl⟩ | ⟨⟨receipt, hsubmit⟩, -⟩
  · refine hkept ?_ rfl
    rw [Draft.replaces, hnil]
    exact Bool.false_ne_true
  · rcases Store.latest_of_submit (h.guarded client draft hdraft) hsubmit hcurrent with
      ⟨hunnamed, hsame⟩ | ⟨prior, record, -, -, hmem, hrecord, hversion⟩
    · refine hkept ?_ hsame
      rw [Draft.replaces_iff]
      rintro ⟨version, record, hmem, hguid⟩
      exact hunnamed _ hmem hguid
    · have hguid : record.guid = guid :=
        (h.reachable.collection.commit hcommit).store.coherent.guid_of_read hrecord
      have hne := hrange guid record hrecord
      rw [hversion] at hne
      rw [if_pos (Draft.replaces_iff.mpr ⟨_, record, hmem, hguid⟩)]
      exact ⟨record, hrecord, by rw [hversion, Store.toNat_succ_version hne]⟩

/-- A move keeps an identity stored, and its version grows by one if the move replaces it. -/
theorem Guarded.version_after (h : workspace.Guarded)
    (hrange : (workspace.after move).collection.store.VersionsInRange) {current : Record}
    (hcurrent : workspace.collection.store.latest guid = some current) :
    ∃ record, (workspace.after move).collection.store.latest guid = some record ∧
      record.header.version.toNat =
        current.header.version.toNat + if workspace.replaces move guid then 1 else 0 := by
  cases move with
  | addType type => exact ⟨current, hcurrent, rfl⟩
  | compose client call fresh operation => exact ⟨current, hcurrent, rfl⟩
  | submit client now =>
    cases hdraft : workspace.drafts client with
    | none =>
      refine ⟨current, ?_, ?_⟩
      · simpa only [Workspace.after, hdraft] using hcurrent
      · simp [replaces, hdraft]
    | some draft =>
      have hreplaces : workspace.replaces (.submit client now) guid =
          ((workspace.collection.commit draft.plan now).toBool && draft.replaces guid) := by
        simp [replaces, hdraft]
      cases hcommit : workspace.collection.commit draft.plan now with
      | error failure =>
        rw [collection_after_of_error hdraft hcommit, hreplaces, hcommit]
        exact ⟨current, hcurrent, rfl⟩
      | ok result =>
        obtain ⟨next, reply⟩ := result
        rw [collection_after_of_ok hdraft hcommit] at hrange ⊢
        rw [hreplaces, hcommit]
        exact h.version_of_commit hdraft hcommit hrange hcurrent

/-! ## Runs -/

/-- The number of accepted submissions of a run that replace what is stored under an identity. -/
def replacementCount (workspace : Workspace) (guid : Guid) : List Move → Nat
  | [] => 0
  | move :: later =>
    (if workspace.replaces move guid then 1 else 0) +
      (workspace.after move).replacementCount guid later

/-- Versions are in range in all states of a run. -/
def InRange (workspace : Workspace) (moves : List Move) : Prop :=
  ∀ part, part <+: moves → (workspace.run part).collection.store.VersionsInRange

instance (moves : List Move) : Decidable (workspace.InRange moves) :=
  decidable_of_iff (∀ part ∈ moves.inits, (workspace.run part).collection.store.VersionsInRange)
    (by simp only [InRange, List.mem_inits])

theorem InRange.after {moves : List Move} (h : workspace.InRange (move :: moves)) :
    (workspace.after move).InRange moves :=
  fun part hpart => h (move :: part) (List.cons_prefix_cons.mpr ⟨rfl, hpart⟩)

theorem InRange.head {moves : List Move} (h : workspace.InRange (move :: moves)) :
    (workspace.after move).collection.store.VersionsInRange :=
  h [move] (List.cons_prefix_cons.mpr ⟨rfl, List.nil_prefix⟩)

/-- A run keeps drafts guarded. -/
theorem Guarded.run (h : workspace.Guarded) {moves : List Move}
    (hmoves : ∀ move ∈ moves, move.Composes Operation.IsVersionGuarded)
    (hrange : workspace.InRange moves) : (workspace.run moves).Guarded := by
  induction moves generalizing workspace with
  | nil => exact h
  | cons move moves ih =>
    obtain ⟨hmove, hlater⟩ := List.forall_mem_cons.mp hmoves
    exact ih (h.after hmove hrange.head) hlater hrange.after

/-- Over a run an identity stays stored, and its version grows by the number of accepted submissions
that replace it. -/
theorem Guarded.version_run (h : workspace.Guarded) {moves : List Move}
    (hmoves : ∀ move ∈ moves, move.Composes Operation.IsVersionGuarded)
    (hrange : workspace.InRange moves) {first : Record}
    (hfirst : workspace.collection.store.latest guid = some first) :
    ∃ last, (workspace.run moves).collection.store.latest guid = some last ∧
      last.header.version.toNat =
        first.header.version.toNat + workspace.replacementCount guid moves := by
  induction moves generalizing workspace first with
  | nil => exact ⟨first, hfirst, rfl⟩
  | cons move moves ih =>
    obtain ⟨hmove, hlater⟩ := List.forall_mem_cons.mp hmoves
    obtain ⟨record, hrecord, hstep⟩ := h.version_after hrange.head hfirst
    obtain ⟨last, hlast, hversion⟩ := ih (h.after hmove hrange.head) hlater hrange.after hrecord
    refine ⟨last, hlast, ?_⟩
    rw [hversion, hstep, replacementCount, Nat.add_assoc]

/-- An identity that is stored at the end of a run and was not at its start was created by one of
the moves. -/
theorem exists_creation {moves : List Move} {last : Record}
    (hstart : workspace.collection.store.latest guid = none)
    (hlast : (workspace.run moves).collection.store.latest guid = some last) :
    ∃ before move later first, moves = before ++ move :: later ∧
      (workspace.run before).collection.store.latest guid = none ∧
        (workspace.run (before ++ [move])).collection.store.latest guid = some first := by
  -- from the end: either the last move has created the identity or one before it has
  induction moves using List.reverseRecOn generalizing last with
  | nil => cases hstart.symm.trans hlast
  | append_singleton moves move ih =>
    cases hbefore : (workspace.run moves).collection.store.latest guid with
    | none => exact ⟨moves, move, [], last, rfl, hbefore, hlast⟩
    | some record =>
      obtain ⟨before, creation, later, first, rfl, hnone, hfirst⟩ := ih hbefore
      exact ⟨before, creation, later ++ [move], first, by simp, hnone, hfirst⟩

/-- What becomes of a draft that a client submits. -/
structure GuardedSubmit (workspace : Workspace) (client : Nat) (now : Instant) (draft : Draft) :
    Prop where
  /-- If it is accepted, each statement that replaces something was planned from what is current. -/
  accepted : ∀ next reply, workspace.collection.commit draft.plan now = .ok (next, reply) →
    ∀ version record, .replace version record ∈ draft.plan.statements →
      draft.FromCurrent workspace.collection.store version record
  /-- If something that it replaces was superseded since it was planned, it is refused by the
  repository and changes nothing. -/
  superseded : ∀ guid, draft.replaces guid →
    workspace.collection.store.chain guid ≠ draft.basis.store.chain guid →
      (∃ failure, workspace.collection.commit draft.plan now = .error failure ∧
        failure.kind? = some .repository) ∧
      (workspace.after (.submit client now)).collection = workspace.collection

/-- A draft is accepted only if what it replaces has not changed since, and refused if it has. -/
theorem Guarded.submit (h : workspace.Guarded) {client : Nat} {draft : Draft}
    (hdraft : workspace.drafts client = some draft) (now : Instant) :
    workspace.GuardedSubmit client now draft := by
  have haccepted : ∀ next reply, workspace.collection.commit draft.plan now = .ok (next, reply) →
      ∀ version record, .replace version record ∈ draft.plan.statements →
        draft.FromCurrent workspace.collection.store version record := by
    intro next reply hcommit version record hmem
    rcases Collection.submit_of_commit hcommit with ⟨hnil, -⟩ | ⟨⟨receipt, hsubmit⟩, -⟩
    · rw [hnil] at hmem
      cases hmem
    · exact Store.chain_eq_of_submit (h.guarded client draft hdraft)
        (h.advances client draft hdraft) hsubmit hmem
  refine ⟨haccepted, fun guid hreplaces hsuperseded => ?_⟩
  obtain ⟨version, record, hmem, rfl⟩ := Draft.replaces_iff.mp hreplaces
  cases hcommit : workspace.collection.commit draft.plan now with
  | ok result =>
    obtain ⟨next, reply⟩ := result
    exact absurd (haccepted next reply hcommit version record hmem).1 hsuperseded
  | error failure =>
    have hkind := Store.kind_of_submit_eq_error (Collection.submit_of_commit_eq_error hcommit)
    exact ⟨⟨failure, rfl, hkind⟩, collection_after_of_error hdraft hcommit⟩

/-- However clients interleave guarded operations, no update is lost as long as versions are in
range. Each submission that replaces an identity is accepted only if it was planned from the very
revision that is current; if that was superseded, the submission is refused by the repository and
changes nothing. The version of an identity at the end is its first one plus the number of accepted
submissions that replaced it. -/
theorem no_lost_update (config : CollectionConfig) (catalog : TypeCatalog) {moves : List Move}
    (hmoves : ∀ move ∈ moves, move.Composes Operation.IsVersionGuarded)
    (hrange : (start config catalog).InRange moves) :
    (∀ before client now draft, before ++ [.submit client now] <+: moves →
      ((start config catalog).run before).drafts client = some draft →
        ((start config catalog).run before).GuardedSubmit client now draft) ∧
    ∀ guid last, ((start config catalog).run moves).collection.store.latest guid = some last →
      ∃ before move later first, moves = before ++ move :: later ∧
        ((start config catalog).run before).collection.store.latest guid = none ∧
          ((start config catalog).run (before ++ [move])).collection.store.latest guid =
              some first ∧
            last.header.version.toNat = first.header.version.toNat +
              ((start config catalog).run (before ++ [move])).replacementCount guid later := by
  -- what one move preserves holds in all states of the run
  have hguarded {part : List Move} (hpart : part <+: moves) :
      ((start config catalog).run part).Guarded :=
    (guarded_start config catalog).run (fun move hmem => hmoves move (hpart.subset hmem))
      fun early hearly => hrange early (hearly.trans hpart)
  constructor
  · intro before client now draft hpart hdraft
    exact (hguarded ((List.prefix_append before _).trans hpart)).submit hdraft now
  · intro guid last hlast
    -- count from the move that has created the identity
    obtain ⟨before, move, later, first, rfl, hnone, hfirst⟩ := exists_creation rfl hlast
    refine ⟨before, move, later, first, rfl, hnone, hfirst, ?_⟩
    have hpart : before ++ [move] <+: before ++ move :: later := by simp
    have hmoves' : ∀ move ∈ later, move.Composes Operation.IsVersionGuarded :=
      fun other hmem => hmoves other (by simp [hmem])
    have hrange' : ((start config catalog).run (before ++ [move])).InRange later := by
      intro part hpart
      rw [← run_append]
      exact hrange _ (by simpa using hpart)
    obtain ⟨record, hrecord, hversion⟩ := (hguarded hpart).version_run hmoves' hrange' hfirst
    rw [← run_append, List.append_assoc] at hrecord
    cases hlast.symm.trans hrecord
    exact hversion

/-- Two clients plan to change the status of an asset, and both submit. -/
private def raceMoves : List Move :=
  let call : Call := ⟨"ada", .earliest⟩
  [.addType ⟨"Asset", .entity, none, [], [], [], none, []⟩,
    .compose 0 call "asset" (.addEntity ⟨"Asset", ∅, [], .active, none⟩),
    .submit 0 .earliest,
    .compose 0 call "" (.change .entity "asset" (.status .draft)),
    .compose 1 call "" (.change .entity "asset" (.status .prepared)),
    .submit 1 .earliest]

/-- The client that submits last is refused, and the asset has its second version. -/
theorem no_lost_update_race :
    let before := (start default ∅).run raceMoves
    let final := (start default ∅).run (raceMoves ++ [.submit 0 .earliest])
    final.collection = before.collection ∧
      ∃ last, final.collection.store.latest "asset" = some last ∧ last.header.status = .prepared ∧
        ∃ before move later first, raceMoves ++ [.submit 0 .earliest] = before ++ move :: later ∧
          ((start default ∅).run (before ++ [move])).collection.store.latest "asset" =
              some first ∧
            2 = first.header.version.toNat +
              ((start default ∅).run (before ++ [move])).replacementCount "asset" later := by
  intro before final
  have hmoves : ∀ move ∈ raceMoves ++ [.submit 0 .earliest],
      move.Composes Operation.IsVersionGuarded := by
    simp [raceMoves, Move.Composes, Operation.IsVersionGuarded, Operation.IsLifecycle]
  have hrange : (start default ∅).InRange (raceMoves ++ [.submit 0 .earliest]) := by decide
  obtain ⟨hsubmits, hversions⟩ := no_lost_update default ∅ hmoves hrange
  constructor
  · -- the second revision of the asset has come since the draft was made
    have hsubmit := hsubmits raceMoves 0 .earliest _ (List.prefix_refl _) rfl
    refine (hsubmit.superseded "asset" (by decide) fun hsame => ?_).2
    exact absurd (congrArg List.length hsame) (by decide)
  · obtain ⟨before, move, later, first, hsplit, -, hfirst, hversion⟩ := hversions "asset" _ rfl
    exact ⟨_, rfl, by decide, before, move, later, first, hsplit, hfirst, hversion⟩

end Workspace

end MetadataGraph

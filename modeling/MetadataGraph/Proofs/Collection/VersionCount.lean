import Mathlib.Data.List.Induction
import MetadataGraph.Proofs.Collection.Lifecycle
import MetadataGraph.Proofs.Collection.Run

/-!
# Versions count changes

Over a run of lifecycle operations the versions of an identity count the accepted operations that
wrote it since it was created. We prove:

* `counted_after`: no version is larger than the number of commits, so none of them overflows while
  the clock is in range;
* `versions_after`: what an event makes of the versions of an identity;
* `versions_count`: what a run makes of them.
-/

namespace MetadataGraph

namespace Chain

/-- The versions of a chain, oldest first. -/
def versions (chain : Chain) : List Nat :=
  (chain.map fun revision => revision.data.header.version.toNat).reverse

theorem versions_cons (newest : Revision Record) (older : Chain) :
    versions (newest :: older) = versions older ++ [newest.data.header.version.toNat] := by
  simp [versions]

theorem versions_closeAt (time : Instant) (chain : Chain) :
    versions (closeAt time chain) = versions chain := by
  cases chain <;> rfl

/-- The last version of a linked chain is that of what is current. -/
theorem Linked.versions_eq {chain : Chain} (h : Linked chain) {record : Record}
    (hvisible : chain.visible? .now = some record) :
    ∃ older, versions chain = older ++ [record.header.version.toNat] := by
  cases chain with
  | nil => cases hvisible
  | cons newest older =>
    rw [h.visible?_now, Option.some.injEq] at hvisible
    subst hvisible
    exact ⟨versions older, versions_cons newest older⟩

end Chain

namespace Store

/-- The clock has given more numbers than any version counts. -/
structure Counted (store : Store) : Prop where
  /-- Numbers start at 1. -/
  positive : 0 < store.clock.nextId.toNat
  /-- No version has reached the next number. -/
  lt_nextId : ∀ guid, ∀ version ∈ Chain.versions (store.chain guid),
    version < store.clock.nextId.toNat

variable {store : Store} {fresh guid : Guid} {operation : Operation}

theorem counted_empty : empty.Counted where
  positive := by decide
  lt_nextId _ _ h := by cases h

/-- The current version has not reached the next number. -/
theorem Counted.lt_of_latest (h : store.Counted) {record : Record}
    (hlatest : store.latest guid = some record) :
    record.header.version.toNat < store.clock.nextId.toNat := by
  obtain ⟨revision, hmem, rfl⟩ := exists_mem_chain_of_read hlatest
  exact h.lt_nextId guid _ (List.mem_reverse.mpr (List.mem_map_of_mem hmem))

/-- A first version is at most the next number. -/
theorem Counted.le_of_creates (h : store.Counted) {first : Nat}
    (hcreates : operation.Creates store fresh guid first) :
    first ≤ store.clock.nextId.toNat := by
  have hpositive := h.positive
  unfold Operation.Creates at hcreates
  split at hcreates
  · omega
  · omega
  · obtain ⟨-, prior, hlatest, hfirst⟩ := hcreates
    have hlt := h.lt_of_latest hlatest
    omega
  · exact False.elim hcreates

/-- A version that has not reached a number does not overflow. -/
theorem toNat_version_add_one {version number : UInt64} (h : version.toNat < number.toNat) :
    (version + 1).toNat = version.toNat + 1 := by
  have hne : version ≠ lastVersion := by
    rintro rfl
    exact absurd number.toNat_lt (Nat.not_lt.mpr h)
  exact Versioning.toNat_add_one hne

end Store

/-- The event is a lifecycle operation, or it adds a type. -/
def Event.IsLifecycle : Event → Prop
  | addType _ => True
  | operate _ _ operation => operation.IsLifecycle

namespace Collection

open Chain

variable {collection : Collection} {guid : Guid}

/-! ## One event -/

/-- The event is an accepted operation that creates an identity. -/
def Creates (collection : Collection) (event : Event) (guid : Guid) (first : Nat) : Prop :=
  match event with
  | .addType _ => False
  | .operate call fresh operation =>
    (∃ next reply, collection.execute call fresh operation = .ok (next, reply)) ∧
      operation.Creates collection.store fresh guid first

/-- Whether the event is an accepted operation that writes the next version of an identity. -/
def revises (collection : Collection) (event : Event) (guid : Guid) : Bool :=
  match event with
  | .addType _ => false
  | .operate call fresh operation =>
    (collection.execute call fresh operation).toBool && operation.revises collection.store guid

/-- What an accepted lifecycle operation makes of the versions of an identity that is stored
afterwards. -/
theorem versions_of_chainStep (hcoherent : collection.store.Coherent)
    (hcounted : collection.store.Counted) {fresh : Guid} {operation : Operation} {chain : Chain}
    (hstep : ChainStep collection.store fresh operation guid chain) (hstored : chain ≠ []) :
    (operation.revises collection.store guid = false ∧ collection.store.chain guid = chain) ∨
    (operation.revises collection.store guid ∧ ∃ older version,
      versions (collection.store.chain guid) = older ++ [version] ∧
        versions chain = older ++ [version, version + 1]) ∨
    (collection.store.chain guid = [] ∧ ∃ first,
      operation.Creates collection.store fresh guid first ∧ versions chain = [first]) := by
  cases hstep with
  | kept hrevises => exact Or.inl ⟨hrevises, rfl⟩
  | revised prior record time now hrevises hlatest hversion =>
    obtain ⟨older, holder⟩ := (hcoherent.linked guid).versions_eq hlatest
    refine Or.inr (Or.inl ⟨hrevises, older, _, holder, ?_⟩)
    have hnext := Store.toNat_version_add_one (hcounted.lt_of_latest hlatest)
    rw [versions_cons, versions_closeAt, holder, List.append_assoc]
    show older ++ [prior.header.version.toNat, record.header.version.toNat] = _
    rw [hversion, hnext]
  | created record previous time now hempty hcreates hversion =>
    refine Or.inr (Or.inr ⟨hempty, _, hcreates, ?_⟩)
    have hfirst := Store.toNat_version_add_one (hcounted.le_of_creates hcreates)
    rw [versions_cons]
    show [record.header.version.toNat] = _
    rw [hversion, hfirst]
  | removed => exact absurd rfl hstored

/-- What a lifecycle event makes of the versions of an identity that is stored afterwards. -/
theorem versions_after (hreachable : collection.Reachable)
    (hcounted : collection.store.Counted) (hrange : collection.store.clock.InRange) {event : Event}
    (hlifecycle : event.IsLifecycle) (hstored : (collection.after event).store.chain guid ≠ []) :
    (collection.revises event guid = false ∧
      collection.store.chain guid = (collection.after event).store.chain guid) ∨
    (collection.revises event guid ∧ ∃ older version,
      versions (collection.store.chain guid) = older ++ [version] ∧
        versions ((collection.after event).store.chain guid) = older ++ [version, version + 1]) ∨
    (collection.store.chain guid = [] ∧ ∃ first, collection.Creates event guid first ∧
      versions ((collection.after event).store.chain guid) = [first]) := by
  cases event with
  | addType type => exact Or.inl ⟨rfl, rfl⟩
  | operate call fresh operation =>
    cases hexecute : collection.execute call fresh operation with
    | error failure =>
      rw [after_eq_of_error hexecute, revises, hexecute]
      exact Or.inl ⟨rfl, rfl⟩
    | ok result =>
      obtain ⟨next, reply⟩ := result
      have hrevises : collection.revises (.operate call fresh operation) guid =
          operation.revises collection.store guid := by
        rw [revises, hexecute]
        rfl
      rw [after_eq_of_ok hexecute] at hstored ⊢
      rw [hrevises]
      have hstep := chainStep_of_execute hreachable.store hrange hlifecycle hexecute guid
      rcases versions_of_chainStep hreachable.store.coherent hcounted hstep hstored with
        hkept | hrevised | ⟨hempty, first, hcreates, hversions⟩
      · exact Or.inl hkept
      · exact Or.inr (Or.inl hrevised)
      · exact Or.inr (Or.inr ⟨hempty, first, ⟨⟨next, reply, hexecute⟩, hcreates⟩, hversions⟩)

/-- While the clock is in range, no version gets ahead of the number of commits. -/
theorem counted_after (hreachable : collection.Reachable) (hcounted : collection.store.Counted)
    (hrange : collection.store.clock.InRange) {event : Event} (hlifecycle : event.IsLifecycle) :
    (collection.after event).store.Counted := by
  rcases collection.store_after event with hstore | ⟨statements, now, receipt, hsubmit⟩
  · rwa [hstore]
  · have hnumber : (collection.after event).store.clock.nextId.toNat =
        collection.store.clock.nextId.toNat + 1 := by
      obtain ⟨-, hnext, -⟩ := Store.submit_eq_ok_iff.mp hsubmit
      rw [← hnext, Store.clock_carriedOut]
      exact hreachable.store.numbered.nextId_tick hrange now.toMicros
    -- versions grow by at most one with a commit, as the number does
    refine ⟨by omega, fun guid version hversion => ?_⟩
    have hstored : (collection.after event).store.chain guid ≠ [] := by
      intro hempty
      rw [hempty] at hversion
      cases hversion
    rcases versions_after hreachable hcounted hrange hlifecycle hstored with
      ⟨-, hkept⟩ | ⟨-, older, last, hbefore, hafter⟩ | ⟨-, first, hcreates, hafter⟩
    · have hlt := hcounted.lt_nextId guid version (hkept ▸ hversion)
      omega
    · have hold := hcounted.lt_nextId guid
      rw [hbefore] at hold
      have hlast := hold last (List.mem_append_right _ (List.mem_singleton_self last))
      rw [hafter] at hversion
      rcases List.mem_append.mp hversion with hmem | hmem
      · have hlt := hold version (List.mem_append_left _ hmem)
        omega
      · simp only [List.mem_cons, List.not_mem_nil, or_false] at hmem
        omega
    · rw [hafter, List.mem_singleton] at hversion
      cases event with
      | addType type => exact False.elim hcreates
      | operate call fresh operation =>
        have hle := hcounted.le_of_creates hcreates.2
        omega

/-! ## Runs -/

/-- The number of accepted operations of a run that write the next version of an identity. -/
def revisionCount (collection : Collection) (guid : Guid) : List Event → Nat
  | [] => 0
  | event :: later =>
    (if collection.revises event guid then 1 else 0) +
      (collection.after event).revisionCount guid later

/-- The last event of a run counts if it is accepted and writes the next version. -/
theorem revisionCount_concat (collection : Collection) (guid : Guid) (events : List Event)
    (last : Event) :
    collection.revisionCount guid (events ++ [last]) =
      collection.revisionCount guid events +
        if (collection.run events).revises last guid then 1 else 0 := by
  induction events generalizing collection with
  | nil => exact Nat.add_comm ..
  | cons event events ih =>
    rw [List.cons_append, revisionCount, revisionCount, ih, run_cons, Nat.add_assoc]

/-- In a run an identity is created by an event and stored from then on. -/
structure CreatedBy (start : Collection) (guid : Guid) (before : List Event) (event : Event)
    (later : List Event) (first : Nat) : Prop where
  /-- The event creates the identity. -/
  creates : (start.run before).Creates event guid first
  /-- It was not stored before. -/
  absent : (start.run before).store.chain guid = []
  /-- It is stored after the event and all later ones. -/
  stored : ∀ part, part <+: later → (start.run (before ++ event :: part)).store.chain guid ≠ []

/-- An identity stays created by an event as long as it is stored. -/
theorem CreatedBy.snoc {start : Collection} {before later : List Event} {event last : Event}
    {first : Nat} (h : CreatedBy start guid before event later first)
    (hstored : (start.run (before ++ event :: (later ++ [last]))).store.chain guid ≠ []) :
    CreatedBy start guid before event (later ++ [last]) first where
  creates := h.creates
  absent := h.absent
  stored part hpart := by
    rcases List.prefix_concat_iff.mp hpart with rfl | hpart
    · exact hstored
    · exact h.stored part hpart

/-- At the end of a run, too, no version is ahead of the number of commits. -/
theorem counted_run {start : Collection} (hreachable : start.Reachable)
    (hcounted : start.store.Counted) {events : List Event}
    (hlifecycle : ∀ event ∈ events, event.IsLifecycle)
    (hrange : (start.run events).store.clock.InRange) : (start.run events).store.Counted := by
  induction events using List.reverseRecOn with
  | nil => exact hcounted
  | append_singleton events event ih =>
    rw [run_append] at hrange ⊢
    have hbefore := inRange_of_after hrange
    have hevents := ih (fun event hmem => hlifecycle event (List.mem_append_left _ hmem)) hbefore
    exact counted_after (hreachable.run events) hevents hbefore
      (hlifecycle event (List.mem_append_right _ (List.mem_singleton_self event)))

/-- Consecutive numbers, the last of which is known, go on with the next number. -/
private theorem range'_concat_succ {older : List Nat} {version first count : Nat}
    (h : older ++ [version] = List.range' first (1 + count)) :
    version = first + count ∧
      older ++ [version, version + 1] = List.range' first (1 + (count + 1)) := by
  rw [Nat.add_comm 1, List.range'_1_concat, List.append_singleton_inj] at h
  obtain ⟨rfl, rfl⟩ := h
  refine ⟨rfl, ?_⟩
  rw [Nat.add_comm 1, List.range'_1_concat, List.range'_1_concat, List.append_assoc]
  rfl

/-- Since the last creation of an identity its versions are consecutive. -/
theorem versions_run {start : Collection} (hreachable : start.Reachable)
    (hempty : start.store = .empty) {events : List Event}
    (hlifecycle : ∀ event ∈ events, event.IsLifecycle)
    (hrange : (start.run events).store.clock.InRange)
    (hstored : (start.run events).store.chain guid ≠ []) :
    ∃ before event later first, events = before ++ event :: later ∧
      CreatedBy start guid before event later first ∧
      versions ((start.run events).store.chain guid) =
        List.range' first (1 + (start.run (before ++ [event])).revisionCount guid later) := by
  -- by induction on the run, event by event from its start: the last event keeps the account that
  -- its predecessors leave, adds one version to it or opens a new one
  induction events using List.reverseRecOn with
  | nil =>
    rw [run_nil, hempty] at hstored
    exact absurd rfl hstored
  | append_singleton events last ih =>
    have hevents : ∀ event ∈ events, event.IsLifecycle :=
      fun event hmem => hlifecycle event (List.mem_append_left _ hmem)
    have hlast : last.IsLifecycle :=
      hlifecycle last (List.mem_append_right _ (List.mem_singleton_self last))
    have hrun : start.run (events ++ [last]) = (start.run events).after last := run_append ..
    have hbefore : (start.run events).store.clock.InRange := by
      rw [hrun] at hrange
      exact inRange_of_after hrange
    have hcounted : (start.run events).store.Counted :=
      counted_run hreachable (hempty ▸ Store.counted_empty) hevents hbefore
    have hstep := @versions_after _ guid (hreachable.run events) hcounted hbefore _ hlast
    rw [← hrun] at hstep
    rcases hstep hstored with ⟨hkept, hchain⟩ | ⟨hrevised, older, version, hversions, hnext⟩ |
      ⟨habsent, first, hcreates, hfirst⟩
    · -- the last event does not write the identity
      obtain ⟨before, event, later, first, rfl, hcreated, hrange'⟩ :=
        ih hevents hbefore (hchain ▸ hstored)
      refine ⟨before, event, later ++ [last], first, by simp, hcreated.snoc ?_, ?_⟩
      · rwa [List.append_assoc] at hstored
      · rw [← hchain, hrange', revisionCount_concat, ← run_append, List.append_assoc,
          List.singleton_append, hkept]
        rfl
    · -- the last event writes one version more
      have hstored' : (start.run events).store.chain guid ≠ [] := by
        intro hnone
        rw [hnone] at hversions
        simp [versions] at hversions
      obtain ⟨before, event, later, first, rfl, hcreated, hrange'⟩ := ih hevents hbefore hstored'
      refine ⟨before, event, later ++ [last], first, by simp, hcreated.snoc ?_, ?_⟩
      · rwa [List.append_assoc] at hstored
      · rw [hversions] at hrange'
        rw [hnext, (range'_concat_succ hrange').2, revisionCount_concat, ← run_append,
          List.append_assoc, List.singleton_append, hrevised]
        rfl
    · -- the last event creates the identity
      refine ⟨events, last, [], first, rfl, ⟨hcreates, habsent, ?_⟩, hfirst⟩
      intro part hpart
      rw [List.prefix_nil.mp hpart]
      exact hstored

/-- Over a run of lifecycle operations from an empty store, the versions of an identity that is
stored at the end are consecutive: they start with the first one when the identity was created last,
and there is one more for each accepted operation since then that wrote it. -/
theorem versions_count (config : CollectionConfig) (catalog : TypeCatalog) {events : List Event}
    (hlifecycle : ∀ event ∈ events, event.IsLifecycle)
    (hrange : (run ⟨config, catalog, .empty⟩ events).store.clock.InRange) {guid : Guid}
    (hstored : (run ⟨config, catalog, .empty⟩ events).store.chain guid ≠ []) :
    ∃ before event later first, events = before ++ event :: later ∧
      CreatedBy ⟨config, catalog, .empty⟩ guid before event later first ∧
      versions ((run ⟨config, catalog, .empty⟩ events).store.chain guid) =
        List.range' first
          (1 + (run ⟨config, catalog, .empty⟩ (before ++ [event])).revisionCount guid later) ∧
      ∃ record, (run ⟨config, catalog, .empty⟩ events).store.latest guid = some record ∧
        record.header.version.toNat =
          first + (run ⟨config, catalog, .empty⟩ (before ++ [event])).revisionCount guid later := by
  have hreachable := Reachable.start config catalog
  obtain ⟨before, event, later, first, hsplit, hcreated, hversions⟩ :=
    versions_run hreachable rfl hlifecycle hrange hstored
  have hcoherent := (hreachable.run events).store.coherent
  obtain ⟨record, hlatest⟩ :=
    Option.ne_none_iff_exists'.mp (mt hcoherent.latest_eq_none_iff.mp hstored)
  obtain ⟨older, holder⟩ := (hcoherent.linked guid).versions_eq hlatest
  refine ⟨before, event, later, first, hsplit, hcreated, hversions, record, hlatest, ?_⟩
  exact (range'_concat_succ (holder.symm.trans hversions)).1

/-- A run in which a relationship is created and changed, after a refused restore, and then moved
with the entity at its ends. -/
private def linkEvents : List Event :=
  let call : Call := ⟨"ada", .earliest⟩
  [.addType ⟨"Asset", .entity, none, [], [], [], none, []⟩,
    .addType ⟨"Link", .relationship, none, [], [], [], none, []⟩,
    .operate call "asset" (.addEntity ⟨"Asset", ∅, [], .active, none⟩),
    .operate call "link" (.addRelationship ⟨"Link", ∅, "asset", "asset", .active, none⟩),
    .operate call "" (.change .relationship "link" .restore),
    .operate call "" (.change .relationship "link" (.status .draft)),
    .operate call "" (.change .entity "asset" (.reIdentify "item"))]

/-- The relationship has three versions, which are those that the run accounts for. -/
theorem versions_count_link :
    versions ((run ⟨default, ∅, .empty⟩ linkEvents).store.chain "link") = [1, 2, 3] ∧
      ∃ before event later first, linkEvents = before ++ event :: later ∧
        CreatedBy ⟨default, ∅, .empty⟩ "link" before event later first ∧
        [1, 2, 3] = List.range' first
          (1 + (run ⟨default, ∅, .empty⟩ (before ++ [event])).revisionCount "link" later) := by
  have hversions : versions ((run ⟨default, ∅, .empty⟩ linkEvents).store.chain "link") =
      [1, 2, 3] := by decide
  have hlifecycle : ∀ event ∈ linkEvents, event.IsLifecycle := by
    simp [linkEvents, Event.IsLifecycle, Operation.IsLifecycle]
  have hstored : (run ⟨default, ∅, .empty⟩ linkEvents).store.chain "link" ≠ [] := by decide
  obtain ⟨before, event, later, first, hsplit, hcreated, hcount, -⟩ :=
    versions_count default ∅ hlifecycle (by decide) hstored
  exact ⟨hversions, before, event, later, first, hsplit, hcreated, hversions.symm.trans hcount⟩

end Collection

end MetadataGraph

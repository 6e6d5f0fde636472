import MetadataGraph.Proofs.Collection.OptimisticLock
import MetadataGraph.Proofs.Store.History

/-!
# Undo

An undo looks for the version before the current one in the history, where proxies and elements of
the other kind may lie in between, and writes its content as the next version. So the content that
it replaces is in the version before the one that it writes, and a second undo brings that back. We
prove:

* `Reachable.history_all`: the history of all time leaves no revision out;
* `Reachable.versions_carriedOut_put`: what is written comes on top of all versions before;
* `Reachable.planUndo_eq_ok_iff`: when an undo is planned, and what it writes;
* `Reachable.commit_replace`: what is current can be replaced;
* `Reachable.execute_undo_eq_ok_iff`: when an undo is accepted;
* `undo_restores`: an undo brings back the version before the current one, and a second undo takes
  the first one back.
-/

namespace MetadataGraph

open Element Instance Versioning

/-! ## Versions of an element -/

/-- The content of an element as another version of it. -/
def Versioning.asVersion {α : Type} [Instance α] (element : α) (version : UInt64) (stamp : Stamp) :
    α :=
  setHeader element
    { header element with
      version
      updatedBy := some stamp.user
      updatedAt := some stamp.time }

/-- Another version of an element has its identity. -/
theorem Versioning.guid_asVersion {α : Type} [Instance α] (element : α) (version : UInt64)
    (stamp : Stamp) : guid (asVersion element version stamp) = guid element := by
  rw [guid, asVersion, header_setHeader]
  rfl

theorem Versioning.version_asVersion {α : Type} [Instance α] (element : α) (version : UInt64)
    (stamp : Stamp) : Instance.version (asVersion element version stamp) = version := by
  rw [Instance.version, asVersion, header_setHeader]

namespace Store

/-- The versions of an element that are kept under an identity, newest first. Revisions that are not
of the kind of the element are left out. -/
def versions (α : Type) [Element α] (store : Store) (guid : Guid) : List α :=
  (store.chain guid).filterMap fun revision => ofRecord? revision.data

variable {α : Type} [Element α] {store : Store} {guid : Guid} {current : α}

/-- The history of all time leaves no revision out. -/
theorem Reachable.history_all (h : store.Reachable) (guid : Guid) :
    store.history guid .all = (store.chain guid).reverse := by
  rw [history, List.filter_eq_self]
  intro revision hmem
  have hchain := List.mem_reverse.mp hmem
  refine Revision.overlaps_iff_compare.mpr ⟨(h.clockReached guid revision hchain).le_latest, ?_⟩
  -- the end of a revision is after its begin, so it is not the first instant
  intro ending hending
  exact Int.lt_of_le_of_lt revision.validTime.earliest_le_self
    ((h.coherent.linked guid).validTime_lt_validUntil revision hchain ending hending)

/-- A newest revision that holds an element is the newest version. -/
theorem versions_of_chain {newest : Revision Record} {older : Chain}
    (hchain : store.chain guid = newest :: older) (hdata : newest.data = toRecord current) :
    store.versions α guid =
      current :: older.filterMap fun revision => ofRecord? revision.data := by
  rw [versions, hchain]
  refine List.filterMap_cons_some ?_
  rw [hdata]
  exact ofRecord?_toRecord current

/-- The current element is the newest version. -/
theorem Coherent.versions_eq_cons (h : store.Coherent)
    (hlatest : store.latest guid = some (toRecord current)) :
    ∃ older, store.versions α guid = current :: older := by
  have hlinked := h.linked guid
  rw [latest, read] at hlatest
  cases hchain : store.chain guid with
  | nil =>
    rw [hchain] at hlatest
    cases hlatest
  | cons newest older =>
    rw [hchain] at hlinked hlatest
    exact ⟨_, versions_of_chain hchain
      (Option.some.inj (hlinked.visible?_now.symm.trans hlatest))⟩

/-- The version before the current one has the identity that both are kept under. -/
theorem Coherent.guid_of_versions_eq (h : store.Coherent) {previous : α} {older : List α}
    (hversions : store.versions α guid = current :: previous :: older) :
    Instance.guid previous = guid := by
  have hmem : previous ∈ store.versions α guid := by simp [hversions]
  obtain ⟨revision, hrevision, hdata⟩ := List.mem_filterMap.mp hmem
  rw [← guid_toRecord, ← (ofRecord?_eq_some_iff _ _).mp hdata]
  exact h.guid_eq guid revision hrevision

/-- While the clock is in range, an element that is written comes on top of all versions before. -/
theorem Reachable.versions_carriedOut_put (h : store.Reachable) (hrange : store.clock.InRange)
    (element : α) (guard : Guard) (now : Instant) :
    (store.carriedOut [.put (toRecord element) guard] now).versions α (Instance.guid element) =
      element :: store.versions α (Instance.guid element) := by
  have hnamed : ∃ statement ∈ [Statement.put (toRecord element) guard],
      statement.guid = Instance.guid element :=
    ⟨_, List.mem_singleton_self _, guid_toRecord element⟩
  obtain ⟨record, _, hmem, -, hchain⟩ := store.chain_carriedOut (by simp) hnamed now
  cases List.mem_singleton.mp hmem
  -- no revision begins at the time of the commit, so none is dropped
  rw [Chain.push_eq_cons (h.clockReached.lt_commitTime hrange now _)] at hchain
  rw [versions_of_chain hchain rfl, versions]
  -- of the revisions before, only the end of the newest changes
  cases store.chain (Instance.guid element) <;> rfl

end Store

namespace Collection

variable {collection next : Collection} {call : Call} {guid fresh : Guid} {reply : Reply}
  {kind : ElementKind}

/-! ## The plan of an undo -/

section Plans

variable {α : Type} [TypedElement α] {current previous : α} {older : List α}

/-- The version before the current one is the second newest. -/
theorem Reachable.previous_eq (h : collection.Reachable) :
    collection.previous α guid =
      .ofOption (.invalidState (.noPreviousVersion guid))
        (collection.store.versions α guid)[1]? := by
  rw [previous, h.store.history_all, List.filterMap_reverse, List.reverse_reverse]
  rfl

/-- An undo is planned for an element that can be changed and has a version before that is not
deleted, and writes the content of that version as the next one. -/
theorem Reachable.planUndo_eq_ok_iff (h : collection.Reachable) {plan : Plan} :
    collection.planUndo α call guid = .ok plan ↔
      ∃ current previous : α, ∃ older, collection.Updatable call guid current ∧
        collection.store.versions α guid = current :: previous :: older ∧
          (header previous).isDeleted = false ∧ version current ≠ lastVersion ∧
            .replace current
              (asVersion previous (version current + 1) call.stamp) = plan := by
  have hcoherent := h.store.coherent
  simp only [planUndo, Header.requireLive, Outcome.bind_eq_ok_iff, Outcome.require_eq_ok_iff,
    Outcome.pure_eq_ok_iff, Outcome.ofOption_eq_ok_iff, forUpdate_eq_ok_iff, h.previous_eq,
    Versioning.nextVersion_eq_ok_iff, Bool.not_eq_true']
  constructor
  · rintro ⟨current, hcurrent, previous, hprevious, ⟨⟩, hlive, next, ⟨-, hleft, rfl⟩, rfl⟩
    -- the newest version is the current element, so the second one is the first of the others
    obtain ⟨older, hversions⟩ := hcoherent.versions_eq_cons hcurrent.stored
    rw [hversions, List.getElem?_cons_succ] at hprevious
    cases older with
    | nil => cases hprevious
    | cons former oldest =>
      cases hprevious
      exact ⟨current, previous, oldest, hcurrent, hversions, hlive, hleft, rfl⟩
  · rintro ⟨current, previous, older, hcurrent, hversions, hlive, hleft, rfl⟩
    -- what is kept under one identity can be made the next version of each other
    have hguid : Instance.guid current = Instance.guid previous :=
      (hcoherent.element_guid_of_read hcurrent.stored).trans
        (hcoherent.guid_of_versions_eq hversions).symm
    exact ⟨current, hcurrent, previous, by rw [hversions]; rfl, (), hlive, _, ⟨hguid, hleft, rfl⟩,
      rfl⟩

/-- An undo is refused if there is no version before the current one. -/
theorem Reachable.planUndo_of_length_lt (h : collection.Reachable)
    (hcurrent : collection.Updatable call guid current)
    (hfew : (collection.store.versions α guid).length < 2) :
    collection.planUndo α call guid =
      .error (.refused (.invalidState (.noPreviousVersion guid))) := by
  have hnone : (collection.store.versions α guid)[1]? = none :=
    List.getElem?_eq_none (Nat.le_of_lt_succ hfew)
  rw [planUndo, forUpdate_eq_ok_iff.mpr hcurrent, Outcome.ok_bind, h.previous_eq, hnone]
  rfl

/-- An undo is refused if the version before the current one is deleted. -/
theorem Reachable.planUndo_of_isDeleted (h : collection.Reachable)
    (hcurrent : collection.Updatable call guid current)
    (hversions : collection.store.versions α guid = current :: previous :: older)
    (hdeleted : (header previous).isDeleted) :
    collection.planUndo α call guid = .error (.refused (.alreadyDeleted guid)) := by
  have hguid : (header previous).guid = guid := h.store.coherent.guid_of_versions_eq hversions
  rw [planUndo, forUpdate_eq_ok_iff.mpr hcurrent, Outcome.ok_bind, h.previous_eq, hversions,
    List.getElem?_cons_succ, List.getElem?_cons_zero, Outcome.ofOption, Outcome.ok_bind,
    Header.requireLive, hdeleted, hguid]
  rfl

/-- An undo of an element at the last version is cut off. -/
theorem Reachable.planUndo_of_lastVersion (h : collection.Reachable)
    (hcurrent : collection.Updatable call guid current)
    (hversions : collection.store.versions α guid = current :: previous :: older)
    (hlive : (header previous).isDeleted = false) (hlast : version current = lastVersion) :
    collection.planUndo α call guid = .error .overflow := by
  have hcoherent := h.store.coherent
  have hguid : Instance.guid current = Instance.guid previous :=
    (hcoherent.element_guid_of_read hcurrent.stored).trans
      (hcoherent.guid_of_versions_eq hversions).symm
  have hnext : Versioning.nextVersion current previous call.stamp = .error .overflow :=
    Versioning.nextVersion_eq_overflow_iff.mpr ⟨hguid, hlast⟩
  rw [planUndo, forUpdate_eq_ok_iff.mpr hcurrent, Outcome.ok_bind, h.previous_eq, hversions,
    List.getElem?_cons_succ, List.getElem?_cons_zero, Outcome.ofOption, Outcome.ok_bind,
    Header.requireLive, hlive, Bool.not_false, Outcome.require_true, Outcome.ok_bind, hnext,
    Outcome.error_bind]

end Plans

/-! ## Carrying out an undo -/

/-- An operation wrote an element: it answers with it, and it is stored. -/
structure Wrote {α : Type} [Element α] (next : Collection) (reply : Reply) (guid : Guid)
    (element : α) : Prop where
  /-- The element is the answer. -/
  reply_eq : reply = .written (toRecord element)
  /-- The element is current. -/
  latest_eq : next.store.latest guid = some (toRecord element)

/-- What is current can be replaced, and what replaces it comes on top of all versions. -/
theorem Reachable.commit_replace {α : Type} [Element α] (h : collection.Reachable)
    {current element : α} (hlatest : collection.store.latest guid = some (toRecord current))
    (hguid : Instance.guid element = guid) (now : Instant) :
    ∃ next, collection.commit (.replace current element) now =
        .ok (next, .written (toRecord element)) ∧
      next.store.latest guid = some (toRecord element) ∧
        (collection.store.clock.InRange →
          next.store.versions α guid = element :: collection.store.versions α guid) := by
  subst hguid
  -- nothing is written between the plan and the commit, so the guard sees the version it demands
  have hguard : (Guard.version (version current)).Holds
      (collection.store.latest (toRecord element).guid) := by
    rw [guid_toRecord, hlatest]
    exact ⟨toRecord current, rfl, congrArg Header.version (header_toRecord current)⟩
  obtain ⟨store, receipt, hsubmit⟩ := (Store.submit_isOk_iff now).mpr
    ⟨_, Records.runAll_put_eq_ok_iff.mpr ⟨hguard, rfl⟩⟩
  refine ⟨{ collection with store },
    (commit_eq_ok_iff (List.cons_ne_nil _ _)).mpr ⟨receipt, hsubmit, rfl, rfl⟩, ?_, ?_⟩
  · obtain ⟨-, hstored⟩ := Records.runAll_put_eq_ok_iff.mp (Store.runAll_of_submit hsubmit)
    change store.latest _ = _
    rw [← hstored, guid_toRecord, Function.update_self]
  · intro hrange
    obtain ⟨-, rfl, -⟩ := Store.submit_eq_ok_iff.mp hsubmit
    exact h.store.versions_carriedOut_put hrange element (.version (version current)) now

/-- What an undo writes is stored, on top of all versions. -/
theorem Reachable.commit_undo {α : Type} [Element α] (h : collection.Reachable)
    {current previous : α} {older : List α} (hcurrent : collection.Updatable call guid current)
    (hversions : collection.store.versions α guid = current :: previous :: older) :
    ∃ next, collection.commit (.replace current
        (asVersion previous (version current + 1) call.stamp)) call.now =
          .ok (next, .written
            (toRecord (asVersion previous (version current + 1) call.stamp))) ∧
      next.store.latest guid =
        some (toRecord (asVersion previous (version current + 1) call.stamp)) ∧
      (collection.store.clock.InRange → next.store.versions α guid =
        asVersion previous (version current + 1) call.stamp ::
          current :: previous :: older) := by
  rw [← hversions]
  refine h.commit_replace hcurrent.stored ?_ call.now
  rw [guid_asVersion]
  exact h.store.coherent.guid_of_versions_eq hversions

/-- An undo is accepted when the element can be changed, has a version before that is not deleted
and is not at the last version. -/
theorem Reachable.execute_undo_eq_ok_iff (h : collection.Reachable) :
    collection.execute call fresh (.change kind guid .undo) = .ok (next, reply) ↔
      ∃ current previous : kind.Carrier, ∃ older, collection.Updatable call guid current ∧
        collection.store.versions kind.Carrier guid = current :: previous :: older ∧
          (header previous).isDeleted = false ∧ version current ≠ lastVersion ∧
            collection.commit (.replace current
              (asVersion previous (version current + 1) call.stamp)) call.now =
                .ok (next, reply) := by
  -- the plan of a change is that of its kind of element
  have hplan {plan : Plan} : collection.plan call fresh (.change kind guid .undo) = .ok plan ↔
      ∃ current previous : kind.Carrier, ∃ older, collection.Updatable call guid current ∧
        collection.store.versions kind.Carrier guid = current :: previous :: older ∧
          (header previous).isDeleted = false ∧ version current ≠ lastVersion ∧
            .replace current
              (asVersion previous (version current + 1) call.stamp) = plan := by
    cases kind <;> exact h.planUndo_eq_ok_iff
  rw [execute_eq_ok_iff]
  constructor
  · rintro ⟨plan, hplanned, hcommit⟩
    obtain ⟨current, previous, older, hcurrent, hversions, hlive, hleft, rfl⟩ :=
      hplan.mp hplanned
    exact ⟨current, previous, older, hcurrent, hversions, hlive, hleft, hcommit⟩
  · rintro ⟨current, previous, older, hcurrent, hversions, hlive, hleft, hcommit⟩
    exact ⟨_, hplan.mpr ⟨current, previous, older, hcurrent, hversions, hlive, hleft, rfl⟩, hcommit⟩

/-- An undo writes the content of the version before the current one, on top of all versions. -/
theorem Reachable.wrote_of_undo (h : collection.Reachable)
    (hexecute : collection.execute call fresh (.change kind guid .undo) = .ok (next, reply)) :
    ∃ current previous : kind.Carrier, ∃ older, collection.Updatable call guid current ∧
      collection.store.versions kind.Carrier guid = current :: previous :: older ∧
        next.Wrote reply guid
          (asVersion previous (version current + 1) call.stamp) ∧
          (collection.store.clock.InRange → next.store.versions kind.Carrier guid =
            asVersion previous (version current + 1) call.stamp ::
              current :: previous :: older) := by
  obtain ⟨current, previous, older, hcurrent, hversions, -, -, hcommit⟩ :=
    h.execute_undo_eq_ok_iff.mp hexecute
  obtain ⟨_, hcommit', hlatest, hadded⟩ := h.commit_undo hcurrent hversions
  cases hcommit.symm.trans hcommit'
  exact ⟨current, previous, older, hcurrent, hversions, ⟨rfl, hlatest⟩, hadded⟩

/-- An undo is accepted if the version before the current one is not deleted and the current one is
not the last. -/
theorem Reachable.isOk_undo (h : collection.Reachable) {current previous : kind.Carrier}
    {older : List kind.Carrier} (hcurrent : collection.Updatable call guid current)
    (hversions : collection.store.versions kind.Carrier guid = current :: previous :: older)
    (hlive : (header previous).isDeleted = false) (hleft : version current ≠ lastVersion)
    (fresh : Guid) :
    ∃ next reply, collection.execute call fresh (.change kind guid .undo) = .ok (next, reply) := by
  obtain ⟨next, hcommit, -, -⟩ := h.commit_undo hcurrent hversions
  exact ⟨next, _, h.execute_undo_eq_ok_iff.mpr
    ⟨current, previous, older, hcurrent, hversions, hlive, hleft, hcommit⟩⟩

/-- An accepted undo writes the version before the current one, in all but its number and its last
change, and an undo directly after it writes the one that was current. An undo of an element that
can be changed is refused if there is no version before or it is deleted, and then the collection
stays as it was; otherwise it is accepted, or cut off if the current version is the last. -/
theorem undo_restores (hreachable : collection.Reachable) (hrange : collection.store.clock.InRange)
    (kind : ElementKind) (guid : Guid) (call : Call) (fresh : Guid) :
    (∀ next reply,
      collection.execute call fresh (.change kind guid .undo) = .ok (next, reply) →
      ∃ current previous : kind.Carrier, ∃ older,
        collection.store.versions kind.Carrier guid = current :: previous :: older ∧
        collection.store.latest guid = some (toRecord current) ∧
        next.Wrote reply guid
          (asVersion previous (version current + 1) call.stamp) ∧
        (∀ again refreshed last answer,
          next.execute again refreshed (.change kind guid .undo) = .ok (last, answer) →
          last.Wrote answer guid
            (asVersion current (version current + 2) again.stamp)) ∧
        (version current < lastVersion - 1 →
          (version current + 1).toNat = (version current).toNat + 1 ∧
          (version current + 2).toNat = (version current).toNat + 2)) ∧
    ∀ current : kind.Carrier, collection.Updatable call guid current →
      ((collection.store.versions kind.Carrier guid).length < 2 →
        collection.execute call fresh (.change kind guid .undo) =
            .error (.refused (.invalidState (.noPreviousVersion guid))) ∧
          collection.after (.operate call fresh (.change kind guid .undo)) = collection) ∧
      ∀ previous older,
        collection.store.versions kind.Carrier guid = current :: previous :: older →
        ((header previous).isDeleted →
          collection.execute call fresh (.change kind guid .undo) =
              .error (.refused (.alreadyDeleted guid)) ∧
            collection.after (.operate call fresh (.change kind guid .undo)) = collection) ∧
        ((header previous).isDeleted = false →
          if version current = lastVersion then
            collection.execute call fresh (.change kind guid .undo) = .error .overflow
          else ∃ next reply,
            collection.execute call fresh (.change kind guid .undo) = .ok (next, reply)) := by
  refine ⟨fun next reply hexecute => ?_, fun current hcurrent => ⟨fun hfew => ?_, ?_⟩⟩
  · obtain ⟨current, previous, older, hcurrent, hversions, hwrote, hadded⟩ :=
      hreachable.wrote_of_undo hexecute
    refine ⟨current, previous, older, hversions, hcurrent.stored, hwrote, ?_, fun hversion => ?_⟩
    · intro again refreshed last answer hagain
      -- the version that the first undo replaced is now the one before the current one
      obtain ⟨undone, former, oldest, -, hversions', hwrote', -⟩ :=
        (hreachable.execute hexecute).wrote_of_undo hagain
      rw [hadded hrange] at hversions'
      cases hversions'
      rw [version_asVersion, UInt64.add_assoc] at hwrote'
      exact hwrote'
    · have hlast : (lastVersion - 1).toNat = 18446744073709551614 := rfl
      have htwo : (2 : UInt64).toNat = 2 := rfl
      rw [UInt64.lt_iff_toNat_lt, hlast] at hversion
      rw [UInt64.toNat_add, UInt64.toNat_add, UInt64.toNat_one, htwo]
      constructor <;> omega
  · refine failed_of_plan ?_
    cases kind <;> exact hreachable.planUndo_of_length_lt hcurrent hfew
  · intro previous older hversions
    refine ⟨fun hdeleted => failed_of_plan ?_, fun hlive => ?_⟩
    · cases kind <;> exact hreachable.planUndo_of_isDeleted hcurrent hversions hdeleted
    · split
      · rename_i hlast
        refine (failed_of_plan ?_).1
        cases kind <;> exact hreachable.planUndo_of_lastVersion hcurrent hversions hlive hlast
      · rename_i hleft
        exact hreachable.isOk_undo hcurrent hversions hlive hleft fresh

/-- The asset as it is added. -/
private def draftAsset : Entity :=
  let header := Header.new "asset" ⟨"Asset", []⟩ "local" ⟨"ada", .earliest⟩
  .new { header with homeName := some "local" } (.ofList [("title", .string "Draft")]) []

/-- The asset with another title. -/
private def finalAsset : Entity :=
  asVersion { draftAsset with properties := .ofList [("title", .string "Final")] } 2
    ⟨"bob", .earliest⟩

/-- A collection with an asset that got another title. -/
private def retitled : Collection :=
  run ⟨default, ∅, .empty⟩
    [.addType ⟨"Asset", .entity, none, ["title"], [], [], none, []⟩,
      .operate ⟨"ada", .earliest⟩ "asset"
        (.addEntity ⟨"Asset", draftAsset.properties, [], .active, none⟩),
      .operate ⟨"bob", .earliest⟩ ""
        (.change .entity "asset" (.properties finalAsset.properties))]

private theorem reachable_retitled : retitled.Reachable := (Reachable.start _ _).run _

/-- The first undo brings back the old title as the third version, the second one the new title as
the fourth. -/
theorem undo_restores_retitled :
    ∃ next reply last answer,
      retitled.execute ⟨"cyd", .earliest⟩ "" (.change .entity "asset" .undo) = .ok (next, reply) ∧
      next.execute ⟨"dan", .latest⟩ "" (.change .entity "asset" .undo) = .ok (last, answer) ∧
      next.Wrote reply "asset" (asVersion draftAsset 3 ⟨"cyd", .earliest⟩) ∧
      last.Wrote answer "asset" (asVersion finalAsset 4 ⟨"dan", .latest⟩) := by
  obtain ⟨next, reply, last, answer, hundo, hagain⟩ : ∃ next reply last answer,
      retitled.execute ⟨"cyd", .earliest⟩ "" (.change .entity "asset" .undo) = .ok (next, reply) ∧
      next.execute ⟨"dan", .latest⟩ "" (.change .entity "asset" .undo) = .ok (last, answer) :=
    ⟨_, _, _, _, rfl, rfl⟩
  obtain ⟨current, previous, older, hversions, -, hwrote, hsecond, -⟩ :=
    (undo_restores reachable_retitled (by decide) .entity "asset" ⟨"cyd", .earliest⟩ "").1
      next reply hundo
  have hstored : retitled.store.versions Entity "asset" = [finalAsset, draftAsset] := by decide
  cases hversions.symm.trans hstored
  exact ⟨next, reply, last, answer, hundo, hagain, hwrote, hsecond _ _ _ _ hagain⟩

end Collection

end MetadataGraph

import MetadataGraph.Proofs.Collection.Plans
import MetadataGraph.Proofs.Store.Sequential

/-!
# Re-identification

A re-identification gives an entity another identity in one commit: the entity is retired under the
old identity, created under the new one, and every relationship that references the old identity is
moved to the new one. We prove:

* `reIdentify_isOk_iff`: no guard stops a re-identification to an identity that is not used;
* `reIdentify_exact`: an accepted re-identification writes these revisions at one time and no
  others, and leaves no relationship at the old identity.
-/

namespace MetadataGraph.Collection

open Versioning

variable {collection next : Collection}

section Written

variable {current : Entity} {old new : Guid} {stamp : Stamp}

/-- What a re-identification of an entity writes under every identity. -/
def reIdentified (collection : Collection) (current : Entity) (old new : Guid) (stamp : Stamp) :
    Records := fun guid =>
  if guid = old then some (.entity (retired current stamp))
  else if guid = new then some (.entity (renamed current new stamp))
  else
    match collection.store.latest guid with
    | some (.relationship relationship) =>
      if relationship.references old then
        some (.relationship
          (relationship.moved old (collection.renamedProxy current new stamp) stamp))
      else none
    | _ => none

/-- The statements of a re-identification. -/
def reIdentification (collection : Collection) (current : Entity) (old new : Guid)
    (stamp : Stamp) : List Statement :=
  collection.moves current old new stamp ++ [.create (.entity (renamed current new stamp))]

theorem reIdentified_old :
    collection.reIdentified current old new stamp old = some (.entity (retired current stamp)) :=
  if_pos rfl

theorem reIdentified_new (hne : new ≠ old) :
    collection.reIdentified current old new stamp new =
      some (.entity (renamed current new stamp)) := by
  rw [reIdentified, if_neg hne, if_pos rfl]

/-- A relationship is stored under another identity than the entity and its new one. -/
theorem ne_of_relationship {guid : Guid} {relationship : Relationship}
    (hcurrent : collection.store.latest old = some (.entity current))
    (hnew : collection.store.latest new = none)
    (hlatest : collection.store.latest guid = some (.relationship relationship)) :
    guid ≠ old ∧ guid ≠ new := by
  constructor
  · intro heq
    rw [heq, hcurrent] at hlatest
    cases hlatest
  · intro heq
    rw [heq, hnew] at hlatest
    cases hlatest

/-- Every relationship at the old identity is moved. -/
theorem reIdentified_relationship {guid : Guid} {relationship : Relationship}
    (hcurrent : collection.store.latest old = some (.entity current))
    (hnew : collection.store.latest new = none)
    (hlatest : collection.store.latest guid = some (.relationship relationship))
    (hreferences : relationship.references old) :
    collection.reIdentified current old new stamp guid =
      some (.relationship
        (relationship.moved old (collection.renamedProxy current new stamp) stamp)) := by
  obtain ⟨hold, hother⟩ := ne_of_relationship hcurrent hnew hlatest
  rw [reIdentified, if_neg hold, if_neg hother, hlatest]
  exact if_pos hreferences

/-- Nothing is written under any other identity. -/
theorem reIdentified_eq_none {guid : Guid} (hold : guid ≠ old) (hnew : guid ≠ new)
    (hothers : ∀ relationship, collection.store.latest guid = some (.relationship relationship) →
      relationship.references old = false) :
    collection.reIdentified current old new stamp guid = none := by
  rw [reIdentified, if_neg hold, if_neg hnew]
  split
  · rename_i relationship hlatest
    rw [hothers relationship hlatest]
    rfl
  · rfl

/-- The statements put exactly the records that a re-identification writes. -/
theorem put_mem_reIdentification_iff (hcoherent : collection.store.Coherent) (hne : new ≠ old)
    (hcurrent : collection.store.latest old = some (.entity current))
    (hnew : collection.store.latest new = none) {record : Record} {guid : Guid} :
    (∃ guard, .put record guard ∈ collection.reIdentification current old new stamp ∧
      record.guid = guid) ↔ collection.reIdentified current old new stamp guid = some record := by
  have hguid : current.header.guid = old := hcoherent.guid_of_read hcurrent
  simp only [reIdentification, moves, List.mem_append, List.mem_map, List.mem_singleton,
    hcoherent.mem_edges_iff]
  constructor
  · rintro ⟨guard, ((⟨relationship, ⟨hlatest, hreferences⟩, hput⟩ | hput) | hput), rfl⟩
    · cases hput
      exact reIdentified_relationship hcurrent hnew hlatest hreferences
    · cases hput
      rw [show (Element.toRecord (retired current stamp)).guid = old from hguid]
      exact reIdentified_old
    · cases hput
      exact reIdentified_new hne
  · -- read off from each branch of the definition which statement writes the record
    intro hwritten
    unfold reIdentified at hwritten
    split at hwritten
    · rename_i heq
      cases hwritten
      exact ⟨_, Or.inl (Or.inr rfl), hguid.trans heq.symm⟩
    · split at hwritten
      · rename_i heq
        cases hwritten
        exact ⟨_, Or.inr rfl, heq.symm⟩
      · split at hwritten
        · rename_i relationship hlatest
          split at hwritten
          · rename_i hreferences
            cases hwritten
            have hrelationship : relationship.header.guid = guid := hcoherent.guid_of_read hlatest
            refine ⟨_, Or.inl (Or.inl ⟨relationship, ⟨?_, hreferences⟩, rfl⟩), hrelationship⟩
            rw [hrelationship]
            exact hlatest
          · cases hwritten
        · cases hwritten

/-- A re-identification removes nothing. -/
theorem evict_not_mem_reIdentification (guid : Guid) :
    .evict guid ∉ collection.reIdentification current old new stamp := by
  simp [reIdentification, moves, Statement.replace, Statement.create]

/-- A relationship that is moved does not reference the old identity any more. -/
theorem references_moved {relationship : Relationship} {proxy : Proxy}
    (hne : proxy.header.guid ≠ old) :
    (relationship.moved old proxy stamp).references old = false := by
  have hend (stood : Proxy) :
      (if stood.header.guid = old then proxy else stood).header.guid ≠ old := by
    split
    · exact hne
    · assumption
  rw [Relationship.references, Bool.or_eq_false_iff]
  exact ⟨decide_eq_false (hend relationship.endOne), decide_eq_false (hend relationship.endTwo)⟩

/-- No relationship that is written references the old identity. -/
theorem references_of_reIdentified (hne : new ≠ old) {guid : Guid} {relationship : Relationship}
    (h : collection.reIdentified current old new stamp guid = some (.relationship relationship)) :
    relationship.references old = false := by
  have hproxy : (collection.renamedProxy current new stamp).header.guid ≠ old := hne
  unfold reIdentified at h
  split at h
  · cases h
  · split at h
    · cases h
    · split at h
      · split at h
        · cases h
          exact references_moved hproxy
        · cases h
      · cases h

end Written

section Accepted

variable {call : Call} {fresh old new : Guid} {reply : Reply}

/-- An accepted re-identification commits the statements of an entity that is stored under the old
identity while nothing is stored under the new one. -/
theorem reIdentify_eq_ok
    (hexecute : collection.execute call fresh (.change .entity old (.reIdentify new)) =
      .ok (next, reply)) :
    ∃ current : Entity, collection.store.latest old = some (.entity current) ∧ new ≠ old ∧
      collection.store.latest new = none ∧
      next = { collection with
        store := collection.store.carriedOut
          (collection.reIdentification current old new call.stamp) call.now } ∧
      reply = .written (.entity (renamed current new call.stamp)) := by
  obtain ⟨plan, hplan, hcommit⟩ := execute_eq_ok_iff.mp hexecute
  have hplanned : collection.planReIdentify Entity call old new = .ok plan := hplan
  obtain ⟨current, hcurrent, hne, -, hstatements, hreply⟩ := planReIdentify_eq_ok hplanned
  have hsome : plan.statements ≠ [] := by simp [hstatements]
  obtain ⟨receipt, hsubmit, hnext, rfl⟩ := (commit_eq_ok_iff hsome).mp hcommit
  have hrecords := Store.runAll_of_submit hsubmit
  rw [hstatements] at hsubmit hrecords
  have hevict (guid : Guid) : .evict guid ∉ collection.moves current old new call.stamp :=
    fun hmem => evict_not_mem_reIdentification guid (List.mem_append_left _ hmem)
  have hnew := (Records.runAll_create hrecords hevict).1
  obtain ⟨-, hstore, -⟩ := Store.submit_eq_ok_iff.mp hsubmit
  refine ⟨current, hcurrent, hne, hnew, ?_, hreply⟩
  rw [hnext, ← hstore]
  rfl

/-- The guards of a re-identification pass if nothing is stored under the new identity. -/
theorem runAll_reIdentification (hcoherent : collection.store.Coherent) (hne : new ≠ old)
    {current : Entity} (hcurrent : collection.store.latest old = some (.entity current))
    (hnew : collection.store.latest new = none) (stamp : Stamp) :
    ∃ records, Records.runAll collection.store.latest
      (collection.reIdentification current old new stamp) = .ok records := by
  have hguid : current.header.guid = old := hcoherent.guid_of_read hcurrent
  have hstored (relationship : Relationship)
      (hmem : relationship ∈ Element.edges Entity collection.store old) :
      collection.store.latest relationship.header.guid = some (.relationship relationship) :=
    (hcoherent.mem_edges_iff.mp hmem).1
  apply Records.runAll_isOk
  · simp only [reIdentification, moves, List.mem_append, List.mem_map, List.mem_singleton]
    rintro statement ((⟨relationship, hmem, rfl⟩ | rfl) | rfl)
    · exact ⟨_, _, rfl, _, hstored relationship hmem, rfl⟩
    · exact ⟨_, _, rfl, _, (congrArg collection.store.latest hguid).trans hcurrent, rfl⟩
    · exact ⟨_, _, rfl, hnew⟩
  · -- the relationships, the entity and its new identity are all distinct
    rw [reIdentification, moves, List.append_assoc, List.pairwise_append, List.pairwise_map]
    refine ⟨hcoherent.pairwise_relationshipsAt old, ?_, ?_⟩
    · refine List.pairwise_pair.mpr ?_
      exact fun heq => hne (heq.symm.trans hguid)
    · intro statement hmem
      obtain ⟨relationship, hedge, rfl⟩ := List.mem_map.mp hmem
      obtain ⟨hold, hother⟩ := ne_of_relationship hcurrent hnew (hstored relationship hedge)
      intro later hlater
      rcases List.mem_pair.mp hlater with rfl | rfl
      · exact fun heq => hold (heq.trans hguid)
      · exact hother

/-- A re-identification is accepted when it can be planned and nothing is stored under the new
identity: the guards of its other statements always pass. -/
theorem reIdentify_isOk_iff (hreachable : collection.Reachable) :
    (∃ next reply, collection.execute call fresh (.change .entity old (.reIdentify new)) =
      .ok (next, reply)) ↔
      (∃ plan, collection.planReIdentify Entity call old new = .ok plan) ∧
        collection.store.latest new = none := by
  constructor
  · rintro ⟨next, reply, hexecute⟩
    obtain ⟨plan, hplan, -⟩ := execute_eq_ok_iff.mp hexecute
    obtain ⟨-, -, -, hnew, -⟩ := reIdentify_eq_ok hexecute
    exact ⟨⟨plan, hplan⟩, hnew⟩
  · rintro ⟨⟨plan, hplan⟩, hnew⟩
    obtain ⟨current, hcurrent, hne, -, hstatements, -⟩ := planReIdentify_eq_ok hplan
    have hsome : plan.statements ≠ [] := by simp [hstatements]
    have hrecords := runAll_reIdentification hreachable.store.coherent hne hcurrent hnew call.stamp
    obtain ⟨store, receipt, hsubmit⟩ := (Store.submit_isOk_iff call.now).mpr hrecords
    refine ⟨{ collection with store }, plan.reply, execute_eq_ok_iff.mpr ⟨plan, hplan, ?_⟩⟩
    refine (commit_eq_ok_iff hsome).mpr ⟨receipt, ?_, rfl, rfl⟩
    rw [hstatements]
    exact hsubmit

/-- After a re-identification there is one revision more of every identity that it writes. -/
theorem chain_reIdentification (hcoherent : collection.store.Coherent) (hne : new ≠ old)
    {current : Entity} (hcurrent : collection.store.latest old = some (.entity current))
    (hnew : collection.store.latest new = none) (stamp : Stamp) (now : Instant) (guid : Guid) :
    (collection.store.carriedOut (collection.reIdentification current old new stamp) now).chain
        guid =
      match collection.reIdentified current old new stamp guid with
      | some record =>
        (collection.store.chain guid).push record (collection.store.commitTime now) now
      | none => collection.store.chain guid := by
  have hput (record : Record) := @put_mem_reIdentification_iff collection current old new stamp
    hcoherent hne hcurrent hnew record guid
  cases hwritten : collection.reIdentified current old new stamp guid with
  | none =>
    apply Store.chain_carriedOut_of_ne
    intro statement hmem hguid
    cases statement with
    | evict evicted => exact evict_not_mem_reIdentification evicted hmem
    | put record guard =>
      rw [(hput record).mp ⟨guard, hmem, hguid⟩] at hwritten
      cases hwritten
  | some record =>
    obtain ⟨guard, hmem, hguid⟩ := (hput record).mpr hwritten
    obtain ⟨other, guard', hmem', hguid', hchain⟩ := collection.store.chain_carriedOut
      (evict_not_mem_reIdentification guid) ⟨_, hmem, hguid⟩ now
    -- the record that is pushed is the one that is written, as there is one for each identity
    have hother := (hput other).mp ⟨guard', hmem', hguid'⟩
    rw [hwritten] at hother
    cases hother
    exact hchain

/-- The effect of a re-identification of an entity on a collection, at one time: it is exactly this
and nothing else. -/
structure ReIdentifies (collection next : Collection) (call : Call) (old new : Guid)
    (current : Entity) (time : Instant) : Prop where
  /-- The entity was stored under the old identity. -/
  stored : collection.store.latest old = some (.entity current)
  /-- The old identity gets one revision, in which the entity is retired. -/
  old_retired : next.store.chain old =
    (collection.store.chain old).push (.entity (retired current call.stamp)) time call.now
  /-- Nothing was stored under the new identity. -/
  new_unused : collection.store.chain new = []
  /-- The new identity has one revision, with the next version of the entity. -/
  new_created : next.store.chain new =
    [.new (.entity (renamed current new call.stamp)) time call.now]
  /-- The proxy that relationships are moved to is that of the new entity. -/
  new_proxy : next.proxy? new = some (collection.renamedProxy current new call.stamp)
  /-- It has the properties of the entity that are unique for its type, and no others. -/
  unique_kept : ∀ name,
    (collection.renamedProxy current new call.stamp).uniqueProperties.get? name =
      if name ∈ collection.catalog.uniqueProperties current.header.typeName then
        current.properties.get? name
      else none
  /-- Every relationship that referenced the old identity gets one revision, in which it has the
  proxy at each end that referenced the old identity. -/
  moved : ∀ guid relationship,
    collection.store.latest guid = some (.relationship relationship) → relationship.references old →
      next.store.chain guid = (collection.store.chain guid).push
        (.relationship (relationship.moved old
          (collection.renamedProxy current new call.stamp) call.stamp)) time call.now
  /-- No relationship references the old identity any more. -/
  none_left : ∀ guid relationship,
    next.store.latest guid = some (.relationship relationship) → relationship.references old = false
  /-- All other identities keep their revisions. -/
  others_kept : ∀ guid, guid ≠ old → guid ≠ new →
    (∀ relationship, collection.store.latest guid = some (.relationship relationship) →
      relationship.references old = false) →
    next.store.chain guid = collection.store.chain guid

/-- An accepted re-identification of an entity retires it under the old identity, creates it under
the new one, where nothing was stored, and moves every relationship that references the old identity
to the new one, all at one time. It leaves no relationship at the old identity and does not touch
any other identity. -/
theorem reIdentify_exact (hreachable : collection.Reachable)
    (hexecute : collection.execute call fresh (.change .entity old (.reIdentify new)) =
      .ok (next, reply)) :
    ∃ current time, ReIdentifies collection next call old new current time := by
  have hcoherent := hreachable.store.coherent
  obtain ⟨current, hcurrent, hne, hnew, hnext, -⟩ := reIdentify_eq_ok hexecute
  have hstore : next.store = collection.store.carriedOut
      (collection.reIdentification current old new call.stamp) call.now := by rw [hnext]
  have hcatalog : next.catalog = collection.catalog := by rw [hnext]
  have hchain := chain_reIdentification hcoherent hne hcurrent hnew call.stamp call.now
  rw [← hstore] at hchain
  have hempty : collection.store.chain new = [] := hcoherent.latest_eq_none_iff.mp hnew
  have hcreated : next.store.chain new = [.new (.entity (renamed current new call.stamp))
      (collection.store.commitTime call.now) call.now] := by
    rw [hchain, reIdentified_new hne, hempty]
    rfl
  refine ⟨current, collection.store.commitTime call.now, hcurrent, ?_, hempty, hcreated, ?_,
    collection.get?_renamedProxy current new call.stamp, ?_, ?_, ?_⟩
  · rw [hchain, reIdentified_old]
  · have hlatest : next.store.latest new = some (.entity (renamed current new call.stamp)) := by
      rw [Store.latest, Store.read, hcreated]
      exact Chain.visible?_push_now [] _ _ _
    rw [proxy?_of_latest hlatest, hcatalog]
    rfl
  · intro guid relationship hlatest hreferences
    rw [hchain, reIdentified_relationship hcurrent hnew hlatest hreferences]
  · intro guid relationship hlatest
    rw [Store.latest, Store.read, hchain] at hlatest
    split at hlatest
    -- what is current was written now, or it is still what was current before
    · rename_i record hwritten
      rw [Chain.visible?_push_now, Option.some.injEq] at hlatest
      rw [hlatest] at hwritten
      exact references_of_reIdentified hne hwritten
    · rename_i hwritten
      refine Bool.eq_false_iff.mpr fun hreferences => ?_
      rw [reIdentified_relationship hcurrent hnew hlatest hreferences] at hwritten
      cases hwritten
  · intro guid hold hnew' hothers
    rw [hchain, reIdentified_eq_none hold hnew' hothers]

end Accepted

/-- A relationship of the asset with itself. -/
private def selfLink : Relationship where
  header := .new "link" ⟨"Link", []⟩ "catalog" ⟨"ada", .earliest⟩
  properties := ∅
  endOne := (Store.asset 1).toProxy []
  endTwo := (Store.asset 1).toProxy []

/-- A collection with the asset and the relationship. -/
private def linkedAsset : Collection where
  config := .new "catalog" "catalog"
  catalog := .ofList []
  store := Store.assetStore.afterSubmit [.create selfLink] .earliest

/-- The re-identification of the asset moves its relationship with itself at both ends. -/
theorem reIdentify_linkedAsset :
    ∃ next reply, linkedAsset.execute ⟨"ada", .earliest⟩ ""
        (.change .entity "asset" (.reIdentify "item")) = .ok (next, reply) ∧
      (next.store.chain "item").length = 1 ∧
      (∃ link, next.store.latest "link" = some (.relationship link) ∧ link.header.version = 2 ∧
        link.endOneGuid = "item" ∧ link.endTwoGuid = "item") ∧
      ∀ guid relationship, next.store.latest guid = some (.relationship relationship) →
        relationship.references "asset" = false := by
  have hreachable : linkedAsset.Reachable :=
    ((Reachable.start _ _).submit [.create (Store.asset 1)] .earliest).submit _ _
  obtain ⟨next, reply, hexecute⟩ : ∃ next reply, linkedAsset.execute ⟨"ada", .earliest⟩ ""
      (.change .entity "asset" (.reIdentify "item")) = .ok (next, reply) := ⟨_, _, rfl⟩
  obtain ⟨current, time, heffect⟩ := reIdentify_exact hreachable hexecute
  have hlink : next.store.latest "link" = some _ :=
    (congrArg (Chain.visible? · .now) (heffect.moved "link" selfLink rfl rfl)).trans
      (Chain.visible?_push_now _ _ _ _)
  refine ⟨next, reply, hexecute, ?_, ⟨_, hlink, rfl, rfl, rfl⟩, heffect.none_left⟩
  rw [heffect.new_created]
  rfl

end MetadataGraph.Collection

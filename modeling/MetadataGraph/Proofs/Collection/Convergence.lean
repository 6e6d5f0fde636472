import MetadataGraph.Proofs.Collection.OptimisticLock
import MetadataGraph.Proofs.Value.Equality

/-!
# Convergence of classification copies

The copy of a classification is saved again and again until both sides hold the same. What is stored
already is not written once more: the copy is compared with the classification of its name, floats
as numbers. We prove:

* `planSaveClassification_eq_ok_iff`: the ways in which a copy is planned to be saved, the checks
  that it has passed included;
* `repeat_classificationCopy_iff`: an accepted call that is repeated changes nothing, unless it has
  saved a copy that holds a NaN;
* `restless_measured`: a copy that holds a NaN makes one version after the other.
-/

namespace MetadataGraph

/-- The operation saves the copy of a classification or takes it away. -/
def Operation.IsClassificationCopy : Operation → Prop
  | saveClassification _ _ | purgeClassification _ _ => True
  | _ => False

/-- The operation saves the copy of a classification that holds a NaN. -/
def Operation.SavesNaN : Operation → Prop
  | saveClassification _ classification => classification.properties.haveNaN
  | _ => False

open Element Instance

namespace Collection

variable {collection next : Collection} {call repeated : Call} {fresh : Guid} {plan : Plan}
  {incoming current : Entity} {classification : Classification} {operation : Operation}
  {reply : Reply}

/-! ## Saving a copy -/

/-- What a copy has to pass before the store is read. -/
structure AdmitsCopy (collection : Collection) (user : UserId) (incoming : Entity)
    (classification : Classification) : Prop where
  user : Validation.userId user = .ok ()
  guid : Validation.notBlank incoming.header.guid "entity.guid" = .ok ()
  name : Validation.notBlank classification.name "classification.name" = .ok ()
  foreign : classification.home ≠ collection.id

/-- The ways in which an admitted copy is planned to be saved. -/
inductive PlansCopy (collection : Collection) (call : Call) (incoming : Entity)
    (classification : Classification) : Plan → Prop where
  /-- There is no entity to put it on. -/
  | nowhere (none : collection.labelled? incoming = none) :
    PlansCopy collection call incoming classification (.nothing (.copied .unchanged))
  /-- The entity is deleted. -/
  | deleted {current : Entity} (found : collection.labelled? incoming = some current)
    (deleted : current.header.isDeleted) :
    PlansCopy collection call incoming classification (.nothing (.copied .unchanged))
  /-- The entity has an equal classification already. -/
  | converged {current : Entity} (found : collection.labelled? incoming = some current)
    (live : current.header.isDeleted = false)
    (check : collection.checkClassification current.header.typeName classification = .ok ())
    (equal : (current.classification? classification.name).any (·.equal classification)) :
    PlansCopy collection call incoming classification (.nothing (.copied .unchanged))
  /-- The entity has no equal classification, and is written with the copy. -/
  | applied {current : Entity} {plan : Plan}
    (found : collection.labelled? incoming = some current)
    (live : current.header.isDeleted = false)
    (check : collection.checkClassification current.header.typeName classification = .ok ())
    (differs : (current.classification? classification.name).any (·.equal classification) = false)
    (planned : collection.planLabelled call current
      (current.withClassification classification) = .ok plan) :
    PlansCopy collection call incoming classification plan

/-- A copy that is admitted, allowed by the types and not yet there is put on the entity. -/
theorem planSaveClassification_eq_planLabelled
    (hadmits : collection.AdmitsCopy call.user incoming classification)
    (hfound : collection.labelled? incoming = some current)
    (hlive : current.header.isDeleted = false)
    (hcheck : collection.checkClassification current.header.typeName classification = .ok ())
    (hdiffers : (current.classification? classification.name).any (·.equal classification) =
      false) :
    collection.planSaveClassification call incoming classification =
      collection.planLabelled call current (current.withClassification classification) := by
  simp only [planSaveClassification, hadmits.user, hadmits.guid, hadmits.name,
    decide_eq_true hadmits.foreign, Outcome.require_true, Outcome.ok_bind, hfound, hlive,
    Bool.false_eq_true, if_false, hcheck, hdiffers]

/-- A copy is planned to be saved when it is admitted and the types allow it on the entity that it
goes on. -/
theorem planSaveClassification_eq_ok_iff :
    collection.planSaveClassification call incoming classification = .ok plan ↔
      collection.AdmitsCopy call.user incoming classification ∧
        collection.PlansCopy call incoming classification plan := by
  simp only [planSaveClassification, Outcome.bind_eq_ok_iff, Outcome.require_eq_ok_iff,
    decide_eq_true_eq]
  constructor
  · rintro ⟨⟨⟩, huser, ⟨⟩, hguid, ⟨⟩, hname, ⟨⟩, hforeign, h⟩
    refine ⟨⟨huser, hguid, hname, hforeign⟩, ?_⟩
    split at h
    · rename_i hnone
      cases Outcome.pure_eq_ok_iff.mp h
      exact .nowhere hnone
    · rename_i current hfound
      split at h
      · rename_i hdeleted
        cases Outcome.pure_eq_ok_iff.mp h
        exact .deleted hfound hdeleted
      · rename_i hlive
        obtain ⟨⟨⟩, hcheck, h⟩ := Outcome.bind_eq_ok_iff.mp h
        split at h
        · rename_i hequal
          cases Outcome.pure_eq_ok_iff.mp h
          exact .converged hfound (Bool.eq_false_iff.mpr hlive) hcheck hequal
        · rename_i hdiffers
          exact .applied hfound (Bool.eq_false_iff.mpr hlive) hcheck
            (Bool.eq_false_iff.mpr hdiffers) h
  · rintro ⟨⟨huser, hguid, hname, hforeign⟩, hplans⟩
    refine ⟨(), huser, (), hguid, (), hname, (), hforeign, ?_⟩
    cases hplans with
    | nowhere hnone =>
      rw [hnone]
      rfl
    | deleted hfound hdeleted =>
      simp only [hfound, hdeleted, if_true]
      rfl
    | converged hfound hlive hcheck hequal =>
      simp only [hfound, hlive, Bool.false_eq_true, if_false, hcheck, hequal, if_true]
      rfl
    | applied hfound hlive hcheck hdiffers hplanned =>
      simp only [hfound, hlive, Bool.false_eq_true, if_false, hcheck, hdiffers]
      exact hplanned

/-- A live entity that is stored is written with changed classifications, if there is a version
left. -/
theorem planLabelled_isOk (call : Call) {labelled : Entity}
    (hlive : current.header.isDeleted = false)
    (hheader : labelled.header = current.header) (hleft : collection.CanRelabel current)
    (hlatest : collection.store.latest current.header.guid = some (.entity current)) :
    ∃ plan, collection.planLabelled call current labelled = .ok plan ∧
      plan.reply = .copied .applied ∧
      ∃ stored, Records.runAll collection.store.latest plan.statements = .ok stored := by
  unfold planLabelled
  split
  · rename_i hlocal
    have hguid : guid current = guid labelled := congrArg Header.guid hheader.symm
    obtain ⟨next, hnext⟩ : ∃ next, Versioning.update current labelled call.stamp = .ok next :=
      ⟨_, Versioning.update_eq_ok_iff.mpr
        ⟨hlive, Versioning.nextVersion_eq_ok_iff.mpr ⟨hguid, hleft hlocal, rfl⟩⟩⟩
    have hkept : next.header.guid = current.header.guid :=
      (Versioning.Succeeds.of_update hnext).guid_eq
    have hlatest' : collection.store.latest next.header.guid = some (.entity current) := by
      rw [hkept, hlatest]
    rw [hnext]
    exact ⟨_, rfl, rfl, _, Records.runAll_put_eq_ok_iff.mpr ⟨⟨_, hlatest', rfl⟩, rfl⟩⟩
  · exact ⟨_, rfl, rfl, _, Records.runAll_put_eq_ok_iff.mpr ⟨trivial, rfl⟩⟩

/-- An operation of whose plan nothing is left changes nothing. -/
theorem execute_of_nothing (h : collection.plan call fresh operation = .ok (.nothing reply)) :
    collection.execute call fresh operation = .ok (collection, reply) :=
  execute_eq_ok_iff.mpr ⟨_, h, commit_of_nil rfl call.now⟩

/-- What is planned for a live entity that is stored is carried out, if there is a version left. -/
theorem execute_of_planLabelled {labelled : Entity}
    (hlatest : collection.store.latest current.header.guid = some (.entity current))
    (hlive : current.header.isDeleted = false) (hheader : labelled.header = current.header)
    (hleft : collection.CanRelabel current)
    (hplan : collection.plan call fresh operation =
      collection.planLabelled call current labelled) :
    ∃ store, collection.execute call fresh operation =
        .ok ({ collection with store }, .copied .applied) ∧
      store.latest = Function.update collection.store.latest current.header.guid
        (some (.entity (collection.relabelled call current labelled))) := by
  obtain ⟨plan, hlabelled, hreply, hrun⟩ := planLabelled_isOk call hlive hheader hleft hlatest
  obtain ⟨next, reply, hcommit⟩ : ∃ next reply, collection.commit plan call.now =
    .ok (next, reply) := isOk_commit_iff.mpr hrun
  have hexecute := execute_eq_ok_iff.mpr ⟨plan, hplan.trans hlabelled, hcommit⟩
  rw [← reply_of_commit hcommit, hreply, eq_of_execute hexecute] at hexecute
  refine ⟨next.store, hexecute, ?_⟩
  obtain ⟨guard, rfl⟩ := planLabelled_eq_ok hlabelled hheader
  obtain ⟨-, hnext⟩ := Records.runAll_put_eq_ok_iff.mp (runAll_of_commit hcommit)
  rw [← hnext]
  congr 1
  exact guid_relabelled current labelled hheader

/-- A copy that has been put on an entity is found there, and the entity as it was otherwise. -/
theorem labelled?_of_applied (hcoherent : collection.store.Coherent)
    (h : collection.execute call fresh (.saveClassification incoming classification) =
      .ok (next, .copied .applied)) :
    ∃ current stored, collection.labelled? incoming = some current ∧
      next.labelled? incoming = some stored ∧
      stored.header.guid = incoming.header.guid ∧
      next.store.latest incoming.header.guid = some (.entity stored) ∧
      stored.classification? classification.name = some classification ∧
      stored.header.isDeleted = current.header.isDeleted ∧
      stored.header.typeName = current.header.typeName := by
  obtain ⟨-, ⟨⟨⟩, -⟩ | ⟨-, current, hcurrent, hnext⟩⟩ := latest_of_saveClassification hcoherent h
  have hlatest : next.store.latest incoming.header.guid = some (.entity
      (collection.relabelled call current (current.withClassification classification))) := by
    rw [hnext, Function.update_self]
  refine ⟨current, _, hcurrent, labelled?_of_latest hlatest, ?_, hlatest, ?_, ?_⟩
  · -- the entity has the identity that comes with the copy
    have hguid : current.header.guid = incoming.header.guid := by
      rcases latest_or_eq_of_labelled? hcurrent with hstored | rfl
      · exact hcoherent.guid_of_read hstored
      · rfl
    rw [guid_relabelled current (current.withClassification classification) rfl, hguid]
  · rw [Entity.classification?, classifications_relabelled, Entity.withClassification,
      NameMap.get?_insert, if_pos rfl]
  · have hheader : (current.withClassification classification).header = current.header := rfl
    rw [header_relabelled hheader]
    split <;> exact ⟨rfl, rfl⟩

/-- A copy that is planned to change nothing is planned so at any time. -/
theorem PlansCopy.again
    (h : collection.PlansCopy call incoming classification (.nothing (.copied .unchanged))) :
    collection.PlansCopy repeated incoming classification (.nothing (.copied .unchanged)) := by
  cases h with
  | nowhere hnone => exact .nowhere hnone
  | deleted hfound hdeleted => exact .deleted hfound hdeleted
  | converged hfound hlive hcheck hequal => exact .converged hfound hlive hcheck hequal
  | applied hfound hlive hcheck hdiffers hplanned =>
    obtain ⟨guard, hplan⟩ := planLabelled_eq_ok hplanned rfl
    cases hplan

/-- A copy that has changed nothing does not the second time. -/
theorem repeat_saveClassification_unchanged
    (h : collection.execute call fresh (.saveClassification incoming classification) =
      .ok (next, .copied .unchanged))
    (huser : repeated.user = call.user) (refreshed : Guid) :
    next.execute repeated refreshed (.saveClassification incoming classification) =
      .ok (next, .copied .unchanged) := by
  obtain ⟨plan, hplan, hcommit⟩ := execute_eq_ok_iff.mp h
  obtain ⟨hadmits, hplans⟩ := planSaveClassification_eq_ok_iff.mp hplan
  have hreply := reply_of_commit hcommit
  obtain ⟨-, rfl | ⟨current, guard, -, rfl⟩⟩ := planSaveClassification_eq_ok hplan
  · rw [commit_of_nil rfl] at hcommit
    cases hcommit
    rw [← huser] at hadmits
    exact execute_of_nothing (planSaveClassification_eq_ok_iff.mpr ⟨hadmits, hplans.again⟩)
  · cases hreply

/-- A copy that has been put on an entity is there already the second time, or it holds a NaN and is
put there once more, as long as there is a version left. -/
theorem repeat_saveClassification_applied (hcoherent : collection.store.Coherent)
    (h : collection.execute call fresh (.saveClassification incoming classification) =
      .ok (next, .copied .applied))
    (huser : repeated.user = call.user) (refreshed : Guid) :
    (classification.properties.haveNaN = false →
        next.execute repeated refreshed (.saveClassification incoming classification) =
          .ok (next, .copied .unchanged)) ∧
      (classification.properties.haveNaN →
        ∃ stored, next.store.latest incoming.header.guid = some (.entity stored) ∧
          if next.CanRelabel stored then
            ∃ later, next.execute repeated refreshed (.saveClassification incoming classification) =
              .ok (later, .copied .applied)
          else next.execute repeated refreshed (.saveClassification incoming classification) =
            .error .overflow) := by
  obtain ⟨current, stored, hcurrent, hstored, hguid, hlatest, hcarries, hdeleted, htype⟩ :=
    labelled?_of_applied hcoherent h
  obtain ⟨plan, hplan, hcommit⟩ := execute_eq_ok_iff.mp h
  obtain ⟨hadmits, hplans⟩ := planSaveClassification_eq_ok_iff.mp hplan
  have hreply := reply_of_commit hcommit
  cases hplans with
  | nowhere | deleted | converged => cases hreply
  | applied hfound hlive hcheck =>
    cases hcurrent.symm.trans hfound
    -- only the store has changed, so that what has passed passes again
    have hnext := eq_of_execute h
    have hadmits' : next.AdmitsCopy repeated.user incoming classification := by
      rw [huser, hnext]
      exact ⟨hadmits.user, hadmits.guid, hadmits.name, hadmits.foreign⟩
    have hcheck' : next.checkClassification stored.header.typeName classification = .ok () := by
      rw [htype, hnext]
      exact hcheck
    have hlive' : stored.header.isDeleted = false := hdeleted.trans hlive
    -- the copy meets itself there
    have hequal : (stored.classification? classification.name).any (·.equal classification) =
        !classification.properties.haveNaN := by
      rw [hcarries, Option.any_some, Classification.equal_self]
    constructor
    · intro hnumbers
      rw [hnumbers] at hequal
      exact execute_of_nothing (planSaveClassification_eq_ok_iff.mpr
        ⟨hadmits', .converged hstored hlive' hcheck' hequal⟩)
    · intro hnan
      rw [hnan] at hequal
      have hheader : (stored.withClassification classification).header = stored.header := rfl
      have hagain : next.plan repeated refreshed (.saveClassification incoming classification) =
          next.planLabelled repeated stored (stored.withClassification classification) :=
        planSaveClassification_eq_planLabelled hadmits' hstored hlive' hcheck' hequal
      refine ⟨stored, hlatest, ?_⟩
      split
      · rename_i hleft
        obtain ⟨store, hexecute, -⟩ :=
          execute_of_planLabelled (hguid ▸ hlatest) hlive' hheader hleft hagain
        exact ⟨_, hexecute⟩
      · rename_i hfull
        exact (failed_of_plan (hagain.trans (planLabelled_eq_overflow hlive' hheader hfull))).1

/-! ## Taking a copy away -/

/-- There is no live entity in full to take a classification of a name away from. -/
def NothingToPurge (collection : Collection) (guid : Guid) (name : TypeName) : Prop :=
  ∀ current, collection.store.latest guid = some (.entity current) →
    current.isClassifiedAs name = false ∨ current.header.isDeleted

theorem nothingToPurge_of_unchanged
    (h : collection.planPurgeClassification call incoming classification =
      .ok (.nothing (.copied .unchanged))) :
    collection.NothingToPurge incoming.header.guid classification.name := by
  intro current hlatest
  have hfind : collection.find Entity incoming.header.guid .now = .found current :=
    (lookup_eq_found_iff _ current).mpr hlatest
  simp only [planPurgeClassification, Outcome.bind_eq_ok_iff, hfind, Lookup.found?] at h
  obtain ⟨⟨⟩, -, ⟨⟩, -, ⟨⟩, -, h⟩ := h
  split at h
  · rename_i hgone
    simpa using hgone
  · obtain ⟨guard, hplan⟩ := planLabelled_eq_ok h rfl
    cases hplan

/-- A call that has been admitted before changes nothing if there is nothing to take away. -/
theorem planPurgeClassification_of_nothing
    (hadmitted : collection.planPurgeClassification call incoming classification = .ok plan)
    (huser : repeated.user = call.user)
    (hnothing : next.NothingToPurge incoming.header.guid classification.name) :
    next.planPurgeClassification repeated incoming classification =
      .ok (.nothing (.copied .unchanged)) := by
  simp only [planPurgeClassification, Outcome.bind_eq_ok_iff] at hadmitted
  obtain ⟨⟨⟩, hvalid, ⟨⟩, hguid, ⟨⟩, hname, -⟩ := hadmitted
  simp only [planPurgeClassification, Outcome.bind_eq_ok_iff, huser]
  refine ⟨(), hvalid, (), hguid, (), hname, ?_⟩
  cases hfound : (next.find Entity incoming.header.guid .now).found? with
  | none => rfl
  | some current =>
    have hgone := hnothing current (latest_of_found? hfound)
    exact if_pos (by simpa using hgone)

/-- A copy that has been taken away is gone the second time. -/
theorem repeat_purgeClassification (hcoherent : collection.store.Coherent)
    (h : collection.execute call fresh (.purgeClassification incoming classification) =
      .ok (next, reply))
    (huser : repeated.user = call.user) (refreshed : Guid) :
    next.execute repeated refreshed (.purgeClassification incoming classification) =
      .ok (next, .copied .unchanged) := by
  obtain ⟨plan, hplan, hcommit⟩ := execute_eq_ok_iff.mp h
  refine execute_of_nothing (planPurgeClassification_of_nothing hplan huser ?_)
  obtain rfl | ⟨purged, guard, -, rfl⟩ := planPurgeClassification_eq_ok hplan
  · rw [commit_of_nil rfl] at hcommit
    cases hcommit
    exact nothingToPurge_of_unchanged hplan
  · obtain ⟨rfl, -⟩ | ⟨-, current, -, hnext⟩ := latest_of_purgeClassification hcoherent h
    · cases reply_of_commit hcommit
    · -- the entity is stored without the classification
      intro stored hstored
      rw [hnext, Function.update_self] at hstored
      cases hstored
      left
      rw [Entity.isClassifiedAs, classifications_relabelled, Entity.withoutClassification,
        NameMap.contains, NameMap.get?_erase, if_pos rfl]
      rfl

/-! ## Convergence -/

/-- A classification copy that is saved or taken away by an accepted call is admitted when the call
is repeated. The second call changes nothing, neither versions nor the clock, if and only if the
first one has changed nothing or the copy that it has saved holds no NaN. It is never refused, and
cut off at most when the collection owns the entity and has it at the last version. -/
theorem repeat_classificationCopy_iff (hreachable : collection.Reachable)
    (hcopy : operation.IsClassificationCopy)
    (h : collection.execute call fresh operation = .ok (next, reply))
    (huser : repeated.user = call.user) (refreshed : Guid) :
    (next.execute repeated refreshed operation = .ok (next, .copied .unchanged) ↔
        reply = .copied .unchanged ∨ ¬operation.SavesNaN) ∧
      ((∃ later outcome,
          next.execute repeated refreshed operation = .ok (later, .copied outcome)) ∨
        next.execute repeated refreshed operation = .error .overflow ∧
          ∃ guid entity, operation.BringsEntity guid ∧
            next.store.latest guid = some (.entity entity) ∧ ¬next.CanRelabel entity) := by
  have hcoherent := hreachable.store.coherent
  cases operation with
  | saveClassification incoming classification =>
    obtain ⟨-, ⟨rfl, -⟩ | ⟨rfl, -⟩⟩ := latest_of_saveClassification hcoherent h
    · have hagain := repeat_saveClassification_unchanged h huser refreshed
      exact ⟨iff_of_true hagain (.inl rfl), .inl ⟨next, .unchanged, hagain⟩⟩
    · obtain ⟨hnumbers, hnan⟩ := repeat_saveClassification_applied hcoherent h huser refreshed
      cases hholds : classification.properties.haveNaN with
      | false =>
        have hagain := hnumbers hholds
        exact ⟨iff_of_true hagain (.inr (by simp [Operation.SavesNaN, hholds])),
          .inl ⟨next, .unchanged, hagain⟩⟩
      | true =>
        obtain ⟨stored, hlatest, hagain⟩ := hnan hholds
        have hsaves : ¬(Reply.copied .applied = .copied .unchanged ∨
            ¬(Operation.saveClassification incoming classification).SavesNaN) := by
          simp [Operation.SavesNaN, hholds]
        split at hagain
        · obtain ⟨later, hagain⟩ := hagain
          refine ⟨iff_of_false ?_ hsaves, .inl ⟨later, .applied, hagain⟩⟩
          rw [hagain]
          rintro ⟨⟩
        · rename_i hfull
          refine ⟨iff_of_false ?_ hsaves, .inr ⟨hagain, _, stored, rfl, hlatest, hfull⟩⟩
          rw [hagain]
          rintro ⟨⟩
  | purgeClassification incoming classification =>
    have hagain := repeat_purgeClassification hcoherent h huser refreshed
    exact ⟨iff_of_true hagain (.inr not_false), .inl ⟨next, .unchanged, hagain⟩⟩
  | _ => exact hcopy.elim

/-- The call that saves the copy of a classification with a score on an entity. -/
private def measure (score : Binary64) : Operation :=
  let stamp : Stamp := ⟨"bob", .earliest⟩
  .saveClassification (.new (Header.new "asset" ⟨"Asset", []⟩ "remote" stamp) ∅ [])
    { Classification.new "Measured" "remote" stamp with
      properties := .ofList [("score", .float score)] }

/-- A collection that owns one entity, and a type of classifications with a score. -/
private def scored : Collection :=
  run ⟨default, ∅, .empty⟩
    [.addType ⟨"Asset", .entity, none, [], [], [], none, []⟩,
      .addType ⟨"Measured", .classification, none, ["score"], [], [], none, []⟩,
      .operate ⟨"ada", .earliest⟩ "asset" (.addEntity ⟨"Asset", ∅, [], .active, none⟩)]

private theorem reachable_scored : scored.Reachable := (Reachable.start _ _).run _

/-- The score of zero is saved once, and a second call changes nothing. -/
theorem repeat_classificationCopy_measured :
    ∃ measured, scored.execute ⟨"ada", .earliest⟩ "" (measure ⟨0⟩) =
        .ok (measured, .copied .applied) ∧
      measured.execute ⟨"ada", .latest⟩ "" (measure ⟨0⟩) = .ok (measured, .copied .unchanged) := by
  obtain ⟨measured, hmeasured⟩ : ∃ measured, scored.execute ⟨"ada", .earliest⟩ "" (measure ⟨0⟩) =
      .ok (measured, .copied .applied) := ⟨_, rfl⟩
  have hcopy : (measure ⟨0⟩).IsClassificationCopy := trivial
  have hnumbers : ¬(measure ⟨0⟩).SavesNaN := Bool.false_ne_true
  have huser : (⟨"ada", .latest⟩ : Call).user = "ada" := rfl
  exact ⟨measured, hmeasured, (repeat_classificationCopy_iff reachable_scored hcopy hmeasured
    huser "").1.mpr (.inr hnumbers)⟩

/-- A score that is not a number is saved once more by the second call, as the third version. -/
theorem restless_measured :
    ∃ measured next, scored.Reachable ∧
      scored.execute ⟨"ada", .earliest⟩ "" (measure ⟨0x7FF8000000000000⟩) =
        .ok (measured, .copied .applied) ∧
      (measured.store.latest "asset").map (·.header.version) = some 2 ∧
      measured.execute ⟨"ada", .earliest⟩ "" (measure ⟨0x7FF8000000000000⟩) =
        .ok (next, .copied .applied) ∧
      (next.store.latest "asset").map (·.header.version) = some 3 :=
  ⟨_, _, reachable_scored, rfl, rfl, rfl, rfl⟩

end Collection

end MetadataGraph

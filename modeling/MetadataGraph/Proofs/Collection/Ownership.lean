import MetadataGraph.Proofs.Collection.CutOff

/-!
# Ownership

What a collection owns no copy from another collection should replace. The check for this sees only
what is stored of the kind of the copy, and for a classification it does not look at the one that
is replaced or taken away. We prove:

* `owned_kept_iff`: what the collection owns is kept, and the copy of an instance with its identity
  refused, if and only if no instance of the other kind comes under this identity;
* `lostInstance_link`: an entity that comes under the identity of a relationship replaces it;
* `classification_kept_iff`: a classification that the collection owns is kept exactly if no copy
  of its name is put on the entity or taken away from it;
* `lostClassification_reviewed`: such a copy replaces the classification or takes it away.
-/

namespace MetadataGraph

open Element Instance

/-! ## Owned instances -/

/-- The record is an entity in full or a relationship, and a collection owns it. -/
def Record.IsOwnedBy (record : Record) (owner : CollectionId) : Prop :=
  record.kind ≠ .proxy ∧ record.header.isHomedIn owner

/-- The operation saves the copy of an instance or of a classification. -/
def Operation.SavesCopy : Operation → Prop
  | saveEntity _ | saveRelationship _ | saveClassification _ _ => True
  | _ => False

/-- The identity of the instance of which an operation saves the copy. -/
def Operation.copyGuid? : Operation → Option Guid
  | saveEntity entity => some entity.header.guid
  | saveRelationship relationship => some relationship.header.guid
  | _ => none

/-- A record is stored as it was before an operation, or with the classification of which the
operation saves the copy, as the next version of the entity. -/
inductive Record.KeptBy (operation : Operation) (stamp : Stamp) : Record → Record → Prop
  | same (record : Record) : KeptBy operation stamp record record
  | classified (incoming entity : Entity) (copy : Classification)
      (hoperation : operation = .saveClassification incoming copy)
      (hguid : incoming.header.guid = entity.header.guid) :
      KeptBy operation stamp (.entity entity)
        (.entity { entity.withClassification copy with header := entity.header.next stamp })

/-- What is kept is of the same kind. -/
theorem Record.KeptBy.isEntityLike_eq {operation : Operation} {stamp : Stamp}
    {record kept : Record} (h : record.KeptBy operation stamp kept) :
    kept.isEntityLike = record.isEntityLike := by
  cases h <;> rfl

namespace Collection

variable {collection next : Collection} {call : Call} {fresh guid : Guid} {operation : Operation}
  {reply : Reply} {record : Record}

/-- The copy of an instance with the identity of what the collection owns is accepted only if it is
of the other kind. -/
theorem crossesAt_of_copyGuid? (hcopy : operation.copyGuid? = some guid)
    (hlatest : collection.store.latest guid = some record)
    (howned : record.IsOwnedBy collection.id)
    (hexecute : collection.execute call fresh operation = .ok (next, reply)) :
    collection.CrossesAt (.operate call fresh operation) guid := by
  obtain ⟨hfull, hhome⟩ := howned
  cases operation with
  | saveEntity entity =>
    cases hcopy
    obtain ⟨rfl, -, hforeign⟩ := latest_of_saveEntity hexecute
    cases record with
    -- only an entity has been looked at
    | entity stored => exact absurd hhome (Bool.eq_false_iff.mp (hforeign stored hlatest))
    | proxy => exact absurd rfl hfull
    | relationship => exact crossesAt_of_entity hexecute (by simp) hlatest rfl rfl
  | saveRelationship relationship =>
    cases hcopy
    obtain ⟨rfl, hsaved⟩ := latest_of_saveRelationship hexecute
    cases record with
    | relationship stored =>
      exact absurd hhome (Bool.eq_false_iff.mp (hsaved.foreign stored hlatest))
    | proxy => exact absurd rfl hfull
    | entity => exact crossesAt_of_relationship hexecute (by simp) hlatest rfl rfl
  | _ => cases hcopy

/-- An accepted call that saves a copy keeps what the collection owns, unless an instance of the
other kind comes under its identity. -/
theorem kept_of_execute (hcoherent : collection.store.Coherent) (hsave : operation.SavesCopy)
    (hlatest : collection.store.latest guid = some record)
    (howned : record.IsOwnedBy collection.id)
    (hexecute : collection.execute call fresh operation = .ok (next, reply))
    (hcross : ¬collection.CrossesAt (.operate call fresh operation) guid) :
    ∃ kept, next.store.latest guid = some kept ∧ record.KeptBy operation call.stamp kept := by
  have hsame (h : next.store.latest guid = collection.store.latest guid) :
      ∃ kept, next.store.latest guid = some kept ∧ record.KeptBy operation call.stamp kept :=
    ⟨record, h.trans hlatest, .same record⟩
  have hother (hcopy : operation.copyGuid? = some guid) : False :=
    hcross (crossesAt_of_copyGuid? hcopy hlatest howned hexecute)
  cases operation with
  | saveEntity entity =>
    obtain ⟨-, hnext, -⟩ := latest_of_saveEntity hexecute
    by_cases hguid : entity.header.guid = guid
    · exact (hother (congrArg some hguid)).elim
    · exact hsame (by rw [hnext, Function.update_of_ne (Ne.symm hguid)])
  | saveRelationship relationship =>
    obtain ⟨rfl, hsaved⟩ := latest_of_saveRelationship hexecute
    by_cases hguid : relationship.header.guid = guid
    · exact (hother (congrArg some hguid)).elim
    by_cases hneeds : collection.NeedsProxy relationship guid
    · -- the end needs a proxy only if no entity in full is stored there
      obtain ⟨hreferences, hnone⟩ := hneeds
      cases record with
      | entity stored => exact absurd hlatest (hnone stored)
      | proxy => exact absurd rfl howned.1
      | relationship =>
        have hbrings : (Operation.saveRelationship relationship).BringsEntity guid :=
          ⟨hguid, hreferences⟩
        exact absurd (crossesAt_of_entity hexecute (by simp) hlatest rfl hbrings) hcross
    · exact hsame (hsaved.others guid hguid hneeds)
  | saveClassification incoming copy =>
    obtain ⟨-, ⟨rfl, hnext⟩ | ⟨rfl, current, hlabelled, hnext⟩⟩ :=
      latest_of_saveClassification hcoherent hexecute
    · exact hsame (congrFun hnext guid)
    by_cases hguid : incoming.header.guid = guid
    · subst hguid
      cases record with
      | entity stored =>
        -- the collection owns the entity, so that its next version is written
        cases (labelled?_of_latest hlatest).symm.trans hlabelled
        have hrelabelled : collection.relabelled call current (current.withClassification copy) =
            { current.withClassification copy with header := current.header.next call.stamp } :=
          if_pos howned.2
        rw [hrelabelled] at hnext
        refine ⟨_, by rw [hnext, Function.update_self], ?_⟩
        exact .classified incoming current copy rfl (hcoherent.guid_of_read hlatest).symm
      | proxy => exact absurd rfl howned.1
      | relationship =>
        exact absurd (crossesAt_of_entity hexecute (by simp) hlatest rfl rfl) hcross
    · exact hsame (by rw [hnext, Function.update_of_ne (Ne.symm hguid)])
  | _ => exact hsave.elim

/-- The copy of an instance is saved or refused. -/
theorem answers_of_copyGuid? (hcopy : operation.copyGuid? = some guid) :
    (collection.execute call fresh operation).Answers := by
  refine answers_execute ?_
  cases operation with
  | saveEntity entity => simp [Collection.plan, planSaveEntity]
  | saveRelationship relationship => simp [Collection.plan, planSaveRelationship]
  | _ => cases hcopy

/-- A call that saves a copy keeps what the collection owns if and only if no instance of the other
kind comes under its identity, and under the same condition the copy of an instance with this
identity is refused and changes nothing. -/
theorem owned_kept_iff (hreachable : collection.Reachable) (hsave : operation.SavesCopy)
    (hlatest : collection.store.latest guid = some record)
    (howned : record.IsOwnedBy collection.id) :
    let event : Event := .operate call fresh operation
    ((∃ kept, (collection.after event).store.latest guid = some kept ∧
        record.KeptBy operation call.stamp kept) ↔ ¬collection.CrossesAt event guid) ∧
      (operation.copyGuid? = some guid →
        ((∃ error, collection.execute call fresh operation = .error (.refused error) ∧
          collection.after event = collection) ↔ ¬collection.CrossesAt event guid)) := by
  intro event
  have hcoherent := hreachable.store.coherent
  refine ⟨⟨?_, fun hcross => ?_⟩, fun hcopy => ⟨?_, fun hcross => ?_⟩⟩
  · -- what crosses is of another kind afterwards, what is kept is not
    rintro ⟨kept, hkept, hkeeps⟩ hcross
    obtain ⟨stored, new, hstored, hnew, hne⟩ := hcross.exists_latest hcoherent
    cases hlatest.symm.trans hstored
    cases hkept.symm.trans hnew
    exact hne hkeeps.isEntityLike_eq
  · cases hexecute : collection.execute call fresh operation with
    | error failure => exact ⟨record, by rwa [after_eq_of_error hexecute], .same record⟩
    | ok result =>
      obtain ⟨next, reply⟩ := result
      rw [after_eq_of_ok hexecute]
      exact kept_of_execute hcoherent hsave hlatest howned hexecute hcross
  · rintro ⟨error, herror, -⟩ ⟨_, _, _, next, reply, _, hevent, haccepted, -⟩
    obtain ⟨rfl, rfl, rfl⟩ := Event.operate.inj hevent
    cases herror.symm.trans haccepted
  · cases hexecute : collection.execute call fresh operation with
    | error failure =>
      obtain ⟨error, hrefused⟩ := (answers_of_copyGuid? hcopy).exists_refused hexecute
      exact ⟨error, hexecute ▸ hrefused, after_eq_of_error hexecute⟩
    | ok result =>
      obtain ⟨next, reply⟩ := result
      exact absurd (crossesAt_of_copyGuid? hcopy hlatest howned hexecute) hcross

/-- An entity that another collection owns. -/
private def remoteAsset (guid : Guid) : Entity :=
  .new (Header.new guid ⟨"Asset", []⟩ "remote" ⟨"bob", .earliest⟩) ∅ []

/-- A classification that another collection owns. -/
private def remoteLabel (name : TypeName) : Classification := .new name "remote" ⟨"bob", .earliest⟩

/-- A collection that owns two entities, of which one is classified, and a relationship between
them. -/
private def owner : Collection :=
  let call : Call := ⟨"ada", .earliest⟩
  run ⟨default, ∅, .empty⟩
    [.addType ⟨"Asset", .entity, none, [], [], [], none, []⟩,
      .addType ⟨"Link", .relationship, none, [], [], [], none, []⟩,
      .addType ⟨"Certified", .classification, none, [], [], [], none, []⟩,
      .addType ⟨"Reviewed", .classification, none, [], [], [], none, []⟩,
      .operate call "asset" (.addEntity ⟨"Asset", ∅, [], .active, none⟩),
      .operate call "other" (.addEntity ⟨"Asset", ∅, [], .active, none⟩),
      .operate call "link" (.addRelationship ⟨"Link", ∅, "asset", "other", .active, none⟩),
      .operate call "" (.classify "asset" "Reviewed" none .assigned ∅)]

private theorem reachable_owner : owner.Reachable := (Reachable.start _ _).run _

/-- The copy of a classification goes on the entity, which has one more version then, and the copy
of an entity with the same identity is refused. -/
theorem owned_kept_asset :
    let call : Call := ⟨"ada", .earliest⟩
    let label : Operation := .saveClassification (remoteAsset "asset") (remoteLabel "Certified")
    let copy : Operation := .saveEntity (remoteAsset "asset")
    (∃ kept, (owner.after (.operate call "" label)).store.latest "asset" = some kept ∧
      kept.header.version = 3) ∧
    ∃ error, owner.execute call "" copy = .error (.refused error) ∧
      owner.after (.operate call "" copy) = owner := by
  intro call label copy
  obtain ⟨asset, hasset⟩ : ∃ asset, owner.store.latest "asset" = some (.entity asset) := ⟨_, rfl⟩
  have howned : (Record.entity asset).IsOwnedBy owner.id := by
    cases hasset
    exact ⟨by decide, by decide⟩
  have hcross (operation : Operation) (hbrings : ¬operation.BringsRelationship "asset") :
      ¬owner.CrossesAt (.operate call "" operation) "asset" := by
    rintro ⟨_, _, _, _, _, stored, hevent, -, -, hstored, hcomes⟩
    cases hevent
    cases hasset.symm.trans hstored
    exact hbrings hcomes
  have hlabel : label.SavesCopy := trivial
  have hcopy : copy.SavesCopy := trivial
  constructor
  · obtain ⟨kept, hkept, -⟩ :=
      (owned_kept_iff reachable_owner hlabel hasset howned).1.mpr (hcross label not_false)
    have hversion : ((owner.after (.operate call "" label)).store.latest "asset").map
        (·.header.version) = some 3 := by decide
    rw [hkept] at hversion
    exact ⟨kept, hkept, Option.some.inj hversion⟩
  · exact ((owned_kept_iff reachable_owner hcopy hasset howned).2 rfl).mpr (hcross copy not_false)

/-- An entity that comes under the identity of the relationship replaces it, although the collection
owns the relationship. -/
theorem lostInstance_link :
    let copy : Operation := .saveEntity (remoteAsset "link")
    (∃ link, owner.store.latest "link" = some (.relationship link) ∧
      (Record.relationship link).IsOwnedBy owner.id) ∧
    (∃ next reply, owner.execute ⟨"ada", .earliest⟩ "" copy = .ok (next, reply) ∧
      next.store.latest "link" = some (.entity (remoteAsset "link"))) := by
  refine ⟨⟨_, rfl, by decide, by decide⟩, ?_⟩
  obtain ⟨next, reply, hexecute⟩ : ∃ next reply, owner.execute ⟨"ada", .earliest⟩ ""
      (.saveEntity (remoteAsset "link")) = .ok (next, reply) := ⟨_, _, rfl⟩
  obtain ⟨-, hnext, -⟩ := latest_of_saveEntity hexecute
  exact ⟨next, reply, hexecute, by rw [hnext]; rfl⟩

/-! ## Owned classifications -/

/-- The call of an operation with the copy of a classification changes nothing, or leaves on the
entity its other classifications and none of the collection's own under the name of the copy. -/
theorem latest_of_classificationCopy (hcoherent : collection.store.Coherent) {incoming : Entity}
    {copy : Classification}
    (hoperation : operation = .saveClassification incoming copy ∨
      operation = .purgeClassification incoming copy)
    (hexecute : collection.execute call fresh operation = .ok (next, reply)) :
    reply = .copied .unchanged ∧ next.store.latest = collection.store.latest ∨
      reply = .copied .applied ∧ ∃ labelled,
        next.store.latest = Function.update collection.store.latest incoming.header.guid
          (some (.entity labelled)) ∧
        (∀ classification, labelled.classification? copy.name = some classification →
          classification.home ≠ collection.id) ∧
        ∀ entity, collection.store.latest incoming.header.guid = some (.entity entity) →
          ∀ name, copy.name ≠ name →
            labelled.classification? name = entity.classification? name := by
  rcases hoperation with rfl | rfl
  · obtain ⟨hhome, hunchanged | ⟨hreply, current, hlabelled, hnext⟩⟩ :=
      latest_of_saveClassification hcoherent hexecute
    · exact Or.inl hunchanged
    · refine Or.inr ⟨hreply, _, hnext, fun classification hcarried => ?_,
        fun entity hlatest name hname => ?_⟩
      · simp only [Entity.classification?, classifications_relabelled, Entity.withClassification,
          NameMap.get?_insert, if_true] at hcarried
        cases hcarried
        exact hhome
      · cases (labelled?_of_latest hlatest).symm.trans hlabelled
        simp [Entity.classification?, Entity.withClassification, hname]
  · obtain hunchanged | ⟨hreply, current, hstored, hnext⟩ :=
      latest_of_purgeClassification hcoherent hexecute
    · exact Or.inl hunchanged
    · refine Or.inr ⟨hreply, _, hnext, fun classification hcarried => ?_,
        fun entity hlatest name hname => ?_⟩
      · simp [Entity.classification?, Entity.withoutClassification] at hcarried
      · cases hstored.symm.trans hlatest
        simp [Entity.classification?, Entity.withoutClassification, hname]

/-- A classification that the collection owns is kept as it is if and only if no copy of its name is
put on its entity or taken away from it. -/
theorem classification_kept_iff (hreachable : collection.Reachable) {incoming entity : Entity}
    {copy classification : Classification} {name : TypeName}
    (hoperation : operation = .saveClassification incoming copy ∨
      operation = .purgeClassification incoming copy)
    (hlatest : collection.store.latest guid = some (.entity entity))
    (hcarried : entity.classification? name = some classification)
    (howned : classification.home = collection.id) :
    (∃ kept, (collection.after (.operate call fresh operation)).store.latest guid =
        some (.entity kept) ∧ kept.classification? name = some classification) ↔
      ¬(incoming.header.guid = guid ∧ copy.name = name ∧
        ∃ next, collection.execute call fresh operation = .ok (next, .copied .applied)) := by
  cases hexecute : collection.execute call fresh operation with
  | error failure =>
    rw [after_eq_of_error hexecute]
    exact iff_of_true ⟨entity, hlatest, hcarried⟩ (by simp)
  | ok result =>
    obtain ⟨next, reply⟩ := result
    rw [after_eq_of_ok hexecute]
    obtain ⟨rfl, hnext⟩ | ⟨rfl, labelled, hnext, hforeign, hothers⟩ :=
      latest_of_classificationCopy hreachable.store.coherent hoperation hexecute
    · exact iff_of_true ⟨entity, by rw [hnext, hlatest], hcarried⟩ (by simp)
    by_cases hguid : incoming.header.guid = guid
    · subst hguid
      rw [hnext, Function.update_self]
      by_cases hname : copy.name = name
      · -- what the entity carries under this name now is not the collection's own
        subst hname
        refine iff_of_false ?_ (by simp)
        rintro ⟨kept, hkept, hstill⟩
        cases hkept
        exact hforeign classification hstill howned
      · have hstill := (hothers entity hlatest name hname).trans hcarried
        exact iff_of_true ⟨labelled, rfl, hstill⟩ (by simp [hname])
    · rw [hnext, Function.update_of_ne (Ne.symm hguid)]
      exact iff_of_true ⟨entity, hlatest, hcarried⟩ (by simp [hguid])

/-- The copy of another classification leaves the one that the collection owns. -/
theorem classification_kept_reviewed :
    let label : Operation := .saveClassification (remoteAsset "asset") (remoteLabel "Certified")
    ∃ kept classification,
      (owner.after (.operate ⟨"ada", .earliest⟩ "" label)).store.latest "asset" =
        some (.entity kept) ∧ kept.classification? "Reviewed" = some classification ∧
          classification.home = owner.id := by
  obtain ⟨asset, reviewed, hasset, hreviewed, hhome⟩ : ∃ asset reviewed,
      owner.store.latest "asset" = some (.entity asset) ∧
        asset.classification? "Reviewed" = some reviewed ∧ reviewed.home = owner.id :=
    ⟨_, _, rfl, rfl, rfl⟩
  have hother : (remoteLabel "Certified").name ≠ "Reviewed" := by decide
  obtain ⟨kept, hkept, hcarried⟩ :=
    (classification_kept_iff reachable_owner (Or.inl rfl) hasset hreviewed hhome).mpr
      fun happlied => hother happlied.2.1
  exact ⟨kept, reviewed, hkept, hcarried, hhome⟩

/-- The copy of a classification of the same name replaces the one that the collection owns when it
is put on the entity, and takes it away when it is taken away itself. -/
theorem lostClassification_reviewed :
    let carried (collection : Collection) : Option Classification :=
      (collection.store.latest "asset").bind fun record =>
        record.entity?.bind (·.classification? "Reviewed")
    let call : Call := ⟨"ada", .earliest⟩
    let copy := remoteLabel "Reviewed"
    (∃ classification, carried owner = some classification ∧ classification.home = owner.id) ∧
      copy.home ≠ owner.id ∧
      carried (owner.after (.operate call "" (.saveClassification (remoteAsset "asset") copy))) =
        some copy ∧
      carried (owner.after (.operate call "" (.purgeClassification (remoteAsset "asset") copy))) =
        none := by
  intro carried call copy
  exact ⟨⟨_, rfl, rfl⟩, by decide, by decide, by decide⟩

end Collection

end MetadataGraph

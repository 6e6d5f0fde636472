import MetadataGraph.Proofs.Collection.Planned

/-!
# What copies write

A copy comes from another collection under an identity that was given there. Entities, proxies and
relationships share one space of identities, but the checks before a copy is saved see only what is
stored of its own kind. We prove:

* `planSaveEntity_eq_ok` and its siblings: what the plan of a copy writes, and what it has checked;
* `latest_of_saveEntity` and its siblings: what is stored after an accepted call;
* `CrossesAt.exists_latest`: an entity replaces a relationship, or the other way round, where an
  accepted call comes with one for the identity of the other.
-/

namespace MetadataGraph

open Element Instance

/-- The operation comes with an entity for an identity, in full or by proxy. -/
def Operation.BringsEntity (guid : Guid) : Operation → Prop
  | addProxy proxy => proxy.header.guid = guid
  | saveEntity entity | saveClassification entity _ => entity.header.guid = guid
  | saveRelationship relationship => relationship.header.guid ≠ guid ∧ relationship.references guid
  | _ => False

/-- The operation comes with a relationship for an identity. -/
def Operation.BringsRelationship (guid : Guid) : Operation → Prop
  | saveRelationship relationship => relationship.header.guid = guid
  | _ => False

namespace Collection

variable {collection next : Collection} {call : Call} {fresh guid : Guid} {plan : Plan}
  {operation : Operation} {reply : Reply}

/-! ## Copies of instances -/

/-- An element that is stored where the check for foreign instances passes is not the
collection's own. -/
theorem not_isHomedIn_of_requireForeign {α : Type} [Element α] {stored : α}
    (h : collection.requireForeign guid ((collection.find α guid .now).found?.map header) = .ok ())
    (hlatest : collection.store.latest guid = some (toRecord stored)) :
    (header stored).isHomedIn collection.id = false := by
  have hfind : collection.find α guid .now = .found stored :=
    (lookup_eq_found_iff _ stored).mpr hlatest
  rw [hfind, requireForeign, Outcome.require_eq_ok_iff] at h
  simpa [Lookup.found?] using h

/-- The copy of an entity is written over whatever is stored, but no entity of the collection's own
is stored there. -/
theorem planSaveEntity_eq_ok {entity : Entity}
    (h : collection.planSaveEntity call entity = .ok plan) :
    plan = ⟨[.overwrite (.entity entity)], .done⟩ ∧
      ∀ stored : Entity, collection.store.latest entity.header.guid = some (.entity stored) →
        stored.header.isHomedIn collection.id = false := by
  simp only [planSaveEntity, Outcome.bind_eq_ok_iff, Outcome.pure_eq_ok_iff] at h
  obtain ⟨⟨⟩, -, ⟨⟩, -, type, -, ⟨⟩, hforeign, rfl⟩ := h
  exact ⟨rfl, fun stored hlatest => not_isHomedIn_of_requireForeign hforeign hlatest⟩

/-- The copy of a relationship is written over whatever is stored, after the proxies that its ends
need, but no relationship of the collection's own is stored there. -/
theorem planSaveRelationship_eq_ok {relationship : Relationship}
    (h : collection.planSaveRelationship call relationship = .ok plan) :
    plan = ⟨(collection.missingEnds relationship.endOne relationship.endTwo).map .putProxy ++
        [.overwrite (.relationship relationship)], .done⟩ ∧
      ∀ stored : Relationship,
        collection.store.latest relationship.header.guid = some (.relationship stored) →
          stored.header.isHomedIn collection.id = false := by
  simp only [planSaveRelationship, Outcome.bind_eq_ok_iff, Outcome.pure_eq_ok_iff] at h
  obtain ⟨⟨⟩, -, ⟨⟩, -, ⟨⟩, -, ⟨⟩, -, type, -, ⟨⟩, hforeign, rfl⟩ := h
  exact ⟨rfl, fun stored hlatest => not_isHomedIn_of_requireForeign hforeign hlatest⟩

/-- An entity is found where it is stored in full. -/
theorem isFound_find_iff :
    (collection.find Entity guid .now).isFound ↔
      ∃ entity, collection.store.latest guid = some (.entity entity) := by
  unfold find
  rw [← Store.latest]
  rcases collection.store.latest guid with _ | _ | _ | _ <;>
    simp [lookup, Lookup.ofEntityRecord, Lookup.isFound]

/-- A proxy must be stored with a relationship at an end where no entity is stored in full. -/
def NeedsProxy (collection : Collection) (relationship : Relationship) (guid : Guid) : Prop :=
  relationship.references guid ∧ ∀ entity, collection.store.latest guid ≠ some (.entity entity)

/-- The proxies that are stored with a relationship are at the ends that need one. -/
theorem exists_mem_missingEnds_iff {relationship : Relationship} :
    (∃ proxy ∈ collection.missingEnds relationship.endOne relationship.endTwo,
      proxy.header.guid = guid) ↔ collection.NeedsProxy relationship guid := by
  -- equal proxies have one identity, so that it makes no difference if one of them is left out
  have hmissing : (∃ proxy ∈ collection.missingEnds relationship.endOne relationship.endTwo,
      proxy.header.guid = guid) ↔
      ∃ proxy ∈ [relationship.endOne, relationship.endTwo].filter fun proxy =>
        !(collection.find Entity proxy.header.guid .now).isFound, proxy.header.guid = guid := by
    unfold missingEnds
    dsimp only
    generalize List.filter _ [relationship.endOne, relationship.endTwo] = missing
    split
    · rename_i one two
      split
      · rename_i hequal
        simp only [Proxy.equal, Bool.and_eq_true, decide_eq_true_eq] at hequal
        simp [hequal.1]
      · rfl
    · rfl
  have hreferences : relationship.references guid ↔
      ∃ proxy ∈ [relationship.endOne, relationship.endTwo], proxy.header.guid = guid := by
    simp [Relationship.references]
  rw [hmissing, NeedsProxy, hreferences]
  simp only [List.mem_filter, Bool.not_eq_true', ← Bool.not_eq_true, isFound_find_iff, not_exists]
  constructor
  · rintro ⟨proxy, ⟨hend, hnone⟩, rfl⟩
    exact ⟨⟨proxy, hend, rfl⟩, hnone⟩
  · rintro ⟨⟨proxy, hend, rfl⟩, hnone⟩
    exact ⟨proxy, ⟨hend, hnone⟩, rfl⟩

/-- A proxy is written unless its entity is stored in full. -/
theorem planAddProxy_eq_ok {proxy : Proxy} (h : collection.planAddProxy call proxy = .ok plan) :
    plan = ⟨[.putProxy proxy], .done⟩ ∨
      plan = .nothing .done ∧
        ∃ entity, collection.store.latest proxy.header.guid = some (.entity entity) := by
  simp only [planAddProxy, Outcome.bind_eq_ok_iff] at h
  obtain ⟨⟨⟩, -, ⟨⟩, -, type, -, h⟩ := h
  split at h
  · rename_i hfound
    exact Or.inr ⟨(Outcome.pure_eq_ok_iff.mp h).symm, isFound_find_iff.mp hfound⟩
  · exact Or.inl (Outcome.pure_eq_ok_iff.mp h).symm

/-! ## Copies of classifications -/

/-- An entity with changed classifications as it is written: the next version of one that the
collection owns, any other as it is. -/
def relabelled (collection : Collection) (call : Call) (current labelled : Entity) : Entity :=
  if current.header.isHomedIn collection.id then
    { labelled with header := current.header.next call.stamp }
  else labelled

/-- Which classifications an entity has does not depend on its version. -/
@[simp]
theorem classifications_relabelled (current labelled : Entity) :
    (collection.relabelled call current labelled).classifications = labelled.classifications := by
  unfold relabelled
  split <;> rfl

/-- The entity keeps its identity. -/
theorem guid_relabelled (current labelled : Entity) (hheader : labelled.header = current.header) :
    (collection.relabelled call current labelled).header.guid = current.header.guid := by
  unfold relabelled
  split
  · rfl
  · rw [hheader]

/-- The classifications of an entity can be changed: if the collection owns it, the next version is
written, and there is one. -/
def CanRelabel (collection : Collection) (entity : Entity) : Prop :=
  entity.header.isHomedIn collection.id → entity.header.version ≠ lastVersion

instance (entity : Entity) : Decidable (collection.CanRelabel entity) :=
  inferInstanceAs (Decidable (_ → _))

/-- An entity with changed classifications is put in one statement. -/
theorem planLabelled_eq_ok {current labelled : Entity}
    (h : collection.planLabelled call current labelled = .ok plan)
    (hheader : labelled.header = current.header) :
    ∃ guard, plan =
      ⟨[.put (.entity (collection.relabelled call current labelled)) guard], .copied .applied⟩ := by
  unfold planLabelled at h
  unfold relabelled
  split at h
  · rename_i hlocal
    simp only [Outcome.bind_eq_ok_iff, Outcome.pure_eq_ok_iff, Versioning.update_eq_ok_iff,
      Versioning.nextVersion_eq_ok_iff] at h
    obtain ⟨next, ⟨-, -, -, rfl⟩, rfl⟩ := h
    rw [if_pos hlocal]
    refine ⟨.version current.header.version, ?_⟩
    -- the version that the next one is counted from is the one that the entity has already
    have hnext : setHeader labelled ({ header labelled with version := version current }.next
        call.stamp) = { labelled with header := current.header.next call.stamp } := by
      change ({ labelled with header := _ } : Entity) = _
      rw [show header labelled = current.header from hheader]
      rfl
    rw [hnext]
    rfl
  · rename_i hforeign
    rw [if_neg hforeign]
    exact ⟨.always, (Outcome.pure_eq_ok_iff.mp h).symm⟩

/-- The plan for a live entity is cut off when its classifications cannot be changed. -/
theorem planLabelled_eq_overflow {current labelled : Entity}
    (hlive : current.header.isDeleted = false) (hheader : labelled.header = current.header)
    (hfull : ¬collection.CanRelabel current) :
    collection.planLabelled call current labelled = .error .overflow := by
  obtain ⟨hlocal, hlast⟩ : current.header.isHomedIn collection.id ∧
      current.header.version = lastVersion := by simpa [CanRelabel] using hfull
  have hnext : Versioning.nextVersion current labelled call.stamp = .error .overflow :=
    Versioning.nextVersion_eq_overflow_iff.mpr ⟨congrArg Header.guid hheader.symm, hlast⟩
  have hupdate : Versioning.update current labelled call.stamp = .error .overflow :=
    Versioning.update_eq_overflow_iff.mpr ⟨hlive, hnext⟩
  rw [planLabelled, if_pos hlocal, hupdate, Outcome.error_bind]

/-- The copy of a classification goes on an entity that is stored, if there is one. -/
theorem labelled?_of_latest {incoming current : Entity}
    (h : collection.store.latest incoming.header.guid = some (.entity current)) :
    collection.labelled? incoming = some current := by
  have hfind : collection.find Entity incoming.header.guid .now = .found current :=
    (lookup_eq_found_iff _ current).mpr h
  rw [labelled?, hfind]

/-- The copy of a classification is not the collection's own. It changes nothing, or it is put on
the entity that it goes on. -/
theorem planSaveClassification_eq_ok {incoming : Entity} {copy : Classification}
    (h : collection.planSaveClassification call incoming copy = .ok plan) :
    copy.home ≠ collection.id ∧ (plan = .nothing (.copied .unchanged) ∨
      ∃ current guard, collection.labelled? incoming = some current ∧
        plan = ⟨[.put (.entity (collection.relabelled call current
          (current.withClassification copy))) guard], .copied .applied⟩) := by
  simp only [planSaveClassification, Outcome.bind_eq_ok_iff, Outcome.require_eq_ok_iff,
    decide_eq_true_eq] at h
  obtain ⟨⟨⟩, -, ⟨⟩, -, ⟨⟩, -, ⟨⟩, hhome, h⟩ := h
  refine ⟨hhome, ?_⟩
  split at h
  · exact Or.inl (Outcome.pure_eq_ok_iff.mp h).symm
  · rename_i current hlabelled
    -- nothing is written on a deleted entity, nor if it has the same classification already
    split at h
    · exact Or.inl (Outcome.pure_eq_ok_iff.mp h).symm
    · obtain ⟨⟨⟩, -, h⟩ := Outcome.bind_eq_ok_iff.mp h
      split at h
      · exact Or.inl (Outcome.pure_eq_ok_iff.mp h).symm
      · obtain ⟨guard, hplan⟩ := planLabelled_eq_ok h rfl
        exact Or.inr ⟨current, guard, hlabelled, hplan⟩

/-- To take the copy of a classification away changes nothing, or takes whatever classification has
its name away from the entity that is stored. -/
theorem planPurgeClassification_eq_ok {incoming : Entity} {copy : Classification}
    (h : collection.planPurgeClassification call incoming copy = .ok plan) :
    plan = .nothing (.copied .unchanged) ∨
      ∃ current guard, collection.store.latest incoming.header.guid = some (.entity current) ∧
        plan = ⟨[.put (.entity (collection.relabelled call current
          (current.withoutClassification copy.name))) guard], .copied .applied⟩ := by
  simp only [planPurgeClassification, Outcome.bind_eq_ok_iff] at h
  obtain ⟨⟨⟩, -, ⟨⟩, -, ⟨⟩, -, h⟩ := h
  split at h
  · exact Or.inl (Outcome.pure_eq_ok_iff.mp h).symm
  · rename_i current hfound
    split at h
    · exact Or.inl (Outcome.pure_eq_ok_iff.mp h).symm
    · obtain ⟨guard, hplan⟩ := planLabelled_eq_ok h rfl
      exact Or.inr ⟨current, guard, latest_of_found? hfound, hplan⟩

/-! ## What is stored afterwards -/

/-- After a proxy is added it is stored, or its entity is in full and nothing has changed. -/
theorem latest_of_addProxy {proxy : Proxy}
    (h : collection.execute call fresh (.addProxy proxy) = .ok (next, reply)) :
    reply = .done ∧
      ((∀ entity, collection.store.latest proxy.header.guid ≠ some (.entity entity)) ∧
          next.store.latest =
            Function.update collection.store.latest proxy.header.guid (some (.proxy proxy)) ∨
        (∃ entity, collection.store.latest proxy.header.guid = some (.entity entity)) ∧
          next.store.latest = collection.store.latest) := by
  obtain ⟨plan, hplan, rfl, hrun⟩ := runAll_of_execute h
  rcases planAddProxy_eq_ok hplan with rfl | ⟨rfl, hfull⟩
  · obtain ⟨hguard, hnext⟩ := Records.runAll_put_eq_ok_iff.mp hrun
    exact ⟨rfl, Or.inl ⟨hguard, hnext.symm⟩⟩
  · exact ⟨rfl, Or.inr ⟨hfull, (Except.ok.inj hrun).symm⟩⟩

/-- After the copy of an entity is saved it is stored, and no entity of the collection's own was
stored there. -/
theorem latest_of_saveEntity {entity : Entity}
    (h : collection.execute call fresh (.saveEntity entity) = .ok (next, reply)) :
    reply = .done ∧
      next.store.latest =
        Function.update collection.store.latest entity.header.guid (some (.entity entity)) ∧
      ∀ stored : Entity, collection.store.latest entity.header.guid = some (.entity stored) →
        stored.header.isHomedIn collection.id = false := by
  obtain ⟨plan, hplan, rfl, hrun⟩ := runAll_of_execute h
  obtain ⟨rfl, hforeign⟩ := planSaveEntity_eq_ok hplan
  obtain ⟨-, hnext⟩ := Records.runAll_put_eq_ok_iff.mp hrun
  exact ⟨rfl, hnext.symm, hforeign⟩

/-- What is stored after the copy of a relationship is saved. -/
structure SavesRelationship (collection next : Collection) (relationship : Relationship) :
    Prop where
  /-- The relationship is. -/
  own : next.store.latest relationship.header.guid = some (.relationship relationship)
  /-- At an end that needs a proxy one is. -/
  proxy : ∀ guid, relationship.header.guid ≠ guid → collection.NeedsProxy relationship guid →
    ∃ proxy, next.store.latest guid = some (.proxy proxy)
  /-- Nothing else has changed. -/
  others : ∀ guid, relationship.header.guid ≠ guid → ¬collection.NeedsProxy relationship guid →
    next.store.latest guid = collection.store.latest guid
  /-- No relationship of the collection's own was stored there. -/
  foreign : ∀ stored : Relationship,
    collection.store.latest relationship.header.guid = some (.relationship stored) →
      stored.header.isHomedIn collection.id = false

/-- After the copy of a relationship is saved it is stored, with a proxy at each end that needs
one. -/
theorem latest_of_saveRelationship {relationship : Relationship}
    (h : collection.execute call fresh (.saveRelationship relationship) = .ok (next, reply)) :
    reply = .done ∧ collection.SavesRelationship next relationship := by
  obtain ⟨plan, hplan, rfl, hrun⟩ := runAll_of_execute h
  obtain ⟨rfl, hforeign⟩ := planSaveRelationship_eq_ok hplan
  refine ⟨rfl, Records.runAll_concat_put hrun, ?_, ?_, hforeign⟩
  · intro guid hne hneeds
    obtain ⟨proxy, hmissing, hguid⟩ := exists_mem_missingEnds_iff.mpr hneeds
    have hput : .putProxy proxy ∈ (collection.missingEnds relationship.endOne
        relationship.endTwo).map Statement.putProxy ++ [.overwrite (.relationship relationship)] :=
      List.mem_append_left _ (List.mem_map_of_mem hmissing)
    -- the statement for the end is not the last one, which puts the relationship elsewhere
    rcases Records.runAll_cases hrun guid with
      ⟨-, hunnamed⟩ | ⟨-, hevict⟩ | ⟨record, guard, hrecord, hmem, rfl⟩
    · exact absurd hguid (hunnamed _ hput)
    · simp [Statement.putProxy, Statement.overwrite] at hevict
    · rcases List.mem_append.mp hmem with hmem | hmem
      · obtain ⟨found, -, hfound⟩ := List.mem_map.mp hmem
        cases hfound
        exact ⟨found, hrecord⟩
      · cases List.mem_singleton.mp hmem
        exact absurd rfl hne
  · intro guid hne hneeds
    -- a statement that names the identity would be for an end that needs a proxy
    rcases Records.runAll_cases hrun guid with
      ⟨hsame, -⟩ | ⟨-, hevict⟩ | ⟨record, guard, -, hmem, rfl⟩
    · exact hsame
    · simp [Statement.putProxy, Statement.overwrite] at hevict
    · rcases List.mem_append.mp hmem with hmem | hmem
      · obtain ⟨proxy, hmissing, hproxy⟩ := List.mem_map.mp hmem
        cases hproxy
        exact absurd (exists_mem_missingEnds_iff.mp ⟨proxy, hmissing, rfl⟩) hneeds
      · cases List.mem_singleton.mp hmem
        exact absurd rfl hne

/-- After the copy of a classification is saved nothing has changed, or the entity that it goes on
is stored with it. -/
theorem latest_of_saveClassification {incoming : Entity} {copy : Classification}
    (hcoherent : collection.store.Coherent)
    (h : collection.execute call fresh (.saveClassification incoming copy) = .ok (next, reply)) :
    copy.home ≠ collection.id ∧
      (reply = .copied .unchanged ∧ next.store.latest = collection.store.latest ∨
        reply = .copied .applied ∧ ∃ current, collection.labelled? incoming = some current ∧
          next.store.latest = Function.update collection.store.latest incoming.header.guid
            (some (.entity (collection.relabelled call current
              (current.withClassification copy))))) := by
  obtain ⟨plan, hplan, rfl, hrun⟩ := runAll_of_execute h
  obtain ⟨hhome, rfl | ⟨current, guard, hlabelled, rfl⟩⟩ := planSaveClassification_eq_ok hplan
  · exact ⟨hhome, Or.inl ⟨rfl, (Except.ok.inj hrun).symm⟩⟩
  · obtain ⟨-, hnext⟩ := Records.runAll_put_eq_ok_iff.mp hrun
    -- whether it is the stored entity or the one that comes, it has the identity that comes
    have hguid : current.header.guid = incoming.header.guid := by
      rcases latest_or_eq_of_labelled? hlabelled with hlatest | rfl
      · exact hcoherent.guid_of_read hlatest
      · rfl
    have hput : (Record.entity (collection.relabelled call current
        (current.withClassification copy))).guid = incoming.header.guid :=
      (guid_relabelled current (current.withClassification copy) rfl).trans hguid
    rw [hput] at hnext
    exact ⟨hhome, Or.inr ⟨rfl, current, hlabelled, hnext.symm⟩⟩

/-- After the copy of a classification is taken away nothing has changed, or the entity is stored
without the classification of its name. -/
theorem latest_of_purgeClassification {incoming : Entity} {copy : Classification}
    (hcoherent : collection.store.Coherent)
    (h : collection.execute call fresh (.purgeClassification incoming copy) = .ok (next, reply)) :
    reply = .copied .unchanged ∧ next.store.latest = collection.store.latest ∨
      reply = .copied .applied ∧ ∃ current,
        collection.store.latest incoming.header.guid = some (.entity current) ∧
          next.store.latest = Function.update collection.store.latest incoming.header.guid
            (some (.entity (collection.relabelled call current
              (current.withoutClassification copy.name)))) := by
  obtain ⟨plan, hplan, rfl, hrun⟩ := runAll_of_execute h
  obtain rfl | ⟨current, guard, hlatest, rfl⟩ := planPurgeClassification_eq_ok hplan
  · exact Or.inl ⟨rfl, (Except.ok.inj hrun).symm⟩
  · obtain ⟨-, hnext⟩ := Records.runAll_put_eq_ok_iff.mp hrun
    have hput : (Record.entity (collection.relabelled call current
        (current.withoutClassification copy.name))).guid = incoming.header.guid :=
      (guid_relabelled current (current.withoutClassification copy.name) rfl).trans
        (hcoherent.guid_of_read hlatest)
    rw [hput] at hnext
    exact Or.inr ⟨rfl, current, hlatest, hnext.symm⟩

/-! ## Copies under an identity of the other kind -/

/-- The event is an accepted operation that comes with an entity where a relationship is stored, or
with a relationship where an entity is, in full or by proxy. -/
def CrossesAt (collection : Collection) (event : Event) (guid : Guid) : Prop :=
  ∃ call fresh operation next reply stored, event = .operate call fresh operation ∧
    collection.execute call fresh operation = .ok (next, reply) ∧ reply ≠ .copied .unchanged ∧
      collection.store.latest guid = some stored ∧
        if stored.isEntityLike then operation.BringsRelationship guid
        else operation.BringsEntity guid

/-- An entity that comes with an accepted operation crosses where no entity is stored. -/
theorem crossesAt_of_entity (hexecute : collection.execute call fresh operation = .ok (next, reply))
    (hreply : reply ≠ .copied .unchanged) {stored : Record}
    (hstored : collection.store.latest guid = some stored) (hkind : stored.isEntityLike = false)
    (hbrings : operation.BringsEntity guid) :
    collection.CrossesAt (.operate call fresh operation) guid :=
  ⟨call, fresh, operation, next, reply, stored, rfl, hexecute, hreply, hstored,
    by rwa [hkind, if_neg Bool.false_ne_true]⟩

/-- A relationship that comes with an accepted operation crosses where an entity is stored. -/
theorem crossesAt_of_relationship
    (hexecute : collection.execute call fresh operation = .ok (next, reply))
    (hreply : reply ≠ .copied .unchanged) {stored : Record}
    (hstored : collection.store.latest guid = some stored) (hkind : stored.isEntityLike)
    (hbrings : operation.BringsRelationship guid) :
    collection.CrossesAt (.operate call fresh operation) guid :=
  ⟨call, fresh, operation, next, reply, stored, rfl, hexecute, hreply, hstored,
    by rwa [hkind, if_pos rfl]⟩

/-- What an accepted operation comes with for an identity is stored there, where something of the
other kind was before. -/
theorem CrossesAt.exists_latest (hcoherent : collection.store.Coherent) {event : Event}
    (h : collection.CrossesAt event guid) :
    ∃ stored new, collection.store.latest guid = some stored ∧
      (collection.after event).store.latest guid = some new ∧
        new.isEntityLike ≠ stored.isEntityLike := by
  obtain ⟨call, fresh, operation, next, reply, stored, rfl, hexecute, hreply, hstored, hbrings⟩ := h
  rw [after_eq_of_ok hexecute]
  refine ⟨stored, ?_⟩
  -- the kind of what is stored decides on what has come
  cases hkind : stored.isEntityLike with
  | true =>
    rw [hkind, if_pos rfl] at hbrings
    cases operation with
    | saveRelationship relationship =>
      cases hbrings
      obtain ⟨-, hsaved⟩ := latest_of_saveRelationship hexecute
      exact ⟨_, hstored, hsaved.own, Bool.false_ne_true⟩
    | _ => exact hbrings.elim
  | false =>
    rw [hkind, if_neg Bool.false_ne_true] at hbrings
    -- no entity is stored there, so that none stands in the way of a proxy
    have hnone (entity : Entity) : collection.store.latest guid ≠ some (.entity entity) := by
      intro hentity
      cases hstored.symm.trans hentity
      cases hkind
    cases operation with
    | addProxy proxy =>
      cases hbrings
      obtain ⟨-, ⟨-, hnext⟩ | ⟨⟨entity, hfull⟩, -⟩⟩ := latest_of_addProxy hexecute
      · exact ⟨.proxy proxy, hstored, by rw [hnext, Function.update_self], Bool.false_ne_true.symm⟩
      · exact absurd hfull (hnone entity)
    | saveEntity entity =>
      cases hbrings
      obtain ⟨-, hnext, -⟩ := latest_of_saveEntity hexecute
      exact ⟨.entity entity, hstored, by rw [hnext, Function.update_self], Bool.false_ne_true.symm⟩
    | saveRelationship relationship =>
      obtain ⟨hne, hreferences⟩ := hbrings
      obtain ⟨-, hsaved⟩ := latest_of_saveRelationship hexecute
      obtain ⟨proxy, hproxy⟩ := hsaved.proxy guid hne ⟨hreferences, hnone⟩
      exact ⟨_, hstored, hproxy, Bool.false_ne_true.symm⟩
    | saveClassification incoming copy =>
      cases hbrings
      obtain ⟨-, ⟨hunchanged, -⟩ | ⟨-, current, -, hnext⟩⟩ :=
        latest_of_saveClassification hcoherent hexecute
      · exact absurd hunchanged hreply
      · exact ⟨.entity _, hstored, by rw [hnext, Function.update_self], Bool.false_ne_true.symm⟩
    | _ => exact hbrings.elim

end Collection

end MetadataGraph

import MetadataGraph.Proofs.Collection.Copies

/-!
# Operations that are cut off

An operation that is refused tells its caller why. One that needs a version after the last is cut
off instead, and there is no answer. All checks of an operation, those of its guards included, tell
their cause, so that only the next version of something at the last version is left. We prove:

* `Outcome.answers_bind_iff`: a sequence gives an answer when each of its steps does;
* `answers_plan`: an operation is planned or refused if nothing is stored at the last version;
* `answers_execute`: an operation that is planned or refused is carried out or refused;
* `exists_lastVersion_of_overflow`: an operation that is cut off has met an element at the last
  version.
-/

namespace MetadataGraph

/-! ## Answers -/

namespace Outcome

variable {α β : Type}

/-- There is a result, or the cause of a refusal. -/
def Answers (outcome : Outcome α) : Prop := outcome ≠ .error .overflow

/-- What has an answer and no result is refused. -/
theorem Answers.exists_refused {outcome : Outcome α} {failure : Failure} (h : outcome.Answers)
    (hfailure : outcome = .error failure) : ∃ error, outcome = .error (.refused error) := by
  cases failure with
  | refused error => exact ⟨error, hfailure⟩
  | overflow => exact absurd hfailure h

@[simp]
theorem answers_pure (a : α) : Answers (pure a) := by
  rintro ⟨⟩

@[simp]
theorem answers_ok (a : α) : Answers (.ok a) := by
  rintro ⟨⟩

@[simp]
theorem answers_refused (error : Error) : Answers (.error (.refused error) : Outcome α) := by
  rintro ⟨⟩

@[simp]
theorem answers_require (condition : Bool) (error : Error) : (require condition error).Answers := by
  cases condition <;> rintro ⟨⟩

@[simp]
theorem answers_ofOption (error : Error) (option : Option α) :
    (ofOption error option).Answers := by
  cases option <;> rintro ⟨⟩

/-- A fault that is made a refusal is told. -/
@[simp]
theorem answers_mapError {ε : Type} (refusal : ε → Error) (result : Except ε α) :
    Answers (result.mapError fun fault => .refused (refusal fault)) := by
  cases result <;> rintro ⟨⟩

/-- A sequence gives an answer when its first step does and the rest does from every result. -/
@[simp]
theorem answers_bind_iff {outcome : Outcome α} {next : α → Outcome β} :
    (outcome >>= next).Answers ↔
      outcome.Answers ∧ ∀ a, outcome = .ok a → (next a).Answers := by
  simp [Answers, bind_eq_error_iff]

@[simp]
theorem answers_map_iff {outcome : Outcome α} {f : α → β} :
    (f <$> outcome).Answers ↔ outcome.Answers := by
  cases outcome <;> simp [Answers, Functor.map, Except.map]

theorem answers_forM {items : List α} {check : α → Outcome Unit}
    (h : ∀ item ∈ items, (check item).Answers) : (items.forM check).Answers := by
  induction items with
  | nil => exact answers_ok ()
  | cons item rest ih =>
    rw [List.forall_mem_cons] at h
    exact answers_bind_iff.mpr ⟨h.1, fun _ _ => ih h.2⟩

theorem answers_mapM {items : List α} {step : α → Outcome β}
    (h : ∀ item ∈ items, (step item).Answers) : (items.mapM step).Answers := by
  induction items with
  | nil => exact answers_pure []
  | cons item rest ih =>
    rw [List.forall_mem_cons] at h
    rw [List.mapM_cons]
    exact answers_bind_iff.mpr ⟨h.1, fun _ _ => answers_bind_iff.mpr
      ⟨ih h.2, fun _ _ => answers_pure _⟩⟩

end Outcome

/-! ## Checks -/

namespace Validation

@[simp]
theorem answers_userId (user : UserId) : (userId user).Answers := Outcome.answers_require _ _

@[simp]
theorem answers_notBlank (text parameter : String) : (notBlank text parameter).Answers :=
  Outcome.answers_require _ _

@[simp]
theorem answers_referenceCopy (header : Header) (collection : CollectionId) :
    (referenceCopy header collection).Answers := by
  simp [referenceCopy]

@[simp]
theorem answers_canUpdate (header : Header) (collection : CollectionId) :
    (canUpdate header collection).Answers := Outcome.answers_require _ _

@[simp]
theorem answers_newHome (header : Header) (home : CollectionId) : (newHome header home).Answers :=
  Outcome.answers_require _ _

end Validation

namespace Header

@[simp]
theorem answers_requireLive (header : Header) : header.requireLive.Answers :=
  Outcome.answers_require _ _

@[simp]
theorem answers_requireDeleted (header : Header) : header.requireDeleted.Answers :=
  Outcome.answers_require _ _

end Header

namespace TypeCatalog

variable (catalog : TypeCatalog) (name : TypeName)

@[simp]
theorem answers_require (category : TypeCategory) : (catalog.require name category).Answers :=
  Outcome.answers_mapError _ _

@[simp]
theorem answers_typeRef (category : TypeCategory) : (catalog.typeRef name category).Answers := by
  simp [typeRef]

@[simp]
theorem answers_checkProperties (properties : Properties) :
    (catalog.checkProperties name properties).Answers :=
  Outcome.answers_forM fun _ _ => Outcome.answers_require _ _

@[simp]
theorem answers_checkStatus (status : Status) : (catalog.checkStatus name status).Answers := by
  unfold checkStatus
  split <;> simp

@[simp]
theorem answers_checkClassification (entityType : TypeName) :
    (catalog.checkClassification name entityType).Answers := by
  simp [checkClassification]

@[simp]
theorem answers_checkEnds (endOneType endTwoType : TypeName) :
    (catalog.checkEnds name endOneType endTwoType).Answers := by
  simp only [checkEnds, Outcome.answers_bind_iff, answers_require, true_and]
  intro type _
  split <;> simp

end TypeCatalog

/-- Whatever an element consists of besides properties and status, its check tells its cause. -/
theorem answers_checkParts {kind : ElementKind} (catalog : TypeCatalog) (type : TypeName)
    (element : kind.Carrier) : (TypedElement.checkParts catalog type element).Answers := by
  cases kind with
  | entity => exact Outcome.answers_forM fun name _ => catalog.answers_checkClassification name type
  | relationship => exact catalog.answers_checkEnds _ _ _

/-! ## Next versions -/

namespace Versioning

variable {α : Type} [Instance α] {current mutated : α} {stamp : Stamp}

open Instance

theorem answers_nextVersion (h : version current ≠ lastVersion) :
    (nextVersion current mutated stamp).Answers :=
  fun hoverflow => h (nextVersion_eq_overflow_iff.mp hoverflow).2

theorem answers_update (h : version current ≠ lastVersion) :
    (update current mutated stamp).Answers := by
  simp [update, answers_nextVersion h]

theorem answers_changeStatus (h : version current ≠ lastVersion) {status : Status} :
    (changeStatus current status stamp).Answers := by
  simp [changeStatus, answers_nextVersion h]

theorem answers_softDelete (h : version current ≠ lastVersion) :
    (softDelete current stamp).Answers := by
  simp [softDelete, answers_nextVersion h]

theorem answers_restore (h : version current ≠ lastVersion) : (restore current stamp).Answers := by
  simp [restore, answers_nextVersion h]

end Versioning

namespace Collection

open Element Instance

variable {collection : Collection} {call : Call} {guid : Guid}

/-! ## Plans -/

@[simp]
theorem answers_require (α : Type) [Element α] (collection : Collection) (guid : Guid) :
    (collection.require α guid).Answers := by
  rw [require]
  cases collection.find α guid .now <;> simp [Lookup.require]

@[simp]
theorem answers_checkClassification (collection : Collection) (entityType : TypeName)
    (classification : Classification) :
    (collection.checkClassification entityType classification).Answers := by
  simp [checkClassification]

@[simp]
theorem answers_checkSource (source : Option ExternalSource) : (checkSource source).Answers := by
  cases source <;> simp [checkSource]

@[simp]
theorem answers_checkNewEntity (collection : Collection) (entity : NewEntity) :
    (collection.checkNewEntity entity).Answers := by
  have hclassifications : (entity.classifications.forM
      (collection.checkClassification entity.typeName)).Answers :=
    Outcome.answers_forM fun _ _ => answers_checkClassification _ _ _
  simpa [checkNewEntity] using fun _ _ _ _ _ _ _ _ _ _ => hclassifications

@[simp]
theorem answers_endpoint (collection : Collection) (guid : Guid) (parameter : String) :
    (collection.endpoint guid parameter).Answers := by
  simp [endpoint]

@[simp]
theorem answers_requireForeign (collection : Collection) (guid : Guid) (stored : Option Header) :
    (collection.requireForeign guid stored).Answers := Outcome.answers_require _ _

@[simp]
theorem answers_checkCopy (collection : Collection) (header : Header) (type : TypeName)
    (home : CollectionId) : (collection.checkCopy header type home).Answers := by
  simp [checkCopy]

@[simp]
theorem answers_forLabelling (collection : Collection) (call : Call) (guid : Guid) :
    (collection.forLabelling call guid).Answers := by
  simp [forLabelling]

section Changes

variable {α : Type} [TypedElement α]

@[simp]
theorem answers_forUpdate (collection : Collection) (call : Call) (guid : Guid) :
    (collection.forUpdate α call guid).Answers := by
  simp [forUpdate]

@[simp]
theorem answers_previous (collection : Collection) (guid : Guid) :
    (collection.previous α guid).Answers := Outcome.answers_ofOption _ _

/-- A change of an element is planned or refused if there is a version left for the element and for
the relationships at it. -/
theorem answers_planChange
    (hleft : ∀ current : α, collection.store.latest guid = some (toRecord current) →
      collection.VersionsLeft guid current)
    (hparts : ∀ (catalog : TypeCatalog) (type : TypeName) (element : α),
      (TypedElement.checkParts catalog type element).Answers) (change : Change) :
    (collection.planChange α call guid change).Answers := by
  have hupdated {current : α} (h : collection.forUpdate α call guid = .ok current) :
      version current ≠ lastVersion := (hleft current (latest_of_forUpdate h)).element
  have hrequired {current : α} (h : collection.require α guid = .ok current) :
      version current ≠ lastVersion := (hleft current (require_eq_ok_iff.mp h)).element
  cases change with
  | status status =>
    simp +contextual [planChange, planStatus, hupdated, Versioning.answers_changeStatus]
  | properties properties =>
    simp +contextual [planChange, planProperties, hupdated, Versioning.answers_update]
  | undo => simp +contextual [planChange, planUndo, hupdated, Versioning.answers_nextVersion]
  | delete => simp +contextual [planChange, planDelete, hupdated, Versioning.answers_softDelete]
  | restore => simp +contextual [planChange, planRestore, hrequired, Versioning.answers_restore]
  | purge => simp [planChange, planPurge]
  | reIdentify newGuid =>
    -- the relationships at the element are moved one by one
    have hmoves {current : α} (h : collection.forUpdate α call guid = .ok current) (proxy : Proxy) :
        ((edges α collection.store guid).mapM (moveEdge call guid proxy)).Answers := by
      refine Outcome.answers_mapM fun relationship hedge => ?_
      have hedges : version relationship ≠ lastVersion :=
        (hleft current (latest_of_forUpdate h)).edge relationship hedge
      simp [moveEdge, Versioning.answers_nextVersion hedges]
    simp +contextual [planChange, planReIdentify, hupdated, hmoves, Versioning.answers_softDelete,
      Versioning.answers_nextVersion]
  | reType currentType newType =>
    simp +contextual [planChange, planReType, hupdated, hparts, Versioning.answers_update]
  | reHome currentHome newHome newHomeName =>
    simp +contextual [planChange, planReHome, hrequired, Versioning.answers_update]

end Changes

theorem answers_planRelabelled {current relabelled : Entity}
    (hleft : current.header.version ≠ lastVersion) :
    (planRelabelled call current relabelled).Answers := by
  have hversion : version current ≠ lastVersion := hleft
  simp [planRelabelled, Versioning.answers_update hversion]

theorem answers_planLabelled {current labelled : Entity} (hleft : collection.CanRelabel current) :
    (collection.planLabelled call current labelled).Answers := by
  unfold planLabelled
  split
  · rename_i hlocal
    have hversion : version current ≠ lastVersion := hleft hlocal
    simp [Versioning.answers_update hversion]
  · exact Outcome.answers_pure _

end Collection

/-- Nothing but proxies is stored at the last version. -/
def Store.BelowLastVersion (store : Store) : Prop :=
  ∀ guid record, store.latest guid = some record → record.kind ≠ .proxy →
    record.header.version ≠ lastVersion

namespace Collection

open Element Instance

variable {collection : Collection} {call : Call} {fresh : Guid} {operation : Operation}

/-- The entity that the copy of a classification goes on can be changed if nothing is stored at the
last version. -/
theorem canRelabel_of_labelled? (hleft : collection.store.BelowLastVersion)
    {incoming current : Entity} (h : collection.labelled? incoming = some current) :
    collection.CanRelabel current := by
  unfold labelled? at h
  split at h
  · rename_i stored hfind
    cases h
    exact fun _ => hleft _ _ ((lookup_eq_found_iff _ _).mp hfind) RecordKind.noConfusion
  · -- what comes with the copy is the collection's own only if it is stored
    split at h
    · cases h
    · rename_i hforeign
      cases h
      exact fun hlocal => absurd hlocal hforeign

@[simp]
theorem answers_planAddProxy (collection : Collection) (call : Call) (proxy : Proxy) :
    (collection.planAddProxy call proxy).Answers := by
  simp only [planAddProxy, Outcome.answers_bind_iff, Validation.answers_userId,
    Validation.answers_notBlank, TypeCatalog.answers_require, true_and]
  intro _ _ _ _ _ _
  split <;> exact Outcome.answers_pure _

/-- The copy of a classification is planned or refused if nothing is stored at the last version. -/
theorem answers_planSaveClassification (hleft : collection.store.BelowLastVersion) (call : Call)
    (incoming : Entity) (classification : Classification) :
    (collection.planSaveClassification call incoming classification).Answers := by
  simp only [planSaveClassification, Outcome.answers_bind_iff, Validation.answers_userId,
    Validation.answers_notBlank, Outcome.answers_require, true_and]
  intro _ _ _ _ _ _ _ _
  -- nothing is done without an entity, for a deleted one, or where the copy is already there
  split
  · exact Outcome.answers_pure _
  · rename_i current hlabelled
    have hcan := canRelabel_of_labelled? hleft hlabelled
    split
    · exact Outcome.answers_pure _
    · refine Outcome.answers_bind_iff.mpr ⟨answers_checkClassification _ _ _, fun _ _ => ?_⟩
      split
      · exact Outcome.answers_pure _
      · exact answers_planLabelled hcan

/-- So is taking it away. -/
theorem answers_planPurgeClassification (hleft : collection.store.BelowLastVersion) (call : Call)
    (incoming : Entity) (classification : Classification) :
    (collection.planPurgeClassification call incoming classification).Answers := by
  simp only [planPurgeClassification, Outcome.answers_bind_iff, Validation.answers_userId,
    Validation.answers_notBlank, true_and]
  intro _ _ _ _ _ _
  split
  · exact Outcome.answers_pure _
  · rename_i current hfound
    have hversion := hleft _ _ (latest_of_found? hfound) RecordKind.noConfusion
    split
    · exact Outcome.answers_pure _
    · exact answers_planLabelled fun _ => hversion

/-- An operation is planned or refused if nothing is stored at the last version. -/
theorem answers_plan (hcoherent : collection.store.Coherent)
    (hleft : collection.store.BelowLastVersion) (call : Call) (fresh : Guid)
    (operation : Operation) : (collection.plan call fresh operation).Answers := by
  have hentity {guid : Guid} {current : Entity}
      (h : collection.store.latest guid = some (.entity current)) :
      current.header.version ≠ lastVersion := hleft guid _ h RecordKind.noConfusion
  have hrelationship {guid : Guid} {current : Relationship}
      (h : collection.store.latest guid = some (.relationship current)) :
      current.header.version ≠ lastVersion := hleft guid _ h RecordKind.noConfusion
  have hlabelling (guid : Guid) {current : Entity}
      (h : collection.forLabelling call guid = .ok current) :
      current.header.version ≠ lastVersion := hentity (latest_of_forLabelling h)
  cases operation with
  | addEntity entity => simp [Collection.plan, planAddEntity]
  | addRelationship relationship => simp [Collection.plan, planAddRelationship]
  | addProxy proxy => simp [Collection.plan]
  | change kind guid change =>
    cases kind with
    | entity =>
      exact answers_planChange (fun current hlatest => ⟨hentity hlatest, fun edge hedge =>
        hrelationship (hcoherent.mem_edges_iff.mp hedge).1⟩) (@answers_checkParts .entity)
        change
    | relationship =>
      exact answers_planChange (fun current hlatest => ⟨hrelationship hlatest, fun edge hedge =>
        absurd hedge List.not_mem_nil⟩) (@answers_checkParts .relationship) change
  | classify target name source origin properties =>
    simp +contextual [Collection.plan, planClassify, hlabelling target, answers_planRelabelled]
  | declassify target name =>
    simp +contextual [Collection.plan, planDeclassify, hlabelling target, answers_planRelabelled]
  | reclassify target name properties =>
    simp +contextual [Collection.plan, planReclassify, hlabelling target, answers_planRelabelled]
  | saveEntity entity => simp [Collection.plan, planSaveEntity]
  | saveRelationship relationship => simp [Collection.plan, planSaveRelationship]
  | purgeCopy kind target type home => simp [Collection.plan, planPurgeCopy]
  | saveClassification incoming classification =>
    exact answers_planSaveClassification hleft call incoming classification
  | purgeClassification incoming classification =>
    exact answers_planPurgeClassification hleft call incoming classification

/-- An operation that is planned or refused is carried out or refused. -/
theorem answers_execute (h : (collection.plan call fresh operation).Answers) :
    (collection.execute call fresh operation).Answers := by
  intro hoverflow
  rcases Outcome.bind_eq_error_iff.mp hoverflow with hplan | ⟨plan, -, hcommit⟩
  · exact h hplan
  · -- a transaction that fails is refused
    cases Store.kind_of_submit_eq_error (submit_of_commit_eq_error hcommit)

/-- An operation that is cut off has met something at the last version. -/
theorem exists_lastVersion_of_overflow (hcoherent : collection.store.Coherent)
    (h : collection.execute call fresh operation = .error .overflow) :
    ∃ guid record, collection.store.latest guid = some record ∧ record.kind ≠ .proxy ∧
      record.header.version = lastVersion := by
  by_contra hnone
  have hleft : collection.store.BelowLastVersion := fun guid record hlatest hkind hlast =>
    hnone ⟨guid, record, hlatest, hkind, hlast⟩
  exact answers_execute (answers_plan hcoherent hleft call fresh operation) h

end Collection

end MetadataGraph

import MetadataGraph.Proofs.Collection.Convergence

/-!
# The order of classification copies

The copy of a classification is checked against the types and against what the entity carries under
its name, and nothing else of the entity is read or written but its version. So copies of different
classifications do not see each other, unless there is a version left for one of them only. We
prove:

* `ClassificationEdit.execute_operation`: an edit on a live entity that is stored has the outcome
  and the result that are read off the entity;
* `ClassificationEdit.outcome_result`: the outcome does not depend on what an edit under another
  name has done before, unless the two compete for the last version;
* `classificationEdits_commute`: two edits under different names that do not compete have the same
  outcomes and the same result in either order;
* `classificationEdits_compete`: at the version before the last the first one wins.
-/

namespace MetadataGraph

open Collection

/-! ## Edits -/

/-- A change of the copy of a classification on an entity. -/
inductive ClassificationEdit where
  /-- The copy is put on the entity. -/
  | save (classification : Classification)
  /-- Whatever classification has the copy's name is taken away. -/
  | purge (classification : Classification)

/-- The header without the time of the last change. -/
def Header.withoutUpdateTime (header : Header) : Header := { header with updatedAt := none }

/-- The entity without the time of its last change. -/
def Entity.withoutUpdateTime (entity : Entity) : Entity :=
  { entity with header := entity.header.withoutUpdateTime }

namespace ClassificationEdit

/-- The name of the classification. -/
def name : ClassificationEdit → TypeName
  | save classification | purge classification => classification.name

/-- The operation that makes the change on an entity. -/
def operation (incoming : Entity) : ClassificationEdit → Operation
  | save classification => .saveClassification incoming classification
  | purge classification => .purgeClassification incoming classification

/-- What the call has to pass before the entity is looked at. -/
def check (collection : Collection) (user : UserId) (guid : Guid) (type : TypeName) :
    ClassificationEdit → Outcome Unit
  | save classification => do
    Validation.userId user
    Validation.notBlank guid "entity.guid"
    Validation.notBlank classification.name "classification.name"
    .require (classification.home ≠ collection.id)
      (.invalidParameter (.classificationOwnedLocally classification.name))
    collection.checkClassification type classification
  | purge classification => do
    Validation.userId user
    Validation.notBlank guid "entity.guid"
    Validation.notBlank classification.name "classification.name"

/-- Whether there is nothing to do, given what the entity carries under the name. -/
def isSettled (carried : Option Classification) : ClassificationEdit → Bool
  | save classification => carried.any (·.equal classification)
  | purge _ => carried.isNone

/-- What is under the name after the change. -/
def written : ClassificationEdit → Option Classification
  | save classification => some classification
  | purge _ => none

/-- The classifications after the change. -/
def apply (classifications : NameMap Classification) :
    ClassificationEdit → NameMap Classification
  | save classification => classifications.insert classification.name classification
  | purge classification => classifications.erase classification.name

/-- The entity with the changed classifications. -/
def relabel (entity : Entity) (edit : ClassificationEdit) : Entity :=
  { entity with classifications := edit.apply entity.classifications }

/-- The answer to the change on a live entity. A change for which no version is left is cut off. -/
def outcome (collection : Collection) (user : UserId) (entity : Entity)
    (edit : ClassificationEdit) : Outcome CopyOutcome := do
  edit.check collection user entity.header.guid entity.header.typeName
  if edit.isSettled (entity.classification? edit.name) then return .unchanged
  if collection.CanRelabel entity then return .applied else .error .overflow

/-- What the change makes of a live entity. -/
def result (collection : Collection) (call : Call) (entity : Entity) (edit : ClassificationEdit) :
    Entity :=
  if edit.outcome collection call.user entity = .ok .applied then
    collection.relabelled call entity (edit.relabel entity)
  else entity

/-- Two changes of an entity compete for the last version: the collection owns the entity, only the
last version is left for it, and each of the changes would write it. -/
def CompeteForLast (collection : Collection) (user : UserId) (entity : Entity)
    (first second : ClassificationEdit) : Prop :=
  entity.header.isHomedIn collection.id ∧ entity.header.version + 1 = lastVersion ∧
    first.outcome collection user entity = .ok .applied ∧
      second.outcome collection user entity = .ok .applied

variable {collection next : Collection} {call : Call} {fresh guid : Guid} {entity incoming : Entity}
  {edit : ClassificationEdit}

/-! ## What an edit does -/

/-- The plan of an edit on a live entity that is stored. -/
theorem plan_operation (call : Call) (fresh : Guid) (edit : ClassificationEdit)
    (hincoming : incoming.header.guid = entity.header.guid)
    (hlatest : collection.store.latest entity.header.guid = some (.entity entity))
    (hlive : entity.header.isDeleted = false) :
    collection.plan call fresh (edit.operation incoming) = (do
      edit.check collection call.user entity.header.guid entity.header.typeName
      if edit.isSettled (entity.classification? edit.name) then
        return .nothing (.copied .unchanged)
      else collection.planLabelled call entity (edit.relabel entity)) := by
  cases edit with
  | save classification =>
    have hfound : collection.labelled? incoming = some entity :=
      labelled?_of_latest (hincoming ▸ hlatest)
    change collection.planSaveClassification call incoming classification = _
    simp only [planSaveClassification, hfound, hlive, check, hincoming, bind_assoc,
      Bool.false_eq_true, if_false]
    rfl
  | purge classification =>
    have hfind : collection.find Entity entity.header.guid .now = .found entity :=
      (Element.lookup_eq_found_iff _ entity).mpr hlatest
    have hgone : (!entity.isClassifiedAs classification.name) =
        (entity.classification? classification.name).isNone := by
      rw [Entity.isClassifiedAs, NameMap.contains, Option.not_isSome]
      rfl
    change collection.planPurgeClassification call incoming classification = _
    simp only [planPurgeClassification, hfind, Lookup.found?, hlive, check, hincoming, bind_assoc,
      Bool.or_false, hgone]
    rfl

/-- An edit on a live entity that is stored is answered as the entity says, and what it makes of the
entity is stored afterwards. -/
theorem execute_operation (call : Call) (fresh : Guid) (edit : ClassificationEdit)
    (hincoming : incoming.header.guid = entity.header.guid)
    (hlatest : collection.store.latest entity.header.guid = some (.entity entity))
    (hlive : entity.header.isDeleted = false) :
    (collection.execute call fresh (edit.operation incoming)).map Prod.snd =
        (edit.outcome collection call.user entity).map .copied ∧
      ∃ store, collection.after (.operate call fresh (edit.operation incoming)) =
          { collection with store } ∧
        store.latest = Function.update collection.store.latest entity.header.guid
          (some (.entity (edit.result collection call entity))) := by
  have hplan := plan_operation call fresh edit hincoming hlatest hlive
  -- without a change the entity is still stored
  have hsame : collection.store.latest = Function.update collection.store.latest
      entity.header.guid (some (.entity entity)) := by
    rw [← hlatest, Function.update_eq_self]
  rw [result, outcome]
  cases hcheck : edit.check collection call.user entity.header.guid entity.header.typeName with
  | error failure =>
    rw [hcheck, Outcome.error_bind] at hplan
    obtain ⟨hexecute, hafter⟩ := failed_of_plan hplan
    rw [hafter, hexecute]
    exact ⟨rfl, collection.store, rfl, hsame⟩
  | ok =>
    rw [hcheck, Outcome.ok_bind] at hplan
    cases hsettled : edit.isSettled (entity.classification? edit.name) with
    | true =>
      rw [hsettled, if_pos rfl] at hplan
      have hexecute := execute_of_nothing hplan
      rw [after_eq_of_ok hexecute, hexecute]
      exact ⟨rfl, collection.store, rfl, hsame⟩
    | false =>
      rw [hsettled, if_neg Bool.false_ne_true] at hplan
      have hheader : (edit.relabel entity).header = entity.header := rfl
      by_cases hleft : collection.CanRelabel entity
      · obtain ⟨store, hexecute, hstore⟩ :=
          execute_of_planLabelled hlatest hlive hheader hleft hplan
        simp only [hleft, if_true]
        rw [after_eq_of_ok hexecute, hexecute]
        exact ⟨rfl, store, rfl, hstore⟩
      · obtain ⟨hexecute, hafter⟩ :=
          failed_of_plan (hplan.trans (planLabelled_eq_overflow hlive hheader hleft))
        simp only [hleft, if_false]
        rw [hafter, hexecute]
        exact ⟨rfl, collection.store, rfl, hsame⟩

/-! ## Edits under different names -/

variable {first second : ClassificationEdit} {other : Entity} {user : UserId}

/-- A change that is applied had a version left. -/
theorem canRelabel_of_outcome (h : edit.outcome collection user entity = .ok .applied) :
    collection.CanRelabel entity := by
  obtain ⟨⟨⟩, -, h⟩ := Outcome.bind_eq_ok_iff.mp h
  by_contra hfull
  rw [if_neg hfull] at h
  split at h <;> cases h

/-- The outcome depends on the type of the entity and on what it carries under the name, as long as
there is a version left for a change that is applied. -/
theorem outcome_congr (hguid : other.header.guid = entity.header.guid)
    (htype : other.header.typeName = entity.header.typeName)
    (hcarried : other.classification? edit.name = entity.classification? edit.name)
    (hentity : collection.CanRelabel entity)
    (hother : edit.outcome collection user entity = .ok .applied → collection.CanRelabel other) :
    edit.outcome collection user other = edit.outcome collection user entity := by
  simp only [outcome, hguid, htype, hcarried, hentity, if_true] at hother ⊢
  cases hcheck : edit.check collection user entity.header.guid entity.header.typeName with
  | error failure => rfl
  | ok =>
    cases hsettled : edit.isSettled (entity.classification? edit.name) with
    | true => rfl
    | false =>
      rw [hcheck, hsettled] at hother
      have hleft := hother rfl
      simp only [hleft, if_true]

/-- Only what is under the name changes. -/
theorem get?_apply (edit : ClassificationEdit) (classifications : NameMap Classification)
    (query : TypeName) :
    (edit.apply classifications).get? query =
      if edit.name = query then edit.written else classifications.get? query := by
  cases edit with
  | save classification => exact NameMap.get?_insert ..
  | purge classification => exact NameMap.get?_erase ..

/-- Changes under different names are made in either order. -/
theorem apply_apply (h : first.name ≠ second.name) (classifications : NameMap Classification) :
    second.apply (first.apply classifications) = first.apply (second.apply classifications) := by
  refine NameMap.ext_get? fun query => ?_
  simp only [get?_apply]
  by_cases hfirst : first.name = query
  · rw [if_pos hfirst, if_neg (hfirst ▸ h.symm), if_pos hfirst]
  · rw [if_neg hfirst, if_neg hfirst]

/-- An edit that is applied counts a version of an entity that the collection owns. -/
theorem header_result (collection : Collection) (call : Call) (entity : Entity)
    (edit : ClassificationEdit) :
    (edit.result collection call entity).header =
      if edit.outcome collection call.user entity = .ok .applied ∧
        entity.header.isHomedIn collection.id then entity.header.next call.stamp
      else entity.header := by
  have hheader : (edit.relabel entity).header = entity.header := rfl
  rw [result, ite_and]
  split
  · exact header_relabelled hheader
  · rfl

/-- An edit that is applied changes the classifications. -/
theorem classifications_result (collection : Collection) (call : Call) (entity : Entity)
    (edit : ClassificationEdit) :
    (edit.result collection call entity).classifications =
      if edit.outcome collection call.user entity = .ok .applied then
        edit.apply entity.classifications
      else entity.classifications := by
  rw [result]
  split
  · exact classifications_relabelled ..
  · rfl

theorem properties_result (collection : Collection) (call : Call) (entity : Entity)
    (edit : ClassificationEdit) :
    (edit.result collection call entity).properties = entity.properties := by
  rw [result, relabelled]
  split
  · split <;> rfl
  · rfl

/-- An edit keeps what is not of the version. -/
theorem header_result_kept (collection : Collection) (call : Call) (entity : Entity)
    (edit : ClassificationEdit) {α : Type} (field : Header → α)
    (hfield : ∀ header stamp, field (header.next stamp) = field header) :
    field (edit.result collection call entity).header = field entity.header := by
  rw [header_result]
  split
  · exact hfield _ _
  · rfl

/-- It makes no difference which of two changes that compete is named first. -/
theorem competeForLast_comm :
    CompeteForLast collection user entity first second ↔
      CompeteForLast collection user entity second first := by
  simp only [CompeteForLast, and_comm (a := first.outcome collection user entity = .ok .applied)]

/-- An edit has the same outcome after one under another name with which it does not compete. -/
theorem outcome_result (h : first.name ≠ second.name)
    (hlast : ¬CompeteForLast collection user entity first second) {call : Call}
    (huser : call.user = user) :
    second.outcome collection user (first.result collection call entity) =
      second.outcome collection user entity := by
  by_cases hfirst : first.outcome collection user entity = .ok .applied
  · refine outcome_congr (header_result_kept _ _ _ _ Header.guid fun _ _ => rfl)
      (header_result_kept _ _ _ _ Header.typeName fun _ _ => rfl) ?_
      (canRelabel_of_outcome hfirst) fun hsecond hlocal hversion => ?_
    · rw [Entity.classification?, classifications_result]
      split
      · exact (get?_apply ..).trans (if_neg h)
      · rfl
    · -- the first one has written the last version, and the second one would need another
      have hhome : entity.header.isHomedIn collection.id := by
        rwa [header_result_kept _ _ _ _ (·.isHomedIn collection.id) fun _ _ => rfl] at hlocal
      rw [header_result, huser, if_pos ⟨hfirst, hhome⟩] at hversion
      exact hlast ⟨hhome, hversion, hfirst, hsecond⟩
  · rw [result, huser, if_neg hfirst]

/-- Edits under different names by one user make the same of an entity in either order, except for
the time of the last one, if they do not compete for the last version. -/
theorem result_result (h : first.name ≠ second.name) {one two three four : Call}
    (hlast : ¬CompeteForLast collection one.user entity first second)
    (htwo : two.user = one.user) (hthree : three.user = one.user) (hfour : four.user = one.user) :
    (second.result collection two (first.result collection one entity)).withoutUpdateTime =
      (first.result collection four (second.result collection three entity)).withoutUpdateTime := by
  have hhome (edit : ClassificationEdit) (call : Call) :
      (edit.result collection call entity).header.isHomedIn collection.id =
        entity.header.isHomedIn collection.id :=
    header_result_kept _ _ _ _ (·.isHomedIn collection.id) fun _ _ => rfl
  have hforward : second.outcome collection one.user (first.result collection one entity) =
      second.outcome collection one.user entity := outcome_result h hlast rfl
  have hbackward : first.outcome collection one.user (second.result collection three entity) =
      first.outcome collection one.user entity :=
    outcome_result h.symm (mt competeForLast_comm.mp hlast) hthree
  have hheader :
      (second.result collection two
        (first.result collection one entity)).header.withoutUpdateTime =
      (first.result collection four
        (second.result collection three entity)).header.withoutUpdateTime := by
    -- first what the later edits make of the headers, then what the earlier ones have made of them
    simp only [header_result collection two, header_result collection four, htwo, hfour, hforward,
      hbackward, hhome]
    simp only [header_result, hthree]
    by_cases hfirst : first.outcome collection one.user entity = .ok .applied ∧
        entity.header.isHomedIn collection.id
    · by_cases hsecond : second.outcome collection one.user entity = .ok .applied ∧
          entity.header.isHomedIn collection.id
      · -- both count a version, and the user of the last one is the same
        simp only [if_pos hfirst, if_pos hsecond, Header.withoutUpdateTime, Header.next, Call.stamp,
          htwo, hfour]
      · simp only [if_pos hfirst, if_neg hsecond, Header.withoutUpdateTime, Header.next, Call.stamp,
          hfour]
    · simp only [if_neg hfirst]
      split
      · simp only [Header.withoutUpdateTime, Header.next, Call.stamp, htwo, hthree]
      · rfl
  have hclassifications :
      (second.result collection two (first.result collection one entity)).classifications =
      (first.result collection four (second.result collection three entity)).classifications := by
    simp only [classifications_result collection two, classifications_result collection four, htwo,
      hfour, hforward, hbackward]
    simp only [classifications_result, hthree]
    split <;> split <;> simp only [apply_apply h]
  rw [Entity.withoutUpdateTime, Entity.withoutUpdateTime, hheader, hclassifications,
    properties_result, properties_result, properties_result, properties_result]

/-- An edit after one under another name with which it does not compete is answered as it would be
without that one, and what it makes of the result of that one is stored afterwards. -/
theorem execute_after_operation (h : first.name ≠ second.name) {one two : Call}
    (hlast : ¬CompeteForLast collection user entity first second) (hone : one.user = user)
    (htwo : two.user = user) (fresh later : Guid)
    (hincoming : incoming.header.guid = entity.header.guid)
    (hother : other.header.guid = entity.header.guid)
    (hlatest : collection.store.latest entity.header.guid = some (.entity entity))
    (hlive : entity.header.isDeleted = false) :
    ((collection.after (.operate one fresh (first.operation incoming))).execute two later
        (second.operation other)).map Prod.snd =
          (second.outcome collection two.user entity).map .copied ∧
      ((collection.after (.operate one fresh (first.operation incoming))).after
        (.operate two later (second.operation other))).store.latest =
          Function.update collection.store.latest entity.header.guid (some (.entity
            (second.result collection two (first.result collection one entity)))) := by
  obtain ⟨-, store, hafter, hstore⟩ :=
    execute_operation one fresh first hincoming hlatest hlive
  have hguid : (first.result collection one entity).header.guid = entity.header.guid :=
    header_result_kept _ _ _ _ Header.guid fun _ _ => rfl
  have hlive' : (first.result collection one entity).header.isDeleted = false :=
    (header_result_kept _ _ _ _ Header.isDeleted fun _ _ => rfl).trans hlive
  have hlatest' : ({ collection with store } : Collection).store.latest
      (first.result collection one entity).header.guid =
        some (.entity (first.result collection one entity)) := by
    change store.latest _ = _
    rw [hguid, hstore, Function.update_self]
  obtain ⟨hreply, final, hfinal, hresult⟩ :=
    execute_operation two later second (hother.trans hguid.symm) hlatest' hlive'
  -- the outcome and the result depend on the configuration and the types only
  refine ⟨?_, ?_⟩
  · rw [hafter]
    rw [htwo] at hreply ⊢
    exact hreply.trans (congrArg _ (outcome_result h hlast hone))
  · rw [hafter, hfinal]
    change final.latest = _
    rw [hresult, hguid]
    change Function.update store.latest _ _ = _
    rw [hstore, Function.update_idem]
    rfl

end ClassificationEdit

namespace Collection

variable {collection : Collection} {guid : Guid} {entity incoming other : Entity}
  {first second : ClassificationEdit}

/-- Two changes of classification copies under different names are called by one user on a live
entity that is stored in full, and do not compete for its last version. Whichever comes first, each
of them is applied, finds nothing to do, is refused with the same error or is cut off, and the same
entity is stored at the end, except for the time of its last change. -/
theorem classificationEdits_commute (hreachable : collection.Reachable)
    (hlatest : collection.store.latest guid = some (.entity entity))
    (hlive : entity.header.isDeleted = false) (hincoming : incoming.header.guid = guid)
    (hother : other.header.guid = guid) (hname : first.name ≠ second.name)
    {one two three four : Call}
    (hlast : ¬ClassificationEdit.CompeteForLast collection one.user entity first second)
    (htwo : two.user = one.user) (hthree : three.user = one.user)
    (hfour : four.user = one.user) (fresh : Guid) :
    let afterFirst := collection.after (.operate one fresh (first.operation incoming))
    let afterSecond := collection.after (.operate three fresh (second.operation other))
    (collection.execute one fresh (first.operation incoming)).map Prod.snd =
        (afterSecond.execute four fresh (first.operation incoming)).map Prod.snd ∧
      (afterFirst.execute two fresh (second.operation other)).map Prod.snd =
        (collection.execute three fresh (second.operation other)).map Prod.snd ∧
      ∃ forward backward : Entity,
        (afterFirst.after (.operate two fresh (second.operation other))).store.latest =
            Function.update collection.store.latest guid (some (.entity forward)) ∧
          (afterSecond.after (.operate four fresh (first.operation incoming))).store.latest =
            Function.update collection.store.latest guid (some (.entity backward)) ∧
          forward.withoutUpdateTime = backward.withoutUpdateTime := by
  intro afterFirst afterSecond
  obtain rfl : entity.header.guid = guid := hreachable.store.coherent.guid_of_read hlatest
  obtain ⟨hfirst, -⟩ := ClassificationEdit.execute_operation one fresh first hincoming hlatest hlive
  obtain ⟨hsecond, -⟩ :=
    ClassificationEdit.execute_operation three fresh second hother hlatest hlive
  obtain ⟨hsecondAfter, hforward⟩ :=
    ClassificationEdit.execute_after_operation hname hlast rfl htwo fresh fresh hincoming hother
      hlatest hlive
  obtain ⟨hfirstAfter, hbackward⟩ :=
    ClassificationEdit.execute_after_operation hname.symm
      (mt ClassificationEdit.competeForLast_comm.mp hlast) hthree hfour fresh fresh hother hincoming
      hlatest hlive
  refine ⟨?_, ?_, _, _, hforward, hbackward, ?_⟩
  · rw [hfirst, hfirstAfter, hfour]
  · rw [hsecondAfter, hsecond, htwo, hthree]
  · exact ClassificationEdit.result_result hname hlast htwo hthree hfour

/-- A classification of the collection `remote`. -/
private def copiedLabel (name : TypeName) : Classification := .new name "remote" ⟨"bob", .earliest⟩

/-- The entity as it comes with the copy of a classification. -/
private def incomingAsset : Entity :=
  .new (Header.new "asset" ⟨"Asset", []⟩ "remote" ⟨"bob", .earliest⟩) ∅ []

/-- Entities and two types of classifications for them. -/
private def labelTypes : List Event :=
  [.addType ⟨"Asset", .entity, none, [], [], [], none, []⟩,
    .addType ⟨"Certified", .classification, none, [], [], [], none, []⟩,
    .addType ⟨"Reviewed", .classification, none, [], [], [], none, []⟩]

/-- A collection that owns one entity, which has been reviewed. -/
private def reviewing : Collection :=
  let call : Call := ⟨"ada", .earliest⟩
  run ⟨default, ∅, .empty⟩ <| labelTypes ++
    [.operate call "asset" (.addEntity ⟨"Asset", ∅, [], .active, none⟩),
      .operate call "" (.saveClassification incomingAsset (copiedLabel "Reviewed"))]

private theorem reachable_reviewing : reviewing.Reachable := (Reachable.start _ _).run _

/-- The copy of a classification is saved on the entity. -/
private def saves (name : TypeName) (now : Instant) : Event :=
  .operate ⟨"ada", now⟩ "" (.saveClassification incomingAsset (copiedLabel name))

/-- Its review is taken away. -/
private def revoked (now : Instant) : Event :=
  .operate ⟨"ada", now⟩ "" (.purgeClassification incomingAsset (copiedLabel "Reviewed"))

/-- The entity is certified and its review is taken away in either order, as its fourth version. -/
theorem classificationEdits_commute_reviewed :
    ∃ forward backward : Entity,
      ((reviewing.after (saves "Certified" .earliest)).after
          (revoked .latest)).store.latest "asset" = some (.entity forward) ∧
        ((reviewing.after (revoked .earliest)).after
          (saves "Certified" .earliest)).store.latest "asset" = some (.entity backward) ∧
        forward.withoutUpdateTime = backward.withoutUpdateTime ∧ forward.header.version = 4 ∧
        forward.isClassifiedAs "Reviewed" = false := by
  obtain ⟨asset, hasset, hlive, hversion⟩ : ∃ asset,
      reviewing.store.latest "asset" = some (.entity asset) ∧ asset.header.isDeleted = false ∧
        asset.header.version = 2 := ⟨_, rfl, rfl, rfl⟩
  have hincoming : incomingAsset.header.guid = "asset" := rfl
  have hname : (ClassificationEdit.save (copiedLabel "Certified")).name ≠
      (ClassificationEdit.purge (copiedLabel "Reviewed")).name := by decide
  have hroom : ¬ClassificationEdit.CompeteForLast reviewing (⟨"ada", .earliest⟩ : Call).user asset
      (.save (copiedLabel "Certified")) (.purge (copiedLabel "Reviewed")) := by
    rintro ⟨-, hlast, -⟩
    rw [hversion] at hlast
    exact absurd hlast (by decide)
  have hlate : (⟨"ada", .latest⟩ : Call).user = (⟨"ada", .earliest⟩ : Call).user := rfl
  have hearly : (⟨"ada", .earliest⟩ : Call).user = (⟨"ada", .earliest⟩ : Call).user := rfl
  obtain ⟨-, -, forward, backward, hforward, hbackward, hsame⟩ := classificationEdits_commute
    reachable_reviewing hasset hlive hincoming hincoming hname hroom hlate hearly hearly ""
  have hlatest : ((reviewing.after (saves "Certified" .earliest)).after
      (revoked .latest)).store.latest "asset" = some (.entity forward) :=
    (congrFun hforward "asset").trans (Function.update_self ..)
  have hfacts : ((((reviewing.after (saves "Certified" .earliest)).after
      (revoked .latest)).store.latest "asset").bind Record.entity?).map
        (fun entity => (entity.header.version, entity.isClassifiedAs "Reviewed")) =
      some (4, false) := by decide
  rw [hlatest] at hfacts
  obtain ⟨hversion, hrevoked⟩ := Prod.mk.inj (Option.some.inj hfacts)
  exact ⟨forward, backward, hlatest, (congrFun hbackward "asset").trans (Function.update_self ..),
    hsame, hversion, hrevoked⟩

/-- A collection that has taken over a copy, which leaves one version for it. -/
private def takenOver : Collection :=
  let call : Call := ⟨"ada", .earliest⟩
  let copy : Entity :=
    { incomingAsset with header := { incomingAsset.header with version := lastVersion - 2 } }
  run ⟨default, ∅, .empty⟩ <| labelTypes ++
    [.operate call "" (.saveEntity copy),
      .operate call "" (.change .entity "asset" (.reHome "remote" "local" "Local"))]

/-- The answer when the copy of a classification is saved on the entity. -/
private def answerTo (collection : Collection) (name : TypeName) : Outcome Reply :=
  (collection.execute ⟨"ada", .earliest⟩ ""
    (.saveClassification incomingAsset (copiedLabel name))).map Prod.snd

/-- Which of the two classifications the entity carries. -/
private def carries (collection : Collection) : Option (Bool × Bool) :=
  ((collection.store.latest "asset").bind Record.entity?).map fun entity =>
    (entity.isClassifiedAs "Certified", entity.isClassifiedAs "Reviewed")

/-- Two copies that are saved at the version before the last: each is applied when it comes first
and cut off when it comes second, so that the entity carries the one that has come first. -/
theorem classificationEdits_compete :
    takenOver.Reachable ∧
      ((takenOver.store.latest "asset").map fun record =>
        (record.header.isDeleted, record.header.version)) = some (false, lastVersion - 1) ∧
      answerTo takenOver "Certified" = .ok (.copied .applied) ∧
      answerTo (takenOver.after (saves "Certified" .earliest)) "Reviewed" = .error .overflow ∧
      answerTo takenOver "Reviewed" = .ok (.copied .applied) ∧
      answerTo (takenOver.after (saves "Reviewed" .earliest)) "Certified" = .error .overflow ∧
      carries ((takenOver.after (saves "Certified" .earliest)).after
        (saves "Reviewed" .earliest)) = some (true, false) ∧
      carries ((takenOver.after (saves "Reviewed" .earliest)).after
        (saves "Certified" .earliest)) = some (false, true) := by
  refine ⟨(Reachable.start _ _).run _, ?_⟩
  decide

end Collection

end MetadataGraph

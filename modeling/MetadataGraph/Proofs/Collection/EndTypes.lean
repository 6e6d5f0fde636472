import Mathlib.Tactic.IntervalCases
import MetadataGraph.Proofs.Collection.Conformance
import MetadataGraph.Proofs.Collection.Integrity
import MetadataGraph.Proofs.Collection.ReIdentify

/-!
# Types at the ends of relationships

A relationship should connect entities of the types that its type asks for. Its creation compares
them with the entities as they are then. Later changes do not look at the other side: an entity gets
another type, or comes back with an older one, whatever relationships it has, and a relationship is
compared with the proxies that it carries and not with what the entities are now. We prove:

* `endsFit_of_plan_iff`: an operation keeps all live relationships fitting exactly if it is none of
  those that do not look, or what it writes fits by chance;
* `endsFit_iff`: in a run all live relationships fit throughout if and only if no operation in it
  brings a misfit;
* `misfit_datasetEvents`: there is a run that does.
-/

namespace MetadataGraph

open Element Instance

/-! ## Records that fit -/

namespace Records

/-- The type of the live entity that is stored in full under an identity. -/
def liveType? (records : Records) (guid : Guid) : Option TypeName :=
  match records guid with
  | some (.entity entity) =>
    if entity.header.isDeleted then none else some entity.header.typeName
  | _ => none

/-- If live entities are stored in full at both ends of a relationship, they have types that its
type asks for. -/
def Fits (records : Records) (catalog : TypeCatalog) (relationship : Relationship) : Prop :=
  ∀ one two, records.liveType? relationship.endOneGuid = some one →
    records.liveType? relationship.endTwoGuid = some two →
      catalog.checkEnds relationship.header.typeName one two = .ok ()

/-- All live relationships fit. -/
def EndsFit (records : Records) (catalog : TypeCatalog) : Prop :=
  ∀ guid relationship, records guid = some (.relationship relationship) →
    relationship.header.isDeleted = false → records.Fits catalog relationship

/-- A record that is written does not fit what is stored: a live relationship does not fit the
entities at its ends, or an entity makes a live relationship at it a misfit. -/
def Misfits (records : Records) (catalog : TypeCatalog) : Record → Prop
  | .entity entity =>
    ∃ guid relationship, records guid = some (.relationship relationship) ∧
      relationship.header.isDeleted = false ∧ relationship.references entity.header.guid ∧
        ¬Fits (Function.update records entity.header.guid (some (.entity entity))) catalog
          relationship
  | .relationship relationship =>
    relationship.header.isDeleted = false ∧ ¬records.Fits catalog relationship
  | .proxy _ => False

variable {records stored : Records} {catalog larger : TypeCatalog} {guid : Guid}

theorem liveType?_of_entity {entity : Entity} (h : records guid = some (.entity entity)) :
    records.liveType? guid =
      if entity.header.isDeleted then none else some entity.header.typeName := by
  rw [liveType?, h]

theorem liveType?_eq_none (h : ∀ entity, records guid ≠ some (.entity entity)) :
    records.liveType? guid = none := by
  unfold liveType?
  split
  · rename_i entity hentity
    exact absurd hentity (h entity)
  · rfl

/-- A write under another identity leaves the type. -/
theorem liveType?_update_of_ne {other : Guid} (hne : guid ≠ other) (record : Option Record) :
    liveType? (Function.update records other record) guid = records.liveType? guid := by
  rw [liveType?, liveType?, Function.update_of_ne hne]

/-- A relationship fits if all live types at its ends were there when it fitted. -/
theorem Fits.of_types {relationship : Relationship} (h : records.Fits catalog relationship)
    (htypes : ∀ guid type, relationship.references guid →
      stored.liveType? guid = some type → records.liveType? guid = some type) :
    stored.Fits catalog relationship := by
  intro one two hone htwo
  refine h one two (htypes _ one ?_ hone) (htypes _ two ?_ htwo) <;>
    simp [Relationship.references]

/-- Only the type and the ends of a relationship matter. -/
theorem Fits.congr {relationship other : Relationship} (h : records.Fits catalog relationship)
    (htype : other.header.typeName = relationship.header.typeName)
    (hends : (Record.relationship other).endProxies =
      (Record.relationship relationship).endProxies) : records.Fits catalog other := by
  simp only [Record.endProxies, List.cons.injEq, and_true] at hends
  obtain ⟨hone, htwo⟩ := hends
  intro one two
  rw [Relationship.endOneGuid, Relationship.endTwoGuid, hone, htwo, htype]
  exact h one two

/-- What fits keeps fitting when the catalog grows. -/
theorem EndsFit.mono (h : records.EndsFit catalog) (hextends : catalog.Extends larger) :
    records.EndsFit larger :=
  fun guid relationship hstored hlive one two hone htwo =>
    hextends.checkEnds (h guid relationship hstored hlive one two hone htwo)

/-- All live relationships fit if each of them would have fitted before, and no live type is
new. -/
theorem EndsFit.of_types (records : Records)
    (hfits : ∀ guid relationship, stored guid = some (.relationship relationship) →
      relationship.header.isDeleted = false → records.Fits catalog relationship)
    (htypes : ∀ guid type, stored.liveType? guid = some type →
      records.liveType? guid = some type) : stored.EndsFit catalog :=
  fun guid relationship hstored hlive =>
    (hfits guid relationship hstored hlive).of_types fun guid type _ => htypes guid type

/-- The removal of records leaves no misfit. -/
theorem EndsFit.of_subset (h : records.EndsFit catalog)
    (hsubset : ∀ guid record, stored guid = some record → records guid = some record) :
    stored.EndsFit catalog := by
  refine .of_types records ?_ ?_
  · intro guid relationship hstored
    exact h guid relationship (hsubset _ _ hstored)
  intro guid type htype
  unfold liveType? at htype
  split at htype
  · rename_i entity hentity
    rwa [liveType?_of_entity (hsubset guid _ hentity)]
  · cases htype

/-! ### Writes -/

/-- The write of an entity keeps all live relationships fitting if the entity does not make one at
it a misfit. -/
theorem fits_update_entity_iff (h : records.EndsFit catalog) (entity : Entity) :
    (∀ guid relationship, records guid = some (.relationship relationship) →
      relationship.header.isDeleted = false →
        Fits (Function.update records entity.header.guid (some (.entity entity))) catalog
          relationship) ↔
    ¬records.Misfits catalog (.entity entity) := by
  constructor
  · rintro hfits ⟨guid, relationship, hstored, hlive, -, hmisfit⟩
    exact hmisfit (hfits guid relationship hstored hlive)
  · intro hfits guid relationship hstored hlive
    by_cases hreferences : relationship.references entity.header.guid
    · by_contra hmisfit
      exact hfits ⟨guid, relationship, hstored, hlive, hreferences, hmisfit⟩
    · -- nothing changes at the ends of a relationship that is not at the entity
      refine (h guid relationship hstored hlive).of_types fun other type hother => ?_
      have hne : other ≠ entity.header.guid := by
        rintro rfl
        exact hreferences hother
      rw [liveType?_update_of_ne hne]
      exact id

theorem endsFit_update_entity_iff (h : records.EndsFit catalog) {entity : Entity}
    (hfree : ∀ relationship, records entity.header.guid ≠ some (.relationship relationship)) :
    EndsFit (Function.update records entity.header.guid (some (.entity entity))) catalog ↔
      ¬records.Misfits catalog (.entity entity) := by
  rw [← fits_update_entity_iff h]
  -- the relationships stored afterwards are those stored before
  have hsame (guid : Guid) (relationship : Relationship) :
      Function.update records entity.header.guid (some (.entity entity)) guid =
          some (.relationship relationship) ↔
        records guid = some (.relationship relationship) := by
    by_cases hguid : guid = entity.header.guid
    · subst hguid
      rw [Function.update_self]
      exact iff_of_false (by simp) (hfree relationship)
    · rw [Function.update_of_ne hguid]
  simp only [EndsFit, hsame]

/-- A write under an identity where no live entity is and none is written leaves the live types. -/
theorem liveType?_update (hbefore : records.liveType? guid = none) (record : Record)
    (hafter : ∀ entity, record ≠ .entity entity) (other : Guid) :
    liveType? (Function.update records guid (some record)) other = records.liveType? other := by
  by_cases hother : other = guid
  · subst hother
    rw [hbefore]
    refine liveType?_eq_none fun entity => ?_
    rw [Function.update_self, Ne, Option.some.injEq]
    exact hafter entity
  · exact liveType?_update_of_ne hother _

/-- The write of a relationship keeps all live relationships fitting exactly if it fits itself. -/
theorem endsFit_update_relationship_iff (h : records.EndsFit catalog) {relationship : Relationship}
    (hfree : ∀ entity, records relationship.header.guid ≠ some (.entity entity)) :
    EndsFit (Function.update records relationship.header.guid (some (.relationship relationship)))
        catalog ↔ ¬records.Misfits catalog (.relationship relationship) := by
  have htypes := liveType?_update (liveType?_eq_none hfree) (.relationship relationship) (by simp)
  have hfits (other : Relationship) :
      Fits (Function.update records relationship.header.guid (some (.relationship relationship)))
        catalog other ↔ records.Fits catalog other := by
    simp only [Fits, htypes]
  simp only [EndsFit, hfits, Misfits, not_and, not_not]
  constructor
  · intro hall
    exact hall _ _ (Function.update_self ..)
  · intro hnew guid other hother hlive
    by_cases hguid : guid = relationship.header.guid
    · subst hguid
      rw [Function.update_self] at hother
      cases hother
      exact hnew hlive
    · rw [Function.update_of_ne hguid] at hother
      exact h guid other hother hlive

/-- The write of a proxy leaves no misfit. -/
theorem EndsFit.update_proxy (h : records.EndsFit catalog) (guid : Guid) (proxy : Proxy) :
    EndsFit (Function.update records guid (some (.proxy proxy))) catalog := by
  refine .of_types records ?_ ?_
  · intro other relationship hother
    by_cases hguid : other = guid
    · subst hguid
      rw [Function.update_self] at hother
      cases hother
    · rw [Function.update_of_ne hguid] at hother
      exact h other relationship hother
  · intro other type htype
    by_cases hguid : other = guid
    · subst hguid
      rw [liveType?_eq_none (by simp)] at htype
      cases htype
    · rwa [liveType?_update_of_ne hguid] at htype

/-! ### Records that cannot be misfits -/

/-- An entity that stays of its type is no misfit, also if it is deleted. -/
theorem not_misfits_of_entity (h : records.EndsFit catalog) {current next : Entity}
    (hcurrent : records next.header.guid = some (.entity current))
    (hlive : current.header.isDeleted = false)
    (htype : next.header.typeName = current.header.typeName) :
    ¬records.Misfits catalog (.entity next) := by
  rw [← fits_update_entity_iff h]
  refine fun guid relationship hstored hrelationship =>
    (h guid relationship hstored hrelationship).of_types fun other type _ htypes => ?_
  by_cases hguid : other = next.header.guid
  · subst hguid
    rw [liveType?_of_entity (Function.update_self ..)] at htypes
    rw [liveType?_of_entity hcurrent, hlive, ← htype]
    by_cases hdeleted : next.header.isDeleted
    · rw [if_pos hdeleted] at htypes
      cases htypes
    · rwa [if_neg hdeleted] at htypes
  · rwa [liveType?_update_of_ne hguid] at htypes

/-- A relationship that keeps its type and its ends is no misfit. -/
theorem not_misfits_of_relationship (h : records.EndsFit catalog) {current next : Relationship}
    (hcurrent : records guid = some (.relationship current))
    (hlive : current.header.isDeleted = false)
    (htype : next.header.typeName = current.header.typeName)
    (hends : (Record.relationship next).endProxies = (Record.relationship current).endProxies) :
    ¬records.Misfits catalog (.relationship next) :=
  fun ⟨_, hmisfit⟩ => hmisfit ((h guid current hcurrent hlive).congr htype hends)

end Records

/-- The operation writes a type or ends without comparing them with what is stored at the other
side: it gives an element another type, brings an element or its former content back, or creates an
entity under an identity that relationships may still have at an end. -/
def Operation.LooksAway : Operation → Prop
  | addEntity _ => True
  | change kind _ alteration =>
    match alteration with
    | .undo | .restore | .reType .. => True
    | .reIdentify _ => kind = .entity
    | _ => False
  | _ => False

namespace Collection

variable {collection : Collection} {call : Call} {fresh guid : Guid} {operation : Operation}
  {plan : Plan} {stored : Records}

/-! ## Creations -/

/-- A new entity fits if no live relationship that is already at its identity becomes a misfit. -/
theorem endsFit_of_planAddEntity_iff {entity : NewEntity}
    (hends : Records.EndsFit collection.store.latest collection.catalog)
    (hplan : collection.planAddEntity call fresh entity = .ok plan)
    (hrun : Records.runAll collection.store.latest plan.statements = .ok stored) :
    ∃ record, plan.reply = .written record ∧ (stored.EndsFit collection.catalog ↔
      ¬Records.Misfits collection.store.latest collection.catalog record) := by
  simp only [planAddEntity, Outcome.bind_eq_ok_iff, Outcome.pure_eq_ok_iff] at hplan
  obtain ⟨⟨⟩, -, ⟨⟩, -, typeRef, -, rfl⟩ := hplan
  obtain ⟨hnone, rfl⟩ := Records.runAll_put_eq_ok_iff.mp hrun
  refine ⟨_, rfl, Records.endsFit_update_entity_iff hends fun relationship hrelationship => ?_⟩
  cases hnone.symm.trans hrelationship

/-- A live entity that is stored in full at an end of a new relationship has the type of the proxy
that the relationship gets there. -/
theorem liveType?_of_endpoint (hcoherent : collection.store.Coherent) {parameter : String}
    {proxy : Proxy} (h : collection.endpoint guid parameter = .ok proxy) {type : TypeName}
    (htype : Records.liveType? collection.store.latest proxy.header.guid = some type) :
    proxy.header.typeName = type := by
  obtain ⟨record, hlatest, -, hheader, hlive⟩ := latest_of_endpoint h
  rw [guid_of_endpoint hcoherent h] at htype
  cases record with
  | entity entity =>
    have hsame : entity.header = proxy.header := hheader
    rw [Records.liveType?_of_entity hlatest, hsame, hlive] at htype
    exact Option.some.inj htype
  | proxy _ | relationship _ =>
    rw [Records.liveType?_eq_none (by simp [hlatest])] at htype
    cases htype

/-- A new relationship fits, as it is compared with the entities at its ends. -/
theorem endsFit_of_planAddRelationship (hcoherent : collection.store.Coherent)
    {relationship : NewRelationship}
    (hends : Records.EndsFit collection.store.latest collection.catalog)
    (hplan : collection.planAddRelationship call fresh relationship = .ok plan)
    (hrun : Records.runAll collection.store.latest plan.statements = .ok stored) :
    stored.EndsFit collection.catalog := by
  simp only [planAddRelationship, Outcome.bind_eq_ok_iff, Outcome.pure_eq_ok_iff] at hplan
  obtain ⟨⟨⟩, -, ⟨⟩, -, ⟨⟩, -, ⟨⟩, -, typeRef, htype, ⟨⟩, -, ⟨⟩, -, endOne, hone, endTwo, htwo, ⟨⟩,
    hcheck, rfl⟩ := hplan
  obtain ⟨hname, -⟩ := TypeCatalog.typeRef_eq_ok htype
  obtain ⟨htypeName, -, -⟩ :=
    collection.newHeader_states call fresh typeRef relationship.status relationship.source
  obtain ⟨hnone, rfl⟩ := Records.runAll_put_eq_ok_iff.mp hrun
  refine (Records.endsFit_update_relationship_iff hends ?_).mpr ?_
  · rintro entity hentity
    cases hnone.symm.trans hentity
  · rintro ⟨-, hmisfit⟩
    refine hmisfit fun one two htypeOne htypeTwo => ?_
    rw [htypeName, hname, ← liveType?_of_endpoint hcoherent hone htypeOne,
      ← liveType?_of_endpoint hcoherent htwo htypeTwo]
    exact hcheck

/-! ## Changes -/

/-- A change of an element keeps all live relationships fitting if its next version fits. -/
theorem endsFit_of_edits_iff (hcoherent : collection.store.Coherent)
    (hends : Records.EndsFit collection.store.latest collection.catalog) (kind : ElementKind)
    {current edited next : kind.Carrier}
    (hlatest : collection.store.latest guid = some (toRecord current))
    (hnext : Versioning.nextVersion current edited call.stamp = .ok next)
    (hrun : Records.runAll collection.store.latest (Plan.replace current next).statements =
      .ok stored) :
    stored.EndsFit collection.catalog ↔
      ¬Records.Misfits collection.store.latest collection.catalog (toRecord next) := by
  obtain ⟨-, rfl⟩ := Records.runAll_put_eq_ok_iff.mp hrun
  have hguid : Instance.guid next = guid := by
    rw [(Versioning.Succeeds.of_nextVersion hnext).guid_eq]
    exact hcoherent.element_guid_of_read hlatest
  have hsame : collection.store.latest (Instance.guid next) = some (toRecord current) := by
    rw [hguid, hlatest]
  cases kind with
  | entity =>
    refine Records.endsFit_update_entity_iff hends fun relationship hrelationship => ?_
    cases hsame.symm.trans hrelationship
  | relationship =>
    refine Records.endsFit_update_relationship_iff hends fun entity hentity => ?_
    cases hsame.symm.trans hentity

/-- All changes but undo, restore and re-type are made of a live element and keep its type and its
ends. -/
theorem Edits.keeps {α : Type} [TypedElement α] [EndsApart α] {current edited : α} {change : Change}
    (h : collection.Edits guid current change edited) (hundo : change ≠ .undo)
    (hrestore : change ≠ .restore) (htype : ∀ old new, change ≠ .reType old new) :
    (header current).isDeleted = false ∧ (header edited).typeName = (header current).typeName ∧
      (toRecord edited).endProxies = (toRecord current).endProxies := by
  refine ⟨?_, ?_, h.endProxies_eq hundo⟩
  · cases h with
    | restore => exact absurd rfl hrestore
    | _ => assumption
  · cases h with
    | undo => exact absurd rfl hundo
    | reType => exact absurd rfl (htype _ _)
    | properties => rw [header_setProperties]
    | status | delete | restore | reHome => rw [header_setHeader]

/-- What keeps its type and its ends is no misfit. -/
theorem not_misfits_of_edits (hcoherent : collection.store.Coherent)
    (hends : Records.EndsFit collection.store.latest collection.catalog) (kind : ElementKind)
    {current edited next : kind.Carrier}
    (hlatest : collection.store.latest guid = some (toRecord current))
    (hnext : Versioning.nextVersion current edited call.stamp = .ok next)
    (hlive : (header current).isDeleted = false)
    (htype : (header edited).typeName = (header current).typeName)
    (hsame : (toRecord edited).endProxies = (toRecord current).endProxies) :
    ¬Records.Misfits collection.store.latest collection.catalog (toRecord next) := by
  have hguid : (toRecord next).guid = guid := by
    rw [guid_toRecord]
    exact (Versioning.Succeeds.of_nextVersion hnext).guid_eq.trans
      (hcoherent.element_guid_of_read hlatest)
  rw [← hguid] at hlatest
  obtain ⟨-, -, rfl⟩ := Versioning.nextVersion_eq_ok_iff.mp hnext
  cases kind with
  | entity => exact Records.not_misfits_of_entity hends hlatest hlive htype
  | relationship => exact Records.not_misfits_of_relationship hends hlatest hlive htype hsame

/-- A purge leaves no misfit. -/
theorem endsFit_of_purge {edges : List Relationship}
    (hends : Records.EndsFit collection.store.latest collection.catalog)
    (hrun : Records.runAll collection.store.latest (Plan.purge guid edges).statements =
      .ok stored) : stored.EndsFit collection.catalog := by
  refine hends.of_subset fun other record hrecord => ?_
  rcases Records.runAll_cases hrun other with ⟨hkept, -⟩ | ⟨hnone, -⟩ | ⟨_, _, -, hmem, -⟩
  · rwa [hkept] at hrecord
  · cases hnone.symm.trans hrecord
  · exact absurd hmem Plan.put_not_mem_purge

/-- Whatever keeps the header of an entity leaves no misfit. -/
theorem endsFit_of_planRelabelled (hcoherent : collection.store.Coherent)
    (hends : Records.EndsFit collection.store.latest collection.catalog)
    {current labelled : Entity}
    (hlatest : collection.store.latest guid = some (.entity current))
    (hplan : planRelabelled call current labelled = .ok plan)
    (hheader : labelled.header = current.header)
    (hrun : Records.runAll collection.store.latest plan.statements = .ok stored) :
    stored.EndsFit collection.catalog := by
  simp only [planRelabelled, Outcome.bind_eq_ok_iff, Outcome.pure_eq_ok_iff,
    Versioning.update_eq_ok_iff] at hplan
  obtain ⟨next, ⟨hlive, hnext⟩, rfl⟩ := hplan
  have hstored : collection.store.latest guid = some (toRecord current) := hlatest
  refine (endsFit_of_edits_iff hcoherent hends .entity hstored hnext hrun).mpr ?_
  refine not_misfits_of_edits hcoherent hends .entity hstored hnext hlive ?_ rfl
  exact congrArg Header.typeName hheader

/-! ## Re-identifications -/

section ReIdentification

variable {current : Entity} {old new : Guid} {stamp : Stamp}

/-- What is stored after a re-identification is what it writes, or what was stored before. -/
theorem stored_reIdentification (hcoherent : collection.store.Coherent) (hne : new ≠ old)
    (hcurrent : collection.store.latest old = some (.entity current))
    (hnew : collection.store.latest new = none)
    (hrun : Records.runAll collection.store.latest
      (collection.reIdentification current old new stamp) = .ok stored) (guid : Guid) :
    stored guid =
      (collection.reIdentified current old new stamp guid).or (collection.store.latest guid) := by
  have hput (record : Record) := @put_mem_reIdentification_iff collection current old new stamp
    hcoherent hne hcurrent hnew record guid
  rcases Records.runAll_cases hrun guid with
    ⟨hkept, hunnamed⟩ | ⟨-, hmem⟩ | ⟨record, guard, hstored, hmem, hguid⟩
  · cases hwritten : collection.reIdentified current old new stamp guid with
    | none => rw [hkept, Option.none_or]
    | some record =>
      obtain ⟨guard, hmem, hguid⟩ := (hput record).mpr hwritten
      exact absurd hguid (hunnamed _ hmem)
  · exact absurd hmem (evict_not_mem_reIdentification guid)
  · rw [(hput record).mp ⟨guard, hmem, hguid⟩, hstored, Option.some_or]

/-- The relationships that are stored after a re-identification are those that were stored before,
moved if they were at the entity. -/
theorem stored_relationship_iff (hcurrent : collection.store.latest old = some (.entity current))
    (hnew : collection.store.latest new = none)
    (hstored : ∀ guid, stored guid =
      (collection.reIdentified current old new stamp guid).or (collection.store.latest guid))
    {relationship : Relationship} :
    stored guid = some (.relationship relationship) ↔
      ∃ before, collection.store.latest guid = some (.relationship before) ∧
        relationship = if before.references old then
          before.moved old (collection.renamedProxy current new stamp) stamp else before := by
  rw [hstored, reIdentified]
  by_cases hold : guid = old
  · subst hold
    simp [hcurrent]
  by_cases hother : guid = new
  · subst hother
    simp [hold, hnew]
  rw [if_neg hold, if_neg hother]
  cases hlatest : collection.store.latest guid with
  | none => simp
  | some record =>
    cases record with
    | entity _ | proxy _ => simp
    | relationship before =>
      simp only [Option.some.injEq, Record.relationship.injEq, exists_eq_left']
      by_cases hreferences : before.references old
      · rw [if_pos hreferences, if_pos hreferences, Option.some_or, Option.some.injEq,
          Record.relationship.injEq, eq_comm]
      · rw [if_neg hreferences, if_neg hreferences, Option.none_or, Option.some.injEq,
          Record.relationship.injEq, eq_comm]

/-- Where an end is moved to the new identity, it finds the type that it had at the old one. -/
theorem liveType?_stored (hne : new ≠ old)
    (hcurrent : collection.store.latest old = some (.entity current))
    (hstored : ∀ guid, stored guid =
      (collection.reIdentified current old new stamp guid).or (collection.store.latest guid))
    (guid : Guid) :
    stored.liveType? (if guid = old then new else guid) =
      Records.liveType? (Function.update collection.store.latest new
        (some (.entity (Versioning.renamed current new stamp)))) guid := by
  have hcreated : stored new = some (.entity (Versioning.renamed current new stamp)) := by
    rw [hstored, reIdentified_new hne, Option.some_or]
  by_cases hold : guid = old
  · subst hold
    rw [if_pos rfl, Records.liveType?_update_of_ne hne.symm, Records.liveType?_of_entity hcreated,
      Records.liveType?_of_entity hcurrent]
    rfl
  rw [if_neg hold]
  by_cases hother : guid = new
  · subst hother
    rw [Records.liveType?_of_entity hcreated, Records.liveType?_of_entity (Function.update_self ..)]
  rw [Records.liveType?_update_of_ne hother, Records.liveType?, Records.liveType?, hstored,
    reIdentified, if_neg hold, if_neg hother]
  -- what is moved is a relationship, before and after
  cases hlatest : collection.store.latest guid with
  | none => rfl
  | some record =>
    cases record with
    | entity _ | proxy _ => rfl
    | relationship before =>
      by_cases hreferences : before.references old
      · simp [hreferences]
      · simp [hreferences]

/-- A re-identified entity takes its relationships along and fits, if no live relationship that is
already at the new identity becomes a misfit. -/
theorem endsFit_of_reIdentify_entity_iff (hcoherent : collection.store.Coherent)
    (hends : Records.EndsFit collection.store.latest collection.catalog) (hne : new ≠ old)
    (hcurrent : collection.store.latest old = some (.entity current))
    (hrun : Records.runAll collection.store.latest
      (collection.reIdentification current old new stamp) = .ok stored) :
    stored.EndsFit collection.catalog ↔ ¬Records.Misfits collection.store.latest
      collection.catalog (.entity (Versioning.renamed current new stamp)) := by
  have hnew : collection.store.latest new = none :=
    (Records.runAll_create hrun (evict_not_mem_moves current new stamp)).1
  have hstored := stored_reIdentification hcoherent hne hcurrent hnew hrun
  have htypes := liveType?_stored hne hcurrent hstored
  -- a relationship fits afterwards exactly if it fitted once the entity was under both identities
  have hfits (before : Relationship) :
      stored.Fits collection.catalog (if before.references old then
          before.moved old (collection.renamedProxy current new stamp) stamp else before) ↔
        Records.Fits (Function.update collection.store.latest new
          (some (.entity (Versioning.renamed current new stamp)))) collection.catalog before := by
    have hend (proxy : Proxy) : (if proxy.header.guid = old then
        collection.renamedProxy current new stamp else proxy).header.guid =
          if proxy.header.guid = old then new else proxy.header.guid := by
      split <;> rfl
    by_cases hreferences : before.references old
    · rw [if_pos hreferences, Records.Fits, Records.Fits]
      simp only [Relationship.endOneGuid, Relationship.endTwoGuid, Relationship.moved, hend, htypes]
      rfl
    · simp only [Relationship.references, Bool.or_eq_true, decide_eq_true_eq, not_or] at hreferences
      rw [if_neg (by simpa [Relationship.references] using hreferences), Records.Fits,
        Records.Fits, ← htypes, ← htypes, if_neg hreferences.1, if_neg hreferences.2]
  rw [← Records.fits_update_entity_iff hends]
  constructor
  · intro hafter guid before hbefore hlive
    refine (hfits before).mp (hafter guid _
      ((stored_relationship_iff hcurrent hnew hstored).mpr ⟨before, hbefore, rfl⟩) ?_)
    split <;> exact hlive
  · intro hbefore guid relationship hrelationship hlive
    obtain ⟨before, hlatest, rfl⟩ :=
      (stored_relationship_iff hcurrent hnew hstored).mp hrelationship
    refine (hfits before).mpr (hbefore guid before hlatest ?_)
    split at hlive <;> exact hlive

end ReIdentification

/-- A re-identified relationship keeps its type and its ends. -/
theorem endsFit_of_reIdentify_relationship (hcoherent : collection.store.Coherent)
    (hends : Records.EndsFit collection.store.latest collection.catalog) {current : Relationship}
    {newGuid : Guid} {stamp : Stamp}
    (hlatest : collection.store.latest guid = some (.relationship current))
    (hlive : current.header.isDeleted = false)
    (hrun : Records.runAll collection.store.latest (collection.moves current guid newGuid stamp ++
      [.create (.relationship (Versioning.renamed current newGuid stamp))]) = .ok stored) :
    stored.EndsFit collection.catalog := by
  have hguid : current.header.guid = guid := hcoherent.guid_of_read hlatest
  -- the old identity is written first, then the new one
  have hrun : Records.runAll collection.store.latest
      [.replace (version current) (.relationship (Versioning.retired current stamp)),
        .create (.relationship (Versioning.renamed current newGuid stamp))] = .ok stored := hrun
  rw [Records.runAll_cons, Outcome.bind_eq_ok_iff] at hrun
  obtain ⟨retired, hretired, hcreate⟩ := hrun
  obtain ⟨-, rfl⟩ := Records.run_put_eq_ok_iff.mp hretired
  obtain ⟨hnone, rfl⟩ := Records.runAll_put_eq_ok_iff.mp hcreate
  have hnotEntity : ∀ entity, collection.store.latest
      (Versioning.retired current stamp).header.guid ≠ some (.entity entity) := by
    intro entity hentity
    have hentity : collection.store.latest current.header.guid = some (.entity entity) := hentity
    rw [hguid, hlatest] at hentity
    cases hentity
  have htypes := Records.liveType?_update (Records.liveType?_eq_none hnotEntity)
    (.relationship (Versioning.retired current stamp)) (by simp)
  have hafter : Records.EndsFit (Function.update collection.store.latest
      (Versioning.retired current stamp).header.guid
        (some (.relationship (Versioning.retired current stamp)))) collection.catalog := by
    refine (Records.endsFit_update_relationship_iff hends hnotEntity).mpr ?_
    rintro ⟨hlive, -⟩
    cases hlive
  refine (Records.endsFit_update_relationship_iff hafter ?_).mpr ?_
  · intro entity hentity
    cases hnone.symm.trans hentity
  · rintro ⟨-, hmisfit⟩
    refine hmisfit (((hends guid current hlatest hlive).congr rfl rfl).of_types ?_)
    intro other type _ htype
    rwa [htypes] at htype

/-! ## Operations -/

/-- What a plan writes does not fit what is stored. -/
def PlansMisfit (collection : Collection) (plan : Plan) : Prop :=
  ∃ record, plan.reply = .written record ∧
    Records.Misfits collection.store.latest collection.catalog record

theorem plansMisfit_iff {record : Record} (hreply : plan.reply = .written record) :
    collection.PlansMisfit plan ↔
      Records.Misfits collection.store.latest collection.catalog record := by
  simp [PlansMisfit, hreply]

/-- A change of an element keeps all live relationships fitting exactly if it looks at them, or its
next version fits. -/
theorem endsFit_of_planChange_iff (hcoherent : collection.store.Coherent)
    (hends : Records.EndsFit collection.store.latest collection.catalog) {kind : ElementKind}
    {change : Change} (hplan : collection.planChange kind.Carrier call guid change = .ok plan)
    (hrun : Records.runAll collection.store.latest plan.statements = .ok stored) :
    stored.EndsFit collection.catalog ↔
      ¬((Operation.change kind guid change).LooksAway ∧ collection.PlansMisfit plan) := by
  by_cases hpurge : change = .purge
  · subst hpurge
    rw [planPurge_eq_ok hplan] at hrun
    exact iff_of_true (endsFit_of_purge hends hrun) fun ⟨haway, _⟩ => haway
  by_cases hidentity : ∃ newGuid, change = .reIdentify newGuid
  · obtain ⟨newGuid, rfl⟩ := hidentity
    obtain ⟨current, hlatest, hne, -, hstatements, hreply⟩ := planReIdentify_eq_ok hplan
    rw [plansMisfit_iff hreply]
    rw [hstatements] at hrun
    cases kind with
    | entity =>
      rw [Operation.LooksAway, eq_self, true_and]
      exact endsFit_of_reIdentify_entity_iff hcoherent hends hne hlatest hrun
    | relationship =>
      have hlive := live_of_planReIdentify hlatest hplan
      exact iff_of_true (endsFit_of_reIdentify_relationship hcoherent hends hlatest hlive hrun)
        fun ⟨haway, _⟩ => ElementKind.noConfusion haway
  · obtain ⟨current, edited, next, hlatest, hedits, hnext, rfl⟩ :=
      planChange_edits hpurge (not_exists.mp hidentity) hplan
    have hiff : stored.EndsFit collection.catalog ↔
        ¬collection.PlansMisfit (.replace current next) := by
      rw [plansMisfit_iff rfl]
      cases kind <;> exact endsFit_of_edits_iff hcoherent hends _ hlatest hnext hrun
    by_cases haway : (Operation.change kind guid change).LooksAway
    · rw [and_iff_right haway]
      cases kind <;> exact hiff
    · -- what remains keeps types and ends
      have hundo : change ≠ .undo := by
        rintro rfl
        exact haway trivial
      have hrestore : change ≠ .restore := by
        rintro rfl
        exact haway trivial
      have hreType (old new : TypeName) : change ≠ .reType old new := by
        rintro rfl
        exact haway trivial
      refine iff_of_true (hiff.mpr ?_) fun h => haway h.1
      rw [plansMisfit_iff rfl]
      cases kind with
      | entity =>
        obtain ⟨hlive, htype, hsame⟩ := Edits.keeps (α := Entity) hedits hundo hrestore hreType
        exact not_misfits_of_edits hcoherent hends .entity hlatest hnext hlive htype hsame
      | relationship =>
        obtain ⟨hlive, htype, hsame⟩ :=
          Edits.keeps (α := Relationship) hedits hundo hrestore hreType
        exact not_misfits_of_edits hcoherent hends .relationship hlatest hnext hlive htype hsame

/-- An operation on the collection's own instances and proxies keeps all live relationships fitting
exactly if it looks at them, or what it writes fits. -/
theorem endsFit_of_plan_iff (hcoherent : collection.store.Coherent)
    (hends : Records.EndsFit collection.store.latest collection.catalog)
    (hlocal : operation.IsLocal) (hplan : collection.plan call fresh operation = .ok plan)
    (hrun : Records.runAll collection.store.latest plan.statements = .ok stored) :
    stored.EndsFit collection.catalog ↔
      ¬(operation.LooksAway ∧ collection.PlansMisfit plan) := by
  have hlooks (hfits : stored.EndsFit collection.catalog) (hnot : ¬operation.LooksAway) :
      stored.EndsFit collection.catalog ↔
        ¬(operation.LooksAway ∧ collection.PlansMisfit plan) :=
    iff_of_true hfits fun ⟨haway, _⟩ => hnot haway
  cases operation with
  | addEntity entity =>
    obtain ⟨record, hreply, hiff⟩ := endsFit_of_planAddEntity_iff hends hplan hrun
    rw [plansMisfit_iff hreply, Operation.LooksAway, true_and]
    exact hiff
  | addRelationship relationship =>
    exact hlooks (endsFit_of_planAddRelationship hcoherent hends hplan hrun) not_false
  | addProxy proxy =>
    refine hlooks ?_ not_false
    simp only [Collection.plan, planAddProxy, Outcome.bind_eq_ok_iff] at hplan
    obtain ⟨⟨⟩, -, ⟨⟩, -, type, -, hplan⟩ := hplan
    split at hplan
    · cases Outcome.pure_eq_ok_iff.mp hplan
      cases hrun
      exact hends
    · cases Outcome.pure_eq_ok_iff.mp hplan
      obtain ⟨-, rfl⟩ := Records.runAll_put_eq_ok_iff.mp hrun
      exact hends.update_proxy _ proxy
  | change kind target change => exact endsFit_of_planChange_iff hcoherent hends hplan hrun
  | classify target name source origin properties =>
    refine hlooks ?_ not_false
    simp only [Collection.plan, planClassify, Outcome.bind_eq_ok_iff] at hplan
    obtain ⟨⟨⟩, -, current, hcurrent, ⟨⟩, -, ⟨⟩, -, hplan⟩ := hplan
    exact endsFit_of_planRelabelled hcoherent hends (latest_of_forLabelling hcurrent) hplan rfl hrun
  | declassify target name =>
    refine hlooks ?_ not_false
    simp only [Collection.plan, planDeclassify, Outcome.bind_eq_ok_iff] at hplan
    obtain ⟨⟨⟩, -, current, hcurrent, ⟨⟩, -, hplan⟩ := hplan
    exact endsFit_of_planRelabelled hcoherent hends (latest_of_forLabelling hcurrent) hplan rfl hrun
  | reclassify target name properties =>
    refine hlooks ?_ not_false
    simp only [Collection.plan, planReclassify, Outcome.bind_eq_ok_iff] at hplan
    obtain ⟨⟨⟩, -, current, hcurrent, classification, -, ⟨⟩, -, hplan⟩ := hplan
    exact endsFit_of_planRelabelled hcoherent hends (latest_of_forLabelling hcurrent) hplan rfl hrun
  | saveEntity | saveRelationship | purgeCopy | saveClassification | purgeClassification =>
    exact absurd hlocal (by simp [Operation.IsLocal, Operation.IsLifecycle])

/-! ## Runs -/

/-- The event is an accepted operation that does not look at the other side, and what it writes does
not fit what is stored. -/
def BringsMisfit (collection : Collection) (event : Event) : Prop :=
  ∃ call fresh operation next record, event = .operate call fresh operation ∧
    operation.LooksAway ∧
      collection.execute call fresh operation = .ok (next, .written record) ∧
        Records.Misfits collection.store.latest collection.catalog record

/-- An event on the collection's own instances and proxies keeps all live relationships fitting
exactly if it does not bring a misfit. -/
theorem endsFit_after_iff (hreachable : collection.Reachable) {event : Event}
    (hlocal : event.IsLocal)
    (hends : Records.EndsFit collection.store.latest collection.catalog) :
    Records.EndsFit (collection.after event).store.latest (collection.after event).catalog ↔
      ¬collection.BringsMisfit event := by
  cases event with
  | addType type =>
    refine iff_of_true (hends.mono (collection.catalog.extends_add type)) ?_
    rintro ⟨_, _, _, _, _, hevent, -⟩
    cases hevent
  | operate call fresh operation =>
    cases hexecute : collection.execute call fresh operation with
    | error failure =>
      rw [after_eq_of_error hexecute]
      refine iff_of_true hends ?_
      rintro ⟨_, _, _, _, _, ⟨⟩, -, hok, -⟩
      cases hexecute.symm.trans hok
    | ok result =>
      obtain ⟨next, reply⟩ := result
      obtain ⟨plan, hplan, hreply, hrun⟩ := runAll_of_execute hexecute
      rw [after_eq_of_ok hexecute, catalog_of_execute hexecute,
        endsFit_of_plan_iff hreachable.store.coherent hends hlocal hplan hrun, not_iff_not]
      constructor
      · rintro ⟨haway, record, hwritten, hmisfit⟩
        rw [← hreply, hwritten] at hexecute
        exact ⟨call, fresh, operation, next, record, rfl, haway, hexecute, hmisfit⟩
      · rintro ⟨_, _, _, _, record, ⟨⟩, haway, hok, hmisfit⟩
        cases hexecute.symm.trans hok
        exact ⟨haway, record, hreply, hmisfit⟩

/-- In a run from an empty store of operations on the collection's own instances and proxies, all
live relationships fit the live entities at their ends throughout if and only if no operation in it
brings a misfit. -/
theorem endsFit_iff (config : CollectionConfig) (catalog : TypeCatalog) {events : List Event}
    (hlocal : ∀ event ∈ events, event.IsLocal) :
    (∀ part, part <+: events →
      Records.EndsFit (run ⟨config, catalog, .empty⟩ part).store.latest
        (run ⟨config, catalog, .empty⟩ part).catalog) ↔
    ∀ part event, part ++ [event] <+: events →
      ¬(run ⟨config, catalog, .empty⟩ part).BringsMisfit event := by
  refine throughout_iff
    (fun collection => Records.EndsFit collection.store.latest collection.catalog)
    (fun collection event => ¬collection.BringsMisfit event) ?_ fun part event hevent hends => ?_
  · rintro guid relationship hrelationship
    cases hrelationship
  · have hmem : event ∈ events := hevent.subset (List.mem_append_right _ List.mem_cons_self)
    exact endsFit_after_iff ((Reachable.start config catalog).run part) (hlocal event hmem) hends

/-- A run in which an asset that is derived from itself gets the type of datasets, which are
assets. -/
private def datasetEvents : List Event :=
  let call : Call := ⟨"ada", .earliest⟩
  [.addType ⟨"Asset", .entity, none, [], [], [], none, []⟩,
    .addType ⟨"Dataset", .entity, some "Asset", [], [], [], none, []⟩,
    .addType ⟨"Person", .entity, none, [], [], [], none, []⟩,
    .addType ⟨"DerivedFrom", .relationship, none, [], [], [], some ("Asset", "Asset"), []⟩,
    .operate call "asset" (.addEntity ⟨"Asset", ∅, [], .active, none⟩),
    .operate call "link" (.addRelationship ⟨"DerivedFrom", ∅, "asset", "asset", .active, none⟩),
    .operate call "" (.change .entity "asset" (.reType "Asset" "Dataset"))]

/-- No operation in it brings a misfit, so that all live relationships fit throughout. -/
theorem endsFit_datasetEvents :
    (∀ part, part <+: datasetEvents →
      Records.EndsFit (run ⟨default, ∅, .empty⟩ part).store.latest
        (run ⟨default, ∅, .empty⟩ part).catalog) ∧
    Records.liveType? (run ⟨default, ∅, .empty⟩ datasetEvents).store.latest "asset" =
      some "Dataset" := by
  have hlocal : ∀ event ∈ datasetEvents, event.IsLocal := by
    simp [datasetEvents, Event.IsLocal, Operation.IsLocal, Operation.IsLifecycle]
  refine ⟨(endsFit_iff default ∅ hlocal).mpr ?_, by decide⟩
  rintro part event ⟨rest, hrest⟩
    ⟨call, fresh, operation, next, record, rfl, haway, hexecute, hmisfit⟩
  -- the event and the events before it are known from their number
  have hget : datasetEvents[part.length]? = some (.operate call fresh operation) := by
    rw [← hrest]
    simp
  have hpart : datasetEvents.take part.length = part := by
    rw [← hrest]
    simp
  have hlength : part.length < 7 := (List.getElem?_eq_some_iff.mp hget).1
  rw [← hpart] at hexecute hmisfit
  generalize part.length = position at hget hexecute hmisfit hlength
  interval_cases position <;> cases hget
  · -- when the asset is added, there is no relationship
    cases hexecute
    obtain ⟨guid, relationship, hnone, -⟩ := hmisfit
    cases hnone
  · cases haway
  · -- when it gets another type, there is one that is content with datasets
    cases hexecute
    obtain ⟨guid, relationship, hstored, -, -, hmisfit⟩ := hmisfit
    have hkeys : guid ∈ ["asset", "link"] :=
      NameMap.mem_keys_iff.mpr (Store.isSome_get?_of_read hstored)
    rcases List.mem_pair.mp hkeys with rfl | rfl
    · cases hstored
    · cases hstored
      refine hmisfit fun one two hone htwo => ?_
      cases hone
      cases htwo
      decide

/-- If the dataset gets the type of persons then, the relationship that derives it from itself stays
and connects two persons, which its type forbids. -/
theorem misfit_datasetEvents :
    let retype : Event := .operate ⟨"ada", .earliest⟩ ""
      (.change .entity "asset" (.reType "Dataset" "Person"))
    let final := run ⟨default, ∅, .empty⟩ (datasetEvents ++ [retype])
    (∀ event ∈ datasetEvents ++ [retype], event.IsLocal) ∧
      Records.liveType? final.store.latest "asset" = some "Person" ∧
      (∃ relationship, final.store.latest "link" = some (.relationship relationship) ∧
        relationship.header.isDeleted = false ∧ relationship.endOneGuid = "asset" ∧
          relationship.endTwoGuid = "asset" ∧
            final.catalog.checkEnds relationship.header.typeName "Person" "Person" =
              .error (.refused (.typeMismatch "Asset" "Person"))) ∧
      ¬Records.EndsFit final.store.latest final.catalog := by
  intro retype final
  have hperson : Records.liveType? final.store.latest "asset" = some "Person" := by decide
  have hlink : ∃ relationship, final.store.latest "link" = some (.relationship relationship) ∧
      relationship.header.isDeleted = false ∧ relationship.endOneGuid = "asset" ∧
        relationship.endTwoGuid = "asset" ∧
          final.catalog.checkEnds relationship.header.typeName "Person" "Person" =
            .error (.refused (.typeMismatch "Asset" "Person")) :=
    ⟨_, rfl, by decide, by decide, by decide, by decide⟩
  refine ⟨?_, hperson, hlink, ?_⟩
  · simp [retype, datasetEvents, Event.IsLocal, Operation.IsLocal, Operation.IsLifecycle]
  · intro hends
    obtain ⟨relationship, hlatest, hlive, hone, htwo, herror⟩ := hlink
    have hfits := hends "link" relationship hlatest hlive "Person" "Person" (hone ▸ hperson)
      (htwo ▸ hperson)
    cases herror.symm.trans hfits

end Collection

end MetadataGraph

import MetadataGraph.Proofs.Catalog
import MetadataGraph.Proofs.Collection.Copies
import MetadataGraph.Proofs.Collection.StatusInvariant

/-!
# Conforming instances

What is stored conforms to the types: an operation checks it before it writes, and no check that has
passed is refused when types are added. Two things are not looked at, as what the operations make
themselves gives no cause for it: the status on delete where a live instance gets another type, and
the own name of a classification that is filed under another one. We prove:

* `Record.Suits.mono`: what suits a catalog suits it when it has grown;
* `suits_of_plan`: all that an operation plans to write suits the catalog;
* `conforms_run`: in a run all revisions conform, at any later time, up to the status on delete of
  live instances and up to the classifications; fully if neither such a status nor a classification
  under another name is handed over;
* `not_conforms_copies`: with either of them a revision may not conform.
-/

namespace MetadataGraph

open Element Instance

/-! ## Conforming records -/

/-- A classification suits the entities of a type: it applies to the type and has no properties but
those that are declared. -/
structure TypeCatalog.AdmitsLabel (catalog : TypeCatalog) (entityType : TypeName)
    (label : Classification) : Prop where
  /-- It applies to the type. -/
  applies : catalog.checkClassification label.name entityType = .ok ()
  /-- Its properties are declared. -/
  properties : catalog.checkProperties label.name label.properties = .ok ()

namespace Record

/-- The category of the type of a full instance; a proxy is none. -/
def category? : Record → Option TypeCategory
  | entity _ => some .entity
  | proxy _ => none
  | relationship _ => some .relationship

/-- The checks of the type, the properties and the status of a record pass. -/
structure Admitted (record : Record) (catalog : TypeCatalog) (category : TypeCategory) :
    Prop where
  /-- The type is defined with the category. -/
  type : ∃ type, catalog.find record.header.typeName category = .ok type
  /-- The properties are declared. -/
  properties : catalog.checkProperties record.header.typeName record.properties = .ok ()
  /-- The type allows for the status. -/
  status : catalog.checkStatus record.header.typeName record.header.status = .ok ()

/-- The type of a full instance allows for the status on delete. -/
def AdmittedOnDelete (record : Record) (catalog : TypeCatalog) : Prop :=
  ∀ category status, record.category? = some category →
    record.header.statusOnDelete = some status →
      catalog.checkStatus record.header.typeName status = .ok ()

/-- The classifications of a record suit its type. -/
def AdmittedLabels (record : Record) (catalog : TypeCatalog) : Prop :=
  ∀ name label, record.classifications.get? name = some label →
    catalog.AdmitsLabel record.header.typeName label

/-- A full instance conforms to the types if all checks pass, those of the status on delete and of
the classifications too. Nothing is asked of proxies. -/
structure Conforms (record : Record) (catalog : TypeCatalog) : Prop where
  /-- The checks of the type, the properties and the status pass. -/
  admitted : ∀ category, record.category? = some category → record.Admitted catalog category
  /-- So does that of the status on delete. -/
  onDelete : record.AdmittedOnDelete catalog
  /-- So do those of the classifications. -/
  labels : record.AdmittedLabels catalog

/-- A full instance has a status on delete although it is live. -/
def HasStrayStatus (record : Record) : Prop :=
  record.category?.isSome ∧ record.header.isDeleted = false ∧ record.header.statusOnDelete.isSome

/-- A classification is filed under another name than its own. -/
def HasMisfiledLabel (record : Record) : Prop :=
  ∃ name label, record.classifications.get? name = some label ∧ label.name ≠ name

end Record

/-- What is found among the records that callers hand over, although they conform. -/
structure Lapses where
  /-- A live instance has a status on delete. -/
  stray : Prop
  /-- A classification is filed under another name than its own. -/
  misfiled : Prop

/-- The status on delete of a deleted instance is one of its type; a live instance has none, but for
a lapse. -/
def TypeCatalog.AdmitsOnDelete (catalog : TypeCatalog) (lapses : Lapses) (header : Header) : Prop :=
  ∀ status, header.statusOnDelete = some status →
    if header.isDeleted then catalog.checkStatus header.typeName status = .ok () else lapses.stray

/-- All classifications of an entity are filed under their own names and suit its type, but for a
lapse. -/
def TypeCatalog.AdmitsLabels (catalog : TypeCatalog) (lapses : Lapses) (entityType : TypeName)
    (labels : NameMap Classification) : Prop :=
  ∀ name label, labels.get? name = some label →
    label.name = name ∧ catalog.AdmitsLabel entityType label ∨ lapses.misfiled

/-- What operations keep of all records, given the lapses among those handed over. -/
def Record.Suits (record : Record) (catalog : TypeCatalog) (lapses : Lapses) : Prop :=
  ∀ category, record.category? = some category →
    record.Admitted catalog category ∧ catalog.AdmitsOnDelete lapses record.header ∧
      catalog.AdmitsLabels lapses record.header.typeName record.classifications

/-- Classifications that suit a type suit it when the catalog has grown. -/
theorem TypeCatalog.AdmitsLabels.mono {catalog larger : TypeCatalog} {lapses : Lapses}
    {entityType : TypeName} {labels : NameMap Classification}
    (h : catalog.AdmitsLabels lapses entityType labels) (hextends : catalog.Extends larger) :
    larger.AdmitsLabels lapses entityType labels :=
  fun name label hlabel => (h name label hlabel).imp_left fun ⟨hname, hold⟩ =>
    ⟨hname, hextends.checkClassification hold.applies, hextends.checkProperties hold.properties⟩

namespace Record

variable {record other : Record} {catalog larger : TypeCatalog} {category : TypeCategory}
  {lapses : Lapses}

/-- A record whose checks pass is admitted when the catalog has grown. -/
theorem Admitted.mono (h : record.Admitted catalog category) (hextends : catalog.Extends larger) :
    record.Admitted larger category where
  type := h.type.imp fun _ => hextends.find
  properties := hextends.checkProperties h.properties
  status := hextends.checkStatus h.status

/-- What suits a catalog suits it when it has grown. -/
theorem Suits.mono (h : record.Suits catalog lapses) (hextends : catalog.Extends larger) :
    record.Suits larger lapses := by
  intro category hcategory
  obtain ⟨hadmitted, hondelete, hlabels⟩ := h category hcategory
  refine ⟨hadmitted.mono hextends, fun status hstatus => ?_, hlabels.mono hextends⟩
  have hold := hondelete status hstatus
  -- only the status on delete of a deleted instance is up to the types
  split at hold
  · rename_i hdeleted
    rw [if_pos hdeleted]
    exact hextends.checkStatus hold
  · rename_i hlive
    rwa [if_neg hlive]

/-- What conforms suits the catalog, up to its lapses. -/
theorem Conforms.suits (h : record.Conforms catalog)
    (hstray : record.HasStrayStatus → lapses.stray)
    (hmisfiled : record.HasMisfiledLabel → lapses.misfiled) : record.Suits catalog lapses := by
  intro category hcategory
  refine ⟨h.admitted category hcategory, fun status hstatus => ?_, fun name label hlabel => ?_⟩
  · split
    · exact h.onDelete category status hcategory hstatus
    · rename_i hlive
      exact hstray ⟨hcategory ▸ rfl, eq_false_of_ne_true hlive, hstatus ▸ rfl⟩
  · by_cases hname : label.name = name
    · exact Or.inl ⟨hname, h.labels name label hlabel⟩
    · exact Or.inr (hmisfiled ⟨name, label, hlabel, hname⟩)

/-- The type of what suits the catalog allows for the status on delete, if it is deleted or there is
no lapse. -/
theorem Suits.onDelete (h : record.Suits catalog lapses)
    (hdeleted : record.header.isDeleted ∨ ¬lapses.stray) : record.AdmittedOnDelete catalog := by
  intro category status hcategory hstatus
  have hondelete := (h category hcategory).2.1 status hstatus
  split at hondelete
  · exact hondelete
  · rename_i hlive
    exact absurd hondelete (hdeleted.resolve_left hlive)

/-- The classifications of what suits the catalog suit its type, if there is no lapse. -/
theorem Suits.labels (h : record.Suits catalog lapses) (hfiled : ¬lapses.misfiled) :
    record.AdmittedLabels catalog := by
  intro name label hlabel
  cases record with
  | entity => exact (((h .entity rfl).2.2 name label hlabel).resolve_right hfiled).2
  | proxy => cases hlabel
  | relationship => cases hlabel

/-- Nothing but the kind, the type, the states and the content of a record counts. -/
theorem Suits.congr (h : record.Suits catalog lapses)
    (hcategory : other.category? = record.category?)
    (htype : other.header.typeName = record.header.typeName)
    (hstatus : other.header.status = record.header.status)
    (hondelete : other.header.statusOnDelete = record.header.statusOnDelete)
    (hproperties : other.properties = record.properties)
    (hlabels : other.classifications = record.classifications) : other.Suits catalog lapses := by
  intro category hother
  obtain ⟨⟨htype', hproperties', hstatus'⟩, hondelete', hlabels'⟩ :=
    h category (hcategory ▸ hother)
  have hdeleted : other.header.isDeleted = record.header.isDeleted :=
    congrArg Status.isDeleted hstatus
  refine ⟨⟨?_, ?_, ?_⟩, ?_, ?_⟩
  · rwa [htype]
  · rwa [htype, hproperties]
  · rwa [htype, hstatus]
  · rw [TypeCatalog.AdmitsOnDelete, hondelete, hdeleted, htype]
    exact hondelete'
  · rwa [htype, hlabels]

/-- Nothing is asked of a proxy. -/
theorem suits_proxy (p : Proxy) : (Record.proxy p).Suits catalog lapses := nofun

end Record

/-! ## Elements -/

/-- A catalog sees of an element its header, its properties and its classifications, and they do not
reach into each other. -/
class Catalogued (α : Type) [TypedElement α] : Prop where
  /-- The record of an element has its category. -/
  category?_toRecord : ∀ a : α, (toRecord a).category? = some (category α)
  /-- The record of an element has its properties. -/
  properties_toRecord : ∀ a : α, (toRecord a).properties = properties a
  /-- A new header leaves the properties. -/
  properties_setHeader : ∀ (a : α) (h : Header), properties (setHeader a h) = properties a
  /-- A new header leaves the classifications. -/
  classifications_setHeader : ∀ (a : α) (h : Header),
    (toRecord (setHeader a h)).classifications = (toRecord a).classifications
  /-- New properties are read back. -/
  properties_setProperties : ∀ (a : α) (p : Properties), properties (setProperties a p) = p
  /-- New properties leave the classifications. -/
  classifications_setProperties : ∀ (a : α) (p : Properties),
    (toRecord (setProperties a p)).classifications = (toRecord a).classifications
  /-- The parts of an element that fit a type are its classifications. -/
  applies_of_checkParts : ∀ (catalog : TypeCatalog) (type : TypeName) (a : α),
    TypedElement.checkParts catalog type a = .ok () →
      ∀ name ∈ (toRecord a).classifications.keys, catalog.checkClassification name type = .ok ()

instance : Catalogued Entity where
  category?_toRecord _ := rfl
  properties_toRecord _ := rfl
  properties_setHeader _ _ := rfl
  classifications_setHeader _ _ := rfl
  properties_setProperties _ _ := rfl
  classifications_setProperties _ _ := rfl
  applies_of_checkParts _ _ _ := Outcome.forM_eq_ok_iff.mp

instance : Catalogued Relationship where
  category?_toRecord _ := rfl
  properties_toRecord _ := rfl
  properties_setHeader _ _ := rfl
  classifications_setHeader _ _ := rfl
  properties_setProperties _ _ := rfl
  classifications_setProperties _ _ := rfl
  applies_of_checkParts _ _ _ _ _ hmem := absurd hmem List.not_mem_nil

attribute [simp] Catalogued.category?_toRecord Catalogued.properties_toRecord
  Catalogued.properties_setHeader Catalogued.classifications_setHeader
  Catalogued.properties_setProperties Catalogued.classifications_setProperties

section Elements

variable {α : Type} [TypedElement α] [Catalogued α] {a : α} {catalog : TypeCatalog}
  {lapses : Lapses}

/-- An element suits the catalog if its record is admitted and its status on delete is. -/
theorem Record.suits_toRecord_iff :
    (toRecord a).Suits catalog lapses ↔
      (toRecord a).Admitted catalog (category α) ∧
        catalog.AdmitsOnDelete lapses (Instance.header a) ∧
          catalog.AdmitsLabels lapses (typeName a) (toRecord a).classifications := by
  simp [Suits, typeName]

namespace Record.Suits

/-- An element suits the catalog with a header of the same type, if the states of this are fine. -/
theorem setHeader (h : (toRecord a).Suits catalog lapses) {new : Header}
    (htype : new.typeName = (Instance.header a).typeName)
    (hstatus : catalog.checkStatus new.typeName new.status = .ok ())
    (hondelete : catalog.AdmitsOnDelete lapses new) :
    (toRecord (Instance.setHeader a new)).Suits catalog lapses := by
  obtain ⟨⟨htype', hproperties, -⟩, -, hlabels⟩ := suits_toRecord_iff.mp h
  simp only [header_toRecord, Catalogued.properties_toRecord] at htype' hproperties
  refine suits_toRecord_iff.mpr ⟨⟨?_, ?_, ?_⟩, ?_, ?_⟩
  all_goals simp only [typeName, header_toRecord, header_setHeader, Catalogued.properties_toRecord,
    Catalogued.properties_setHeader, Catalogued.classifications_setHeader]
  · rwa [htype]
  · rwa [htype]
  · exact hstatus
  · exact hondelete
  · rwa [htype]

/-- An element suits the catalog with a header of the same type and states. -/
theorem setHeader_of_eq (h : (toRecord a).Suits catalog lapses) {new : Header}
    (htype : new.typeName = (Instance.header a).typeName)
    (hstatus : new.status = (Instance.header a).status)
    (hondelete : new.statusOnDelete = (Instance.header a).statusOnDelete) :
    (toRecord (Instance.setHeader a new)).Suits catalog lapses :=
  h.congr (by simp) (by simpa using htype) (by simpa using hstatus) (by simpa using hondelete)
    (by simp) (by simp)

/-- An element suits the catalog with other properties that are declared. -/
theorem setProperties (h : (toRecord a).Suits catalog lapses) {new : Properties}
    (hnew : catalog.checkProperties (typeName a) new = .ok ()) :
    (toRecord (Instance.setProperties a new)).Suits catalog lapses := by
  obtain ⟨⟨htype, -, hstatus⟩, hondelete, hlabels⟩ := suits_toRecord_iff.mp h
  simp only [header_toRecord] at htype hstatus
  refine suits_toRecord_iff.mpr ⟨⟨?_, ?_, ?_⟩, ?_, ?_⟩
  all_goals simp only [typeName, header_toRecord, header_setProperties,
    Catalogued.properties_toRecord, Catalogued.properties_setProperties,
    Catalogued.classifications_setProperties]
  · exact htype
  · exact hnew
  · exact hstatus
  · exact hondelete
  · exact hlabels

/-- An element suits the catalog with another type that it has been checked against. -/
theorem retype (h : (toRecord a).Suits catalog lapses)
    (hlive : (Instance.header a).isDeleted = false) {newType : TypeName} {typeRef : TypeRef}
    (htype : catalog.typeRef newType (category α) = .ok typeRef)
    (hproperties : catalog.checkProperties newType (Instance.properties a) = .ok ())
    (hstatus : catalog.checkStatus newType (Instance.header a).status = .ok ())
    (hparts : TypedElement.checkParts catalog newType a = .ok ()) :
    (toRecord (Instance.setHeader a { Instance.header a with typeRef })).Suits catalog lapses := by
  obtain ⟨-, hondelete, hlabels⟩ := suits_toRecord_iff.mp h
  obtain ⟨rfl, hfind⟩ := TypeCatalog.typeRef_eq_ok htype
  refine suits_toRecord_iff.mpr ⟨⟨?_, ?_, ?_⟩, ?_, ?_⟩
  all_goals simp only [typeName, header_toRecord, header_setHeader, Catalogued.properties_toRecord,
    Catalogued.properties_setHeader, Catalogued.classifications_setHeader]
  · exact hfind
  · exact hproperties
  · exact hstatus
  · -- no check has looked at the status on delete, but none is due for a live instance
    intro status hsome
    have hstray := hondelete status hsome
    rw [if_neg (Bool.eq_false_iff.mp hlive)] at hstray
    exact (if_neg (Bool.eq_false_iff.mp hlive)).mpr hstray
  · -- which classifications there are has not changed, and the names they are filed under have been
    -- checked for the new type
    intro name label hlabel
    have hname : name ∈ (toRecord a).classifications.keys :=
      NameMap.mem_keys_iff.mpr (Option.isSome_iff_exists.mpr ⟨label, hlabel⟩)
    have happlies := Catalogued.applies_of_checkParts catalog _ a hparts name hname
    refine (hlabels name label hlabel).imp_left ?_
    rintro ⟨rfl, hold⟩
    exact ⟨rfl, happlies, hold.properties⟩

/-- The next version of an element suits the catalog if its content does. -/
theorem nextVersion (h : (toRecord a).Suits catalog lapses) {prior next : α} {stamp : Stamp}
    (hnext : Versioning.nextVersion prior a stamp = .ok next) :
    (toRecord next).Suits catalog lapses := by
  obtain ⟨-, -, rfl⟩ := Versioning.nextVersion_eq_ok_iff.mp hnext
  exact h.setHeader_of_eq rfl rfl rfl

/-- A renamed element suits the catalog. -/
theorem renamed (h : (toRecord a).Suits catalog lapses) (newGuid : Guid) (stamp : Stamp) :
    (toRecord (Versioning.renamed a newGuid stamp)).Suits catalog lapses :=
  h.setHeader_of_eq rfl rfl rfl

/-- The deletion of a live element keeps a status that its type allows for. -/
theorem delete (h : (toRecord a).Suits catalog lapses) {new : Header}
    (htype : new.typeName = (Instance.header a).typeName) (hstatus : new.status = .deleted)
    (hondelete : new.statusOnDelete = some (Instance.header a).status) :
    (toRecord (Instance.setHeader a new)).Suits catalog lapses := by
  obtain ⟨⟨-, -, hold⟩, -⟩ := suits_toRecord_iff.mp h
  rw [header_toRecord] at hold
  obtain ⟨type, hget, -⟩ := TypeCatalog.checkStatus_eq_ok_iff.mp hold
  have hdeleted : new.isDeleted = true := Status.isDeleted_iff.mpr hstatus
  -- the deleted status is one of every type, and the status put aside has been one of this type
  refine h.setHeader htype ?_ fun status hsome => ?_
  · rw [htype, hstatus]
    exact TypeCatalog.checkStatus_eq_ok_iff.mpr ⟨type, hget, rfl⟩
  · rw [if_pos hdeleted, htype]
    cases hondelete.symm.trans hsome
    exact hold

end Record.Suits

end Elements

/-! ## Classifications -/

section Classifications

variable {catalog : TypeCatalog} {lapses : Lapses} {current : Entity} {label : Classification}

/-- An entity suits the catalog with other classifications that suit its type. -/
theorem Record.Suits.relabel (h : (Record.entity current).Suits catalog lapses)
    {labels : NameMap Classification}
    (hlabels : catalog.AdmitsLabels lapses current.header.typeName labels) :
    (Record.entity { current with classifications := labels }).Suits catalog lapses := by
  obtain ⟨⟨htype, hproperties, hstatus⟩, hondelete, -⟩ := h .entity rfl
  rintro category ⟨⟩
  exact ⟨⟨htype, hproperties, hstatus⟩, hondelete, hlabels⟩

/-- An entity suits the catalog with one more classification that suits its type. -/
theorem Record.Suits.withClassification (h : (Record.entity current).Suits catalog lapses)
    (hlabel : catalog.AdmitsLabel current.header.typeName label) :
    (Record.entity (current.withClassification label)).Suits catalog lapses := by
  refine h.relabel fun name found hfound => ?_
  rw [NameMap.get?_insert] at hfound
  split at hfound
  · rename_i hname
    cases hfound
    exact Or.inl ⟨hname, hlabel⟩
  · exact (h .entity rfl).2.2 name found hfound

/-- An entity suits the catalog with one classification less. -/
theorem Record.Suits.withoutClassification (h : (Record.entity current).Suits catalog lapses)
    (removed : TypeName) :
    (Record.entity (current.withoutClassification removed)).Suits catalog lapses := by
  refine h.relabel fun name found hfound => ?_
  rw [NameMap.get?_erase] at hfound
  split at hfound
  · cases hfound
  · exact (h .entity rfl).2.2 name found hfound

end Classifications

namespace Collection

variable {collection : Collection} {call : Call} {fresh guid : Guid} {plan : Plan}
  {operation : Operation} {record : Record} {guard : Guard} {lapses : Lapses}

/-- The check of a classification for a type passes if it suits the type. -/
theorem checkClassification_eq_ok_iff {entityType : TypeName} {label : Classification} :
    collection.checkClassification entityType label = .ok () ↔
      collection.catalog.AdmitsLabel entityType label := by
  rw [checkClassification, Outcome.bind_eq_ok_iff]
  exact ⟨fun ⟨_, happlies, hproperties⟩ => ⟨happlies, hproperties⟩,
    fun h => ⟨(), h.applies, h.properties⟩⟩

/-! ## New instances -/

/-- A new header has the type and the status that it is made with, and no status on delete. -/
theorem newHeader_states (collection : Collection) (call : Call) (fresh : Guid) (typeRef : TypeRef)
    (status : Status) (source : Option ExternalSource) :
    (collection.newHeader call fresh typeRef status source).typeName = typeRef.name ∧
      (collection.newHeader call fresh typeRef status source).status = status ∧
        (collection.newHeader call fresh typeRef status source).statusOnDelete = none := by
  cases source <;> exact ⟨rfl, rfl, rfl⟩

/-- A new entity suits the catalog. -/
theorem suits_of_planAddEntity {entity : NewEntity}
    (h : collection.planAddEntity call fresh entity = .ok plan)
    (hmem : .put record guard ∈ plan.statements) : record.Suits collection.catalog lapses := by
  simp only [planAddEntity, checkNewEntity, Outcome.bind_eq_ok_iff, Outcome.pure_eq_ok_iff] at h
  obtain ⟨⟨⟩, -, ⟨⟩, -, typeRef, ⟨⟨⟩, -, ⟨⟩, -, found, htype, ⟨⟩, hproperties, ⟨⟩, hstatus,
    ⟨⟩, hlabels, rfl⟩, rfl⟩ := h
  obtain ⟨hname, hfind⟩ := TypeCatalog.typeRef_eq_ok htype
  obtain ⟨htypeName, hstate, hondelete⟩ :=
    collection.newHeader_states call fresh found entity.status entity.source
  rw [hname] at htypeName
  cases List.mem_singleton.mp hmem
  rintro category ⟨⟩
  refine ⟨⟨?_, ?_, ?_⟩, fun status hsome => ?_, fun name label hlabel => ?_⟩
  all_goals simp only [Record.header, Entity.new, toRecord, htypeName, hstate]
  · exact hfind
  · exact hproperties
  · exact hstatus
  · cases hondelete.symm.trans hsome
  · -- a classification is filed under its name when the entity is made
    obtain ⟨listed, hlisted, heq⟩ := List.mem_map.mp (NameMap.mem_of_get?_ofList hlabel)
    cases heq
    exact Or.inl ⟨rfl,
      checkClassification_eq_ok_iff.mp (Outcome.forM_eq_ok_iff.mp hlabels _ hlisted)⟩

/-- A new relationship suits the catalog. -/
theorem suits_of_planAddRelationship {relationship : NewRelationship}
    (h : collection.planAddRelationship call fresh relationship = .ok plan)
    (hmem : .put record guard ∈ plan.statements) : record.Suits collection.catalog lapses := by
  simp only [planAddRelationship, Outcome.bind_eq_ok_iff, Outcome.pure_eq_ok_iff] at h
  obtain ⟨⟨⟩, -, ⟨⟩, -, ⟨⟩, -, ⟨⟩, -, typeRef, htype, ⟨⟩, hproperties, ⟨⟩, hstatus, endOne, -,
    endTwo, -, ⟨⟩, -, rfl⟩ := h
  obtain ⟨hname, hfind⟩ := TypeCatalog.typeRef_eq_ok htype
  obtain ⟨htypeName, hstate, hondelete⟩ :=
    collection.newHeader_states call fresh typeRef relationship.status relationship.source
  rw [hname] at htypeName
  cases List.mem_singleton.mp hmem
  rintro category ⟨⟩
  refine ⟨⟨?_, ?_, ?_⟩, fun status hsome => ?_, fun name label hlabel => ?_⟩
  all_goals simp only [Record.header, toRecord, htypeName, hstate]
  · exact hfind
  · exact hproperties
  · exact hstatus
  · cases hondelete.symm.trans hsome
  · cases hlabel

/-! ## Changes -/

section Changes

variable {α : Type} [TypedElement α] [Catalogued α] {current : α}

/-- What a change makes of an element suits the catalog if all revisions do. -/
theorem Edits.suits {edited : α} {change : Change}
    (h : collection.Edits guid current change edited)
    (hstore : collection.store.AllRevisions (·.Suits collection.catalog lapses))
    (hlatest : collection.store.latest guid = some (toRecord current)) :
    (toRecord edited).Suits collection.catalog lapses := by
  have hcurrent : (toRecord current).Suits collection.catalog lapses := hstore.of_latest hlatest
  have hondelete := (Record.suits_toRecord_iff.mp hcurrent).2.1
  cases h with
  | status status hlive hstatus hallowed =>
    refine hcurrent.setHeader rfl hallowed fun kept hsome => ?_
    have hstray := hondelete kept hsome
    rw [if_neg (Bool.eq_false_iff.mp hlive)] at hstray
    exact (if_neg (Bool.eq_false_iff.mp hstatus)).mpr hstray
  | properties properties hlive hproperties => exact hcurrent.setProperties hproperties
  | undo previous hlive hprevious hformer =>
    obtain ⟨revision, hmem, hdata⟩ := exists_mem_chain_of_previous hprevious
    exact hdata ▸ hstore guid revision hmem
  | delete hlive => exact hcurrent.delete rfl rfl rfl
  | restore status hdeleted hstatus =>
    -- the status that comes back was one of the type's when it was put aside
    have hallowed := hondelete status hstatus
    rw [if_pos hdeleted] at hallowed
    exact hcurrent.setHeader rfl hallowed nofun
  | reType currentType newType typeRef hlive hsame htype hproperties hallowed hparts =>
    exact hcurrent.retype hlive htype hproperties hallowed hparts
  | reHome currentHome newHome newHomeName hlive hsame hnew =>
    exact hcurrent.setHeader_of_eq rfl rfl rfl

/-- What a re-identification writes suits the catalog if all revisions do. -/
theorem suits_of_planReIdentify {kind : ElementKind} (hedges : collection.EdgesOfKind α kind guid)
    (hstore : collection.store.AllRevisions (·.Suits collection.catalog lapses)) {newGuid : Guid}
    (h : collection.planReIdentify α call guid newGuid = .ok plan)
    (hmem : .put record guard ∈ plan.statements) : record.Suits collection.catalog lapses := by
  obtain ⟨current, hlatest, -, -, hstatements, -⟩ := planReIdentify_eq_ok h
  have hcurrent : (toRecord current).Suits collection.catalog lapses := hstore.of_latest hlatest
  rw [hstatements] at hmem
  rcases List.mem_append.mp hmem with hmem | hmem
  · rcases mem_moves_iff.mp hmem with ⟨relationship, hedge, hput⟩ | hput
    · cases hput
      obtain ⟨-, hrelationship, -⟩ := (hedges relationship).mp hedge
      exact (hstore.of_latest hrelationship).congr rfl rfl rfl rfl rfl rfl
    · cases hput
      exact hcurrent.delete rfl rfl rfl
  · cases List.mem_singleton.mp hmem
    exact hcurrent.renamed newGuid call.stamp

/-- What a change writes suits the catalog if all revisions do. -/
theorem suits_of_planChange {kind : ElementKind} (hedges : collection.EdgesOfKind α kind guid)
    (hstore : collection.store.AllRevisions (·.Suits collection.catalog lapses)) {change : Change}
    (h : collection.planChange α call guid change = .ok plan)
    (hmem : .put record guard ∈ plan.statements) : record.Suits collection.catalog lapses := by
  by_cases hpurge : change = .purge
  · subst hpurge
    rw [planPurge_eq_ok h] at hmem
    exact absurd hmem Plan.put_not_mem_purge
  by_cases hidentity : ∃ newGuid, change = .reIdentify newGuid
  · obtain ⟨newGuid, rfl⟩ := hidentity
    exact suits_of_planReIdentify hedges hstore h hmem
  · obtain ⟨current, edited, next, hlatest, hedits, hnext, rfl⟩ :=
      planChange_edits hpurge (not_exists.mp hidentity) h
    cases List.mem_singleton.mp hmem
    exact (hedits.suits hstore hlatest).nextVersion hnext

end Changes

/-! ## Labelling -/

/-- What is written of a relabelled entity suits the catalog if the entity does. -/
theorem suits_of_planRelabelled {current relabelled : Entity}
    (h : planRelabelled call current relabelled = .ok plan)
    (hsuits : (Record.entity relabelled).Suits collection.catalog lapses)
    (hmem : .put record guard ∈ plan.statements) : record.Suits collection.catalog lapses := by
  simp only [planRelabelled, Outcome.bind_eq_ok_iff, Outcome.pure_eq_ok_iff,
    Versioning.update_eq_ok_iff] at h
  obtain ⟨next, ⟨-, hnext⟩, rfl⟩ := h
  cases List.mem_singleton.mp hmem
  exact Record.Suits.nextVersion hsuits hnext

/-- An entity with copied classifications suits the catalog as it is written if it does itself. -/
theorem suits_relabelled {current labelled : Entity} (hheader : labelled.header = current.header)
    (hsuits : (Record.entity labelled).Suits collection.catalog lapses) :
    (Record.entity (collection.relabelled call current labelled)).Suits collection.catalog
      lapses := by
  unfold relabelled
  split
  · exact hsuits.congr rfl (congrArg (·.typeName) hheader.symm) (congrArg (·.status) hheader.symm)
      (congrArg (·.statusOnDelete) hheader.symm) rfl rfl
  · exact hsuits

/-- The copy of a classification that is put on an entity has been checked for it. -/
theorem admitsLabel_of_planSaveClassification {incoming current : Entity} {copy : Classification}
    (h : collection.planSaveClassification call incoming copy = .ok plan)
    (hlabelled : collection.labelled? incoming = some current) (hwrites : plan.statements ≠ []) :
    collection.catalog.AdmitsLabel current.header.typeName copy := by
  simp only [planSaveClassification, hlabelled, Outcome.bind_eq_ok_iff] at h
  obtain ⟨⟨⟩, -, ⟨⟩, -, ⟨⟩, -, ⟨⟩, -, h⟩ := h
  split at h
  · rw [← Outcome.pure_eq_ok_iff.mp h] at hwrites
    exact absurd rfl hwrites
  · obtain ⟨⟨⟩, hcheck, -⟩ := Outcome.bind_eq_ok_iff.mp h
    exact checkClassification_eq_ok_iff.mp hcheck

/-- What the copy of a classification writes suits the catalog if all revisions do and the entity
that it comes with. -/
theorem suits_of_planSaveClassification {incoming : Entity} {copy : Classification}
    (hstore : collection.store.AllRevisions (·.Suits collection.catalog lapses))
    (hincoming : (Record.entity incoming).Suits collection.catalog lapses)
    (h : collection.planSaveClassification call incoming copy = .ok plan)
    (hmem : .put record guard ∈ plan.statements) : record.Suits collection.catalog lapses := by
  obtain ⟨-, rfl | ⟨current, guard, hlabelled, rfl⟩⟩ := planSaveClassification_eq_ok h
  · cases hmem
  · have hlabel := admitsLabel_of_planSaveClassification h hlabelled (List.cons_ne_nil _ _)
    -- the copy is put on the entity that is stored, or on the one that comes with it
    have hcurrent : (Record.entity current).Suits collection.catalog lapses := by
      rcases latest_or_eq_of_labelled? hlabelled with hlatest | rfl
      · exact hstore.of_latest hlatest
      · exact hincoming
    cases List.mem_singleton.mp hmem
    exact suits_relabelled rfl (hcurrent.withClassification hlabel)

/-! ## Operations -/

/-- All that an operation plans to write suits the catalog if all revisions do and all records that
are handed over with it. -/
theorem suits_of_plan (hcoherent : collection.store.Coherent)
    (hstore : collection.store.AllRevisions (·.Suits collection.catalog lapses))
    (hsupplied : ∀ record ∈ operation.supplied, record.Suits collection.catalog lapses)
    (h : collection.plan call fresh operation = .ok plan)
    (hmem : .put record guard ∈ plan.statements) : record.Suits collection.catalog lapses := by
  -- what is written has been checked, or it is taken over from what was stored or handed over
  cases operation with
  | addEntity entity => exact suits_of_planAddEntity h hmem
  | addRelationship relationship => exact suits_of_planAddRelationship h hmem
  | addProxy proxy =>
    rcases planAddProxy_eq_ok h with rfl | ⟨rfl, -⟩
    · cases List.mem_singleton.mp hmem
      exact Record.suits_proxy proxy
    · cases hmem
  | change kind target change =>
    cases kind with
    | entity => exact suits_of_planChange (edgesOfKind_entity hcoherent) hstore h hmem
    | relationship => exact suits_of_planChange edgesOfKind_relationship hstore h hmem
  | classify target name source origin properties =>
    simp only [Collection.plan, planClassify, Outcome.bind_eq_ok_iff] at h
    obtain ⟨⟨⟩, -, current, hcurrent, ⟨⟩, hcheck, ⟨⟩, -, hplan⟩ := h
    have hsuits := hstore.of_latest (latest_of_forLabelling hcurrent)
    exact suits_of_planRelabelled hplan
      (hsuits.withClassification (checkClassification_eq_ok_iff.mp hcheck)) hmem
  | declassify target name =>
    simp only [Collection.plan, planDeclassify, Outcome.bind_eq_ok_iff] at h
    obtain ⟨⟨⟩, -, current, hcurrent, ⟨⟩, -, hplan⟩ := h
    have hsuits := hstore.of_latest (latest_of_forLabelling hcurrent)
    exact suits_of_planRelabelled hplan (hsuits.withoutClassification name) hmem
  | reclassify target name properties =>
    simp only [Collection.plan, planReclassify, Outcome.bind_eq_ok_iff,
      Outcome.ofOption_eq_ok_iff] at h
    obtain ⟨⟨⟩, -, current, hcurrent, label, hlabel, ⟨⟩, hproperties, hplan⟩ := h
    have hsuits := hstore.of_latest (latest_of_forLabelling hcurrent)
    refine suits_of_planRelabelled hplan ?_ hmem
    rcases (hsuits .entity rfl).2.2 name label hlabel with ⟨rfl, hold⟩ | hmisfiled
    · -- the classification has been checked for the entity before; only its properties are new
      exact hsuits.withClassification ⟨hold.applies, hproperties⟩
    · exact hsuits.relabel fun _ _ _ => Or.inr hmisfiled
  | saveEntity entity =>
    obtain ⟨rfl, -⟩ := planSaveEntity_eq_ok h
    cases List.mem_singleton.mp hmem
    exact hsupplied _ (List.mem_singleton_self _)
  | saveRelationship relationship =>
    obtain ⟨rfl, -⟩ := planSaveRelationship_eq_ok h
    rcases List.mem_append.mp hmem with hmem | hmem
    · obtain ⟨proxy, -, hput⟩ := List.mem_map.mp hmem
      cases hput
      exact Record.suits_proxy proxy
    · cases List.mem_singleton.mp hmem
      exact hsupplied _ (List.mem_singleton_self _)
  | purgeCopy kind target type home =>
    simp only [Collection.plan, planPurgeCopy, Outcome.bind_eq_ok_iff, Outcome.pure_eq_ok_iff] at h
    obtain ⟨⟨⟩, -, ⟨⟩, -, ⟨⟩, -, header, -, ⟨⟩, -, rfl⟩ := h
    exact absurd hmem Plan.put_not_mem_purge
  | saveClassification entity copy =>
    exact suits_of_planSaveClassification hstore (hsupplied _ (List.mem_singleton_self _)) h hmem
  | purgeClassification entity copy =>
    rcases planPurgeClassification_eq_ok h with rfl | ⟨current, guard, hlatest, rfl⟩
    · cases hmem
    · cases List.mem_singleton.mp hmem
      exact suits_relabelled rfl ((hstore.of_latest hlatest).withoutClassification copy.name)

/-! ## Runs -/

/-- An event leaves the catalog, or adds to it. -/
theorem extends_after (collection : Collection) (event : Event) :
    collection.catalog.Extends (collection.after event).catalog := by
  cases event with
  | addType type => exact collection.catalog.extends_add type
  | operate call fresh operation =>
    cases hexecute : collection.execute call fresh operation with
    | error failure =>
      rw [after_eq_of_error hexecute]
      exact .refl _
    | ok result =>
      obtain ⟨next, reply⟩ := result
      rw [after_eq_of_ok hexecute, catalog_of_execute hexecute]
      exact .refl _

/-- The catalog only grows in a run. -/
theorem extends_run (collection : Collection) (events : List Event) :
    collection.catalog.Extends (collection.run events).catalog := by
  induction events generalizing collection with
  | nil => exact .refl _
  | cons event events ih => exact (collection.extends_after event).trans (ih _)

/-- An event keeps all revisions suited to the catalog if all records that are handed over with it
suit the catalog as it is then. -/
theorem suits_after (hreachable : collection.Reachable)
    (hstore : collection.store.AllRevisions (·.Suits collection.catalog lapses)) {event : Event}
    (hsupplied : ∀ record ∈ event.supplied, record.Suits collection.catalog lapses) :
    (collection.after event).store.AllRevisions
      (·.Suits (collection.after event).catalog lapses) := by
  -- the operation has checked against the types as they were, and these have grown at most
  have hgrown {store : Store} (hsuits : store.AllRevisions (·.Suits collection.catalog lapses)) :
      store.AllRevisions (·.Suits (collection.after event).catalog lapses) :=
    fun guid revision hmem => (hsuits guid revision hmem).mono (collection.extends_after event)
  rcases collection.submitted_of_after event with
    hsame | ⟨call, fresh, operation, plan, reply, receipt, rfl, -, hplan, hsubmit⟩
  · rw [hsame]
    exact hgrown hstore
  · obtain ⟨-, hnext, -⟩ := Store.submit_eq_ok_iff.mp hsubmit
    refine hgrown ?_
    rw [← hnext]
    refine hstore.carriedOut (fun record guard hmem => ?_) call.now
    exact suits_of_plan hreachable.store.coherent hstore hsupplied hplan hmem

/-- The records that callers hand over in a run conform to the types as these are at the time. -/
def SuppliedConform (collection : Collection) : List Event → Prop
  | [] => True
  | event :: events =>
    (∀ record ∈ event.supplied, record.Conforms collection.catalog) ∧
      (collection.after event).SuppliedConform events

/-- A run keeps all revisions suited to the catalog if all records conform that are handed over in
it, as far as the lapses among them are given. -/
theorem suits_run (hreachable : collection.Reachable)
    (hstore : collection.store.AllRevisions (·.Suits collection.catalog lapses))
    {events : List Event} (hsupplied : collection.SuppliedConform events)
    (hlapses : ∀ event ∈ events, ∀ record ∈ event.supplied,
      (record.HasStrayStatus → lapses.stray) ∧ (record.HasMisfiledLabel → lapses.misfiled)) :
    (collection.run events).store.AllRevisions
      (·.Suits (collection.run events).catalog lapses) := by
  -- all revisions are in the invariant and not the current ones only, as an undo brings others back
  induction events generalizing collection with
  | nil => exact hstore
  | cons event events ih =>
    obtain ⟨hconform, hrest⟩ := hsupplied
    obtain ⟨hlapse, hlapses⟩ := List.forall_mem_cons.mp hlapses
    refine ih (hreachable.after event) (suits_after hreachable hstore ?_) hrest hlapses
    exact fun record hmem =>
      (hconform record hmem).suits (hlapse record hmem).1 (hlapse record hmem).2

/-- If in a run all records that callers hand over conform to the types at that time, then all
revisions stored after it pass the checks of type, properties and status, also after any further
run. They pass that of the status on delete while they are deleted, and all of them do if no live
instance is handed over that has one. They pass those of the classifications if none is handed over
that is filed under another name. -/
theorem conforms_run (config : CollectionConfig) (catalog : TypeCatalog) {events : List Event}
    (hsupplied : SuppliedConform ⟨config, catalog, .empty⟩ events) (later : List Event)
    (guid : Guid) :
    let types := (run ⟨config, catalog, .empty⟩ (events ++ later)).catalog
    ∀ revision ∈ (run ⟨config, catalog, .empty⟩ events).store.chain guid,
      (∀ category, revision.data.category? = some category →
        revision.data.Admitted types category) ∧
      (revision.data.header.isDeleted ∨
          (∀ event ∈ events, ∀ record ∈ event.supplied, ¬record.HasStrayStatus) →
        revision.data.AdmittedOnDelete types) ∧
      ((∀ event ∈ events, ∀ record ∈ event.supplied, ¬record.HasMisfiledLabel) →
        revision.data.AdmittedLabels types) := by
  intro types revision hmem
  -- the lapses that are given are those among the records handed over in this run
  let lapses : Lapses :=
    ⟨∃ event ∈ events, ∃ record ∈ event.supplied, record.HasStrayStatus,
      ∃ event ∈ events, ∃ record ∈ event.supplied, record.HasMisfiledLabel⟩
  have hstore : (run ⟨config, catalog, .empty⟩ events).store.AllRevisions
      (·.Suits (run ⟨config, catalog, .empty⟩ events).catalog lapses) :=
    suits_run (.start config catalog) (Store.allRevisions_empty _) hsupplied
      fun event hevent record hrecord => ⟨fun hstray => ⟨event, hevent, record, hrecord, hstray⟩,
        fun hmisfiled => ⟨event, hevent, record, hrecord, hmisfiled⟩⟩
  have hextends : (run ⟨config, catalog, .empty⟩ events).catalog.Extends types := by
    have hgrows := extends_run (run ⟨config, catalog, .empty⟩ events) later
    rwa [← run_append] at hgrows
  have hsuits : revision.data.Suits types lapses := (hstore guid revision hmem).mono hextends
  refine ⟨fun category hcategory => (hsuits category hcategory).1,
    fun hdeleted => hsuits.onDelete (hdeleted.imp_right ?_), fun hfiled => hsuits.labels ?_⟩
  · rintro hnone ⟨event, hevent, record, hrecord, hstray⟩
    exact hnone event hevent record hrecord hstray
  · rintro ⟨event, hevent, record, hrecord, hmisfiled⟩
    exact hfiled event hevent record hrecord hmisfiled

/-- A live copy of a draftable instance, which the collection replicates. -/
private def replica (statusOnDelete : Option Status) : Entity where
  header := { Header.new "copy" ⟨"Draftable", []⟩ "remote" ⟨"bob", .earliest⟩ with
    replicatedBy := some (default : CollectionConfig).id
    statusOnDelete }
  properties := ∅
  classifications := ∅

/-- The copy is saved, and then published: it gets a type that allows for the active status only. -/
private def publishEvents (statusOnDelete : Option Status) : List Event :=
  let call : Call := ⟨"ada", .earliest⟩
  [.addType ⟨"Draftable", .entity, some "Thing", [], [], [], none, []⟩,
    .addType ⟨"Published", .entity, some "Draftable", [], [], [.active], none, []⟩,
    .operate call "" (.saveEntity (replica statusOnDelete)),
    .operate call "" (.change .entity "copy" (.reType "Draftable" "Published"))]

/-- Whatever its status on delete, the copy conforms to its type when it is saved. -/
private theorem suppliedConform_publishEvents (statusOnDelete : Option Status) :
    SuppliedConform ⟨default, ∅, .empty⟩ (publishEvents statusOnDelete) := by
  refine ⟨List.forall_mem_nil _, List.forall_mem_nil _, ?_, List.forall_mem_nil _, trivial⟩
  refine List.forall_mem_singleton.mpr ⟨?_, ?_, ?_⟩
  · rintro category ⟨⟩
    exact ⟨⟨_, rfl⟩, rfl, rfl⟩
  · rintro category status ⟨⟩ -
    cases status <;> rfl
  · rintro name label ⟨⟩

/-- Without a status on delete both revisions of the copy conform to the types, also when the type
above them is defined at last, and closes a cycle. -/
theorem conforms_publishEvents :
    let closing : Event := .addType ⟨"Thing", .entity, some "Published", [], [], [], none, []⟩
    let published := run ⟨default, ∅, .empty⟩ (publishEvents none)
    (published.store.chain "copy").map (·.data.header.typeName) = ["Published", "Draftable"] ∧
      ∀ revision ∈ published.store.chain "copy",
        revision.data.Conforms (published.run [closing]).catalog := by
  intro closing published
  refine ⟨by decide, fun revision hmem => ?_⟩
  have hconforms := conforms_run default ∅ (suppliedConform_publishEvents none) [closing] "copy"
    revision hmem
  rw [run_append] at hconforms
  obtain ⟨hadmitted, hondelete, hlabels⟩ := hconforms
  -- the copy is the only record that is handed over
  refine ⟨hadmitted, hondelete (Or.inr ?_), hlabels ?_⟩
  · simp [publishEvents, Event.supplied, Operation.supplied, Record.HasStrayStatus, Record.header,
      replica]
  · simp [publishEvents, Event.supplied, Operation.supplied, Record.HasMisfiledLabel,
      Record.classifications, replica]

/-- The copy of an asset that is certified, which is filed as a review. -/
private def misfiledAsset : Entity where
  header := Header.new "copy" ⟨"Asset", []⟩ "remote" ⟨"bob", .earliest⟩
  properties := ∅
  classifications := .ofList [("Reviewed", .new "Certified" "remote" ⟨"bob", .earliest⟩)]

/-- The copy is saved, and then its review gets a score. -/
private def scoreEvents : List Event :=
  let call : Call := ⟨"ada", .earliest⟩
  [.addType ⟨"Asset", .entity, none, [], [], [], none, []⟩,
    .addType ⟨"Certified", .classification, none, [], [], [], none, []⟩,
    .addType ⟨"Reviewed", .classification, none, ["score"], [], [], none, []⟩,
    .operate call "" (.saveEntity misfiledAsset),
    .operate call "" (.reclassify "copy" "Reviewed" (.ofList [("score", .integer 5)]))]

/-- The copy conforms to its type when it is saved. -/
private theorem suppliedConform_scoreEvents :
    SuppliedConform ⟨default, ∅, .empty⟩ scoreEvents := by
  refine ⟨List.forall_mem_nil _, List.forall_mem_nil _, List.forall_mem_nil _, ?_,
    List.forall_mem_nil _, trivial⟩
  refine List.forall_mem_singleton.mpr ⟨?_, ?_, fun name label hlabel => ?_⟩
  · rintro category ⟨⟩
    exact ⟨⟨_, rfl⟩, rfl, rfl⟩
  · rintro category status - ⟨⟩
  · -- there is one classification, and nothing is asked of it but its type
    have hmem := NameMap.mem_of_get?_ofList hlabel
    cases List.mem_singleton.mp hmem
    exact ⟨rfl, rfl⟩

/-- Copies that conform when they are saved, in two runs. One has a status on delete, which its new
type does not allow for. The other one has a classification under another name, for which the score
is declared, while it is stored under its own. -/
theorem not_conforms_copies :
    (SuppliedConform ⟨default, ∅, .empty⟩ (publishEvents (some .draft)) ∧
      ∃ record, (run ⟨default, ∅, .empty⟩ (publishEvents (some .draft))).store.latest "copy" =
          some record ∧
        ¬record.Conforms (run ⟨default, ∅, .empty⟩ (publishEvents (some .draft))).catalog) ∧
    (SuppliedConform ⟨default, ∅, .empty⟩ scoreEvents ∧
      (∀ event ∈ scoreEvents, ∀ record ∈ event.supplied, ¬record.HasStrayStatus) ∧
      ∃ record, (run ⟨default, ∅, .empty⟩ scoreEvents).store.latest "copy" = some record ∧
        ¬record.Conforms (run ⟨default, ∅, .empty⟩ scoreEvents).catalog) := by
  refine ⟨⟨suppliedConform_publishEvents (some .draft), _, rfl, fun hconforms => ?_⟩,
    suppliedConform_scoreEvents, ?_, _, rfl, fun hconforms => ?_⟩
  · have hallowed := hconforms.onDelete .entity .draft rfl rfl
    exact absurd hallowed (by decide)
  · simp [scoreEvents, Event.supplied, Operation.supplied, Record.HasStrayStatus, Record.header,
      misfiledAsset, Header.new]
  · have hdeclared := (hconforms.labels "Certified" _ rfl).properties
    exact absurd hdeclared (by decide)

end Collection

end MetadataGraph

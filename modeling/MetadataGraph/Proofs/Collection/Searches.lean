import MetadataGraph.Collection.Finding
import MetadataGraph.Proofs.Collection.Run
import MetadataGraph.Proofs.Properties
import MetadataGraph.Proofs.Search.Sequencing

/-!
# Searches

A search lists what is visible, admitted by its scope and asked for, and returns a page of the list.
What a call checks does not depend on the page, so that one accepted call tells about all others. We
prove:

* `run_eq`: every search makes checks of its own and asks a query in its scope;
* `Query.within_selects_iff` and `asksFor_iff`: what the query selects there;
* `isListing_listing`: what it finds is a listing of the search, and by `IsListing.unique` the only
  one;
* `run_pages`: the pages of a search, and what reading one after the other gives.
-/

namespace MetadataGraph

namespace Validation

/-- A read that does not look into the future does not do so later. -/
theorem asOf_later {asOf : AsOf} {now later : Instant} (h : Validation.asOf asOf now = .ok ())
    (hlater : now ≤ later) : Validation.asOf asOf later = .ok () := by
  simp only [Validation.asOf, Outcome.require_eq_ok_iff, Option.all_eq_true,
    decide_eq_true_eq] at h ⊢
  exact fun time htime => Int.le_trans (h time htime) hlater

/-- A page size that is asked for is used if it is not too large. -/
theorem pageSize_of_pos {size default limit : Nat} (hsome : 0 < size) (hlimit : size ≤ limit) :
    Validation.pageSize size default limit = .ok size := by
  rw [pageSize, if_neg (Nat.not_lt.mpr hlimit), if_neg (Nat.ne_of_gt hsome)]

end Validation

/-! ## Pages -/

/-- Reads of pages of a size, each from where the last one ended, give a list: they start at an
offset and go on until the first one without items. -/
inductive ReadsThrough {α : Type} (read : Nat → Outcome (Option (List α))) (size : Nat) :
    Nat → List α → Prop
  | done {start : Nat} (h : read start = .ok none) : ReadsThrough read size start []
  | page {start : Nat} {items rest : List α} (h : read start = .ok (some items))
      (hrest : ReadsThrough read size (start + size) rest) :
      ReadsThrough read size start (items ++ rest)

/-- A page is empty when it starts after the last item or has no room. -/
theorem nonEmpty_page_eq_none_iff {α : Type} {items : List α} {start size : Nat} :
    nonEmpty ((items.drop start).take size) = none ↔ items.length ≤ start ∨ size = 0 := by
  rw [nonEmpty, ite_eq_left_iff, List.isEmpty_iff]
  simp only [reduceCtorEq, imp_false, not_not, List.take_eq_nil_iff, List.drop_eq_nil_iff,
    or_comm]

/-- If all reads are pages of a list, reading through them gives the list. -/
theorem readsThrough_drop {α : Type} {read : Nat → Outcome (Option (List α))} {items : List α}
    {size : Nat} (hsize : 0 < size)
    (h : ∀ start, read start = .ok (nonEmpty ((items.drop start).take size))) (start : Nat) :
    ReadsThrough read size start (items.drop start) := by
  by_cases hend : items.length ≤ start
  · rw [List.drop_of_length_le hend]
    exact .done ((h start).trans (congrArg _ (nonEmpty_page_eq_none_iff.mpr (Or.inl hend))))
  · -- the page is not empty, and what follows it is shorter
    have hpage : nonEmpty ((items.drop start).take size) = some ((items.drop start).take size) := by
      refine if_neg fun hempty => ?_
      have hnone : nonEmpty ((items.drop start).take size) = none := if_pos hempty
      rcases nonEmpty_page_eq_none_iff.mp hnone with hlength | hzero <;> omega
    rw [← List.take_append_drop size (items.drop start), List.drop_drop]
    exact .page ((h start).trans (congrArg _ hpage)) (readsThrough_drop hsize h (start + size))
termination_by items.length - start

/-! ## What searches ask for -/

/-- Properties have given values, as far as a criterion asks for them; if none are given it asks for
nothing. -/
def Properties.HaveValues (properties values : Properties) (criteria : MatchCriteria) : Prop :=
  values.isEmpty ∨ criteria.combine (values.entries.map fun (name, value) =>
    ((properties.get? name).getD .null).matchesValue value)

/-- A predicate that some properties have given values. -/
theorem all_ofProperties_iff {properties values : Properties} {criteria : MatchCriteria} :
    (Predicate.ofProperties values criteria).all (·.holds properties) ↔
      properties.HaveValues values criteria := by
  have heach (entries : List (String × Value)) :
      PropertyCondition.holdsEach properties
          (entries.map fun entry => .compare entry.1 .eq entry.2) =
        entries.map fun (name, value) =>
          ((properties.get? name).getD .null).matchesValue value := by
    induction entries with
    | nil => rfl
    | cons entry rest ih => exact congrArg _ ih
  rw [Predicate.ofProperties, Properties.HaveValues, ← heach]
  by_cases hempty : values.isEmpty
  · exact iff_of_true (by rw [if_pos hempty]; rfl) (Or.inl hempty)
  · rw [if_neg hempty, or_iff_right hempty]
    rfl

/-- The searches for elements of a kind. -/
inductive Search : ElementKind → Type
  /-- For the entities whose properties and classifications fulfil predicates. -/
  | entities (properties : Option Predicate) (classifications : Option ClassificationPredicate) :
      Search .entity
  /-- For the entities that have some property values. -/
  | entitiesWith (properties : Properties) (criteria : MatchCriteria) : Search .entity
  /-- For the entities that carry a classification with some property values. -/
  | classified (name : TypeName) (properties : Properties) (criteria : MatchCriteria) :
      Search .entity
  /-- For the relationships whose properties fulfil a predicate. -/
  | relationships (properties : Option Predicate) : Search .relationship
  /-- For the relationships that have some property values. -/
  | relationshipsWith (properties : Properties) (criteria : MatchCriteria) : Search .relationship
  /-- For the relationships that have an entity at an end. -/
  | touching (guid : Guid) : Search .relationship
  /-- For the elements with a text among their properties that matches a pattern. -/
  | matching {kind : ElementKind} (source : String) : Search kind

/-- What a scope admits, whatever its page: the type is one of those it names and the status is one
of those it accepts, which are the live ones if it names none. -/
structure SearchScope.Admits (scope : SearchScope) (header : Header) : Prop where
  /-- The type is the one that the scope names. -/
  typed : ∀ name ∈ scope.typeName, header.typeRef.isA name
  /-- The type is one of the subtypes that the scope names. -/
  subtyped : scope.subtypes = [] ∨ ∃ name ∈ scope.subtypes, header.typeRef.isA name
  /-- The status is accepted. -/
  accepted :
    if scope.statuses = [] then header.isDeleted = false else header.status ∈ scope.statuses

namespace Search

variable {kind : ElementKind} {collection : Collection} {call : Call} {scope : SearchScope}

/-- What the operation of a search answers. -/
def run (collection : Collection) (call : Call) (scope : SearchScope) {kind : ElementKind} :
    Search kind → Outcome (Option (List kind.Carrier))
  | entities properties classifications =>
    collection.findEntities call properties classifications scope
  | entitiesWith properties criteria =>
    collection.findEntities call (Predicate.ofProperties properties criteria) none scope
  | classified name properties criteria =>
    collection.findClassified call name properties criteria scope
  | relationships properties => collection.findRelationships call properties scope
  | relationshipsWith properties criteria =>
    collection.findRelationships call (Predicate.ofProperties properties criteria) scope
  | touching guid => collection.relationshipsOf call guid scope
  | matching source => collection.findText call kind.Carrier source scope

/-- An element has what a search asks for. -/
def Asks {kind : ElementKind} : Search kind → kind.Carrier → Prop
  | entities properties classifications, entity =>
    (∀ predicate ∈ properties, predicate.holds entity.properties) ∧
      ∀ predicate ∈ classifications, predicate.holds entity
  | entitiesWith properties criteria, entity => entity.properties.HaveValues properties criteria
  | classified name properties criteria, entity =>
    ∃ classification, entity.classification? name = some classification ∧
      classification.properties.HaveValues properties criteria
  | relationships properties, relationship =>
    ∀ predicate ∈ properties, predicate.holds relationship.properties
  | relationshipsWith properties criteria, relationship =>
    relationship.properties.HaveValues properties criteria
  | touching guid, relationship => relationship.references guid
  | matching source, element => ∃ pattern, TextPattern.compile source = .ok pattern ∧
      ∃ text, (Instance.properties element).HasString text ∧ pattern.occursIn text

/-- A list has all elements that a read at the time of a scope sees, that the scope admits and that
a search asks for, one for each identity and in the order of the scope. -/
structure IsListing (search : Search kind) (collection : Collection) (scope : SearchScope)
    (listed : List kind.Carrier) : Prop where
  /-- It has those elements and no others. -/
  mem_iff : ∀ element, element ∈ listed ↔
    collection.store.read (Instance.guid element) scope.asOf = some (Element.toRecord element) ∧
      scope.Admits (Instance.header element) ∧ search.Asks element
  /-- It has one for each identity. -/
  once : (listed.map Instance.guid).Nodup
  /-- They are in the order of the scope. -/
  sequenced : listed.Pairwise fun element later =>
    scope.sequencing.compareRecords (Element.toRecord element) (Element.toRecord later) = .lt

/-- There is only one such list. -/
theorem IsListing.unique {search : Search kind} {listed others : List kind.Carrier}
    (h : search.IsListing collection scope listed) (h' : search.IsListing collection scope others) :
    listed = others := by
  refine List.map_injective_iff.mpr Element.toRecord_injective (scope.sequencing.eq_of_pairwise
    (List.pairwise_map.mpr h.sequenced) (List.pairwise_map.mpr h'.sequenced) fun record => ?_)
  simp only [List.mem_map, h.mem_iff, h'.mem_iff]

/-! ## Searches as queries -/

/-- What the operation of a search checks before it looks at the scope. -/
def check (collection : Collection) (call : Call) (scope : SearchScope) {kind : ElementKind} :
    Search kind → Outcome Unit
  | classified name _ _ => do
    Validation.userId call.user
    Validation.notBlank name "classificationName"
    let _ ← collection.catalog.require name .classification
  | touching guid => do
    Validation.userId call.user
    Validation.notBlank guid "entityGUID"
    Validation.asOf scope.asOf call.now
    let header ← .ofOption (.notKnown guid) (collection.find Entity guid scope.asOf).header?
    .require (!header.isDeleted) (.notKnown guid)
  | _ => Validation.userId call.user

/-- The query that the operation of a search narrows to its scope, if its pattern can be read. -/
def query {kind : ElementKind} : Search kind → Outcome Query
  | entities properties classifications =>
    .ok { Query.ofKind .entity with properties, classifications }
  | entitiesWith properties criteria =>
    .ok { Query.ofKind .entity with properties := Predicate.ofProperties properties criteria }
  | classified name properties criteria =>
    .ok { Query.ofKind .entity with
      classifications := some (.ofProperties name properties criteria) }
  | relationships properties => .ok { Query.ofKind .relationship with properties }
  | relationshipsWith properties criteria =>
    .ok { Query.ofKind .relationship with
      properties := Predicate.ofProperties properties criteria }
  | touching guid => .ok { Query.ofKind .relationship with endpoint := some guid }
  | matching source => do
    let pattern ← TextPattern.compile source
    return { Query.ofKind (Element.recordKind kind.Carrier) with text := some pattern }

/-- A search asks its query in its scope. -/
theorem run_eq (search : Search kind) : search.run collection call scope = (do
    search.check collection call scope
    let query ← search.query
    collection.search call kind.Carrier scope query) := by
  cases search with
  | entities | entitiesWith | relationships | relationshipsWith => rfl
  | matching =>
    simp only [run, check, query, Collection.findText, bind_assoc, pure_bind]
  | classified =>
    simp only [run, check, query, Collection.findClassified, bind_assoc, pure_bind]
    rfl
  | touching =>
    -- the operation asks for the end after the scope is checked, which does not look at it
    simp only [run, check, query, Collection.relationshipsOf, Collection.search,
      Collection.scopedQuery, bind_assoc, pure_bind]
    rfl

end Search

/-! ## Scopes -/

/-- The query that asks for the same in a scope, for a page of the result. -/
def Query.within (query : Query) (scope : SearchScope) (page : Page) : Query :=
  { query with
    typeName := scope.typeName
    subtypes := scope.subtypes
    statuses := scope.statuses
    sequencing := scope.sequencing
    page }

/-- What a query asks for in any scope. -/
@[mk_iff]
structure Query.AsksFor (query : Query) (record : Record) : Prop where
  /-- The record is of the kind of the query. -/
  kind : record.kind = query.kind
  /-- It has the end that the query asks for. -/
  ends : query.acceptsEnds record
  /-- Its properties fulfil the predicate. -/
  properties : query.properties.all (·.holds record.properties)
  /-- One of its texts matches the pattern. -/
  text : query.text.all (·.occursInAny record.properties)
  /-- Its classifications fulfil the predicate. -/
  classifications : query.acceptsClassifications record

/-- A scope admits the types and the statuses that a query in it accepts. -/
theorem SearchScope.admits_iff {scope : SearchScope} (query : Query) {header : Header} :
    scope.Admits header ↔ (query.within scope .everything).acceptsType header.typeRef ∧
      Query.acceptsStatus scope.statuses header.status := by
  have htype : (query.within scope .everything).acceptsType header.typeRef ↔
      (∀ name ∈ scope.typeName, header.typeRef.isA name) ∧
        (scope.subtypes = [] ∨ ∃ name ∈ scope.subtypes, header.typeRef.isA name) := by
    simp [Query.acceptsType, Query.within, Option.all_eq_true]
  have hstatus : Query.acceptsStatus scope.statuses header.status ↔
      if scope.statuses = [] then header.isDeleted = false else header.status ∈ scope.statuses := by
    rw [Query.acceptsStatus]
    by_cases hempty : scope.statuses = [] <;> simp [hempty, Header.isDeleted]
  rw [htype, hstatus]
  constructor
  · rintro ⟨typed, subtyped, accepted⟩
    exact ⟨⟨typed, subtyped⟩, accepted⟩
  · rintro ⟨⟨typed, subtyped⟩, accepted⟩
    exact ⟨typed, subtyped, accepted⟩

/-- In a scope a query selects what the scope admits of what it asks for. -/
theorem Query.within_selects_iff {query : Query} {scope : SearchScope} {record : Record} :
    (query.within scope .everything).selects record ↔
      scope.Admits record.header ∧ query.AsksFor record := by
  rw [SearchScope.admits_iff query]
  simp only [selects, Bool.and_eq_true, decide_eq_true_eq]
  constructor
  · rintro ⟨⟨⟨⟨⟨⟨kind, htype⟩, hstatus⟩, ends⟩, properties⟩, text⟩, classifications⟩
    exact ⟨⟨htype, hstatus⟩, kind, ends, properties, text, classifications⟩
  · rintro ⟨⟨htype, hstatus⟩, kind, ends, properties, text, classifications⟩
    exact ⟨⟨⟨⟨⟨⟨kind, htype⟩, hstatus⟩, ends⟩, properties⟩, text⟩, classifications⟩

namespace Collection

variable {kind : ElementKind} {collection : Collection} {call : Call} {scope : SearchScope}
  {query : Query}

/-- What a search checks, whatever the page it asks for. -/
structure Searchable (collection : Collection) (call : Call) (category : TypeCategory)
    (scope : SearchScope) (query : Query) : Prop where
  /-- The scope does not look into the future. -/
  asOf : Validation.asOf scope.asOf call.now = .ok ()
  /-- The types that it names are defined. -/
  typed : ∀ name ∈ scope.typeName.toList ++ scope.subtypes, ∃ type,
    collection.catalog.require name category = .ok type
  /-- The query can be meant. -/
  meant : (query.within scope .everything).check = .ok ()

/-- A search that passes its checks gives an answer if the page is not too large. -/
theorem search_eq_ok_iff {α : Type} [Element α] {result : Option (List α)} :
    collection.search call α scope query = .ok result ↔
      collection.Searchable call (Element.category α) scope query ∧
        ∃ size, collection.pageSize scope.size = .ok size ∧
          result = collection.answer α (query.within scope ⟨scope.start, size⟩) scope.asOf := by
  simp only [search, scopedQuery, Outcome.bind_eq_ok_iff, Outcome.pure_eq_ok_iff]
  constructor
  · rintro ⟨_, ⟨⟨⟩, hasOf, ⟨⟩, htypes, size, hsize, ⟨⟩, hcheck, rfl⟩, rfl⟩
    refine ⟨⟨hasOf, fun name hname => ?_, hcheck⟩, size, hsize, rfl⟩
    obtain ⟨type, htype, -⟩ := Outcome.bind_eq_ok_iff.mp
      (Outcome.forM_eq_ok_iff.mp htypes name hname)
    exact ⟨type, htype⟩
  · rintro ⟨⟨hasOf, htyped, hcheck⟩, size, hsize, rfl⟩
    refine ⟨_, ⟨(), hasOf, (), ?_, size, hsize, (), hcheck, rfl⟩, rfl⟩
    refine Outcome.forM_eq_ok_iff.mpr fun name hname => ?_
    obtain ⟨type, htype⟩ := htyped name hname
    rw [htype]
    rfl

/-- All records that a query finds in a scope, in order. -/
def foundRecords (collection : Collection) (scope : SearchScope) (query : Query) : List Record :=
  scope.sequencing.sort
    ((collection.store.visibleRecords scope.asOf).filter (query.within scope .everything).selects)

/-- A query finds the records that a read sees, that its scope admits and that it asks for. -/
theorem mem_foundRecords_iff (h : collection.store.Coherent) {record : Record} :
    record ∈ collection.foundRecords scope query ↔
      collection.store.read record.guid scope.asOf = some record ∧
        scope.Admits record.header ∧ query.AsksFor record := by
  rw [foundRecords, (Sequencing.sort_perm _ _).mem_iff, List.mem_filter, h.mem_visibleRecords_iff,
    Query.within_selects_iff]

/-- They are found in the order of the scope. -/
theorem pairwise_foundRecords (h : collection.store.Coherent) (scope : SearchScope)
    (query : Query) : (collection.foundRecords scope query).Pairwise
      fun record later => scope.sequencing.compareRecords record later = .lt :=
  scope.sequencing.pairwise_sortBy ((h.pairwise_visibleRecords scope.asOf).filter _)

/-- All elements that a query finds in a scope, in order. -/
def listing (collection : Collection) (kind : ElementKind) (scope : SearchScope) (query : Query) :
    List kind.Carrier :=
  (collection.foundRecords scope query).filterMap Element.ofRecord?

/-- The list has the elements of which it finds the records. -/
theorem mem_listing_iff {element : kind.Carrier} :
    element ∈ collection.listing kind scope query ↔
      Element.toRecord element ∈ collection.foundRecords scope query := by
  simp [listing, List.mem_filterMap, Element.ofRecord?_eq_some_iff]

/-- A query for the records of some elements finds records of this kind only. -/
theorem kind_of_mem_foundRecords {record : Record}
    (h : record ∈ collection.foundRecords scope query) : record.kind = query.kind := by
  have hselects := (List.mem_filter.mp ((Sequencing.sort_perm _ _).mem_iff.mp h)).2
  exact (Query.within_selects_iff.mp hselects).2.kind

/-- All records that a query for the records of some elements finds are in the list of these. -/
theorem map_listing (h : query.kind = Element.recordKind kind.Carrier) :
    (collection.listing kind scope query).map Element.toRecord =
      collection.foundRecords scope query := by
  rw [listing, List.map_filterMap]
  refine (List.filterMap_congr fun record hmem => ?_).trans List.filterMap_some
  obtain ⟨element, rfl⟩ := ElementKind.exists_toRecord ((kind_of_mem_foundRecords hmem).trans h)
  rw [Element.ofRecord?_toRecord]
  rfl

/-- The answer to a query in a scope is a page of its list. -/
theorem answer_within (h : query.kind = Element.recordKind kind.Carrier) (page : Page) :
    collection.answer kind.Carrier (query.within scope page) scope.asOf =
      nonEmpty (((collection.listing kind scope query).drop page.start).take page.size) := by
  have hquery : collection.store.query (query.within scope page) scope.asOf =
      page.apply (collection.foundRecords scope query) := rfl
  rw [answer, hquery, Page.apply, ← map_listing h, ← List.map_drop, ← List.map_take,
    List.filterMap_map]
  congr 1
  exact (List.filterMap_congr fun element _ => Element.ofRecord?_toRecord element).trans
    List.filterMap_some

end Collection

namespace Search

variable {kind : ElementKind} {collection : Collection} {call : Call} {scope : SearchScope}
  {search : Search kind} {query : Query}

/-- The query of a search for elements of a kind is for records of this kind. -/
theorem kind_of_query (h : search.query = .ok query) :
    query.kind = Element.recordKind kind.Carrier := by
  cases search with
  | entities | entitiesWith | classified | relationships | relationshipsWith | touching =>
    cases h
    rfl
  | matching =>
    obtain ⟨pattern, -, hquery⟩ := Outcome.bind_eq_ok_iff.mp h
    cases hquery
    rfl

/-- The query of a search asks for the records of what the search asks for. -/
theorem asksFor_iff (h : search.query = .ok query) {element : kind.Carrier} :
    query.AsksFor (Element.toRecord element) ↔ search.Asks element := by
  rw [Query.asksFor_iff, Query.acceptsEnds, Query.acceptsClassifications]
  generalize hrecord : Element.toRecord element = record
  cases search with
  | entities properties classifications =>
    cases h
    obtain rfl : record = .entity element := hrecord.symm
    simp [Asks, Query.ofKind, Option.all_eq_true, Record.kind, Record.properties, Record.entity?]
  | entitiesWith properties criteria =>
    cases h
    obtain rfl : record = .entity element := hrecord.symm
    simp [Asks, Query.ofKind, all_ofProperties_iff, Record.kind, Record.properties]
  | classified name properties criteria =>
    cases h
    obtain rfl : record = .entity element := hrecord.symm
    simp [Asks, Query.ofKind, Record.kind, Record.entity?, ClassificationPredicate.ofProperties,
      ClassificationPredicate.holds, MatchCriteria.combine, ClassificationCondition.holds,
      all_ofProperties_iff, Option.any_eq_true]
  | relationships properties =>
    cases h
    obtain rfl : record = .relationship element := hrecord.symm
    simp [Asks, Query.ofKind, Option.all_eq_true, Record.kind, Record.properties]
  | relationshipsWith properties criteria =>
    cases h
    obtain rfl : record = .relationship element := hrecord.symm
    simp [Asks, Query.ofKind, all_ofProperties_iff, Record.kind, Record.properties]
  | touching guid =>
    cases h
    obtain rfl : record = .relationship element := hrecord.symm
    simp [Asks, Query.ofKind, Record.kind, Record.ends?, Relationship.references]
  | matching source =>
    obtain ⟨pattern, hpattern, hquery⟩ := Outcome.bind_eq_ok_iff.mp h
    cases hquery
    subst hrecord
    simp [Asks, Query.ofKind, hpattern, ElementKind.kind_toRecord, ElementKind.properties_toRecord,
      TextPattern.occursInAny_iff]

/-- What the query of a search finds in a scope is a listing of the search. -/
theorem isListing_listing (hcoherent : collection.store.Coherent)
    (h : search.query = .ok query) (scope : SearchScope) :
    search.IsListing collection scope (collection.listing kind scope query) := by
  have hmap : (collection.listing kind scope query).map Element.toRecord =
    collection.foundRecords scope query := Collection.map_listing (kind_of_query h)
  have hsequenced : (collection.listing kind scope query).Pairwise fun element later =>
      scope.sequencing.compareRecords (Element.toRecord element) (Element.toRecord later) =
        .lt := by
    have hpairwise := Collection.pairwise_foundRecords hcoherent scope query
    rwa [← hmap, List.pairwise_map] at hpairwise
  have hmem (element : kind.Carrier) : element ∈ collection.listing kind scope query ↔
      collection.store.read (Instance.guid element) scope.asOf =
          some (Element.toRecord element) ∧
        scope.Admits (Instance.header element) ∧ search.Asks element := by
    rw [Collection.mem_listing_iff, Collection.mem_foundRecords_iff hcoherent, asksFor_iff h,
      Element.guid_toRecord,
      Element.header_toRecord]
  refine ⟨hmem, List.pairwise_map.mpr ?_, hsequenced⟩
  -- a read sees one record only of an identity, which does not come before itself
  refine hsequenced.imp_of_mem fun {element later} helement hlater hbefore hsame => ?_
  have hread := ((hmem element).mp helement).1
  rw [hsame, ((hmem later).mp hlater).1] at hread
  rw [Option.some.inj hread, Sequencing.compareRecords_self] at hbefore
  cases hbefore

/-- A search that passes its checks gives a page of its listing, if the page is not too large. -/
theorem run_eq_ok_iff {result : Option (List kind.Carrier)} :
    search.run collection call scope = .ok result ↔
      search.check collection call scope = .ok () ∧ ∃ query, search.query = .ok query ∧
        collection.Searchable call (Element.category kind.Carrier) scope query ∧
          ∃ size, collection.pageSize scope.size = .ok size ∧
            result =
              nonEmpty (((collection.listing kind scope query).drop scope.start).take size) := by
  rw [run_eq, Outcome.bind_eq_ok_iff]
  simp only [Outcome.bind_eq_ok_iff, Collection.search_eq_ok_iff]
  constructor
  · rintro ⟨⟨⟩, hcheck, query, hquery, hsearchable, size, hsize, rfl⟩
    exact ⟨hcheck, query, hquery, hsearchable, size, hsize,
      Collection.answer_within (kind_of_query hquery) _⟩
  · rintro ⟨hcheck, query, hquery, hsearchable, size, hsize, rfl⟩
    exact ⟨(), hcheck, query, hquery, hsearchable, size, hsize,
      (Collection.answer_within (kind_of_query hquery) ⟨scope.start, size⟩).symm⟩

/-- What a search checks, it passes later as well if the user is named, whatever the page. -/
theorem check_later (h : search.check collection call scope = .ok ()) {later : Call}
    (huser : Validation.userId later.user = .ok ()) (hnow : call.now ≤ later.now)
    (start size : Nat) : search.check collection later { scope with start, size } = .ok () := by
  cases search with
  | entities | entitiesWith | relationships | relationshipsWith | matching => exact huser
  | classified =>
    simp only [check, Outcome.bind_eq_ok_iff] at h ⊢
    obtain ⟨-, -, hrest⟩ := h
    exact ⟨(), huser, hrest⟩
  | touching =>
    simp only [check, Outcome.bind_eq_ok_iff] at h ⊢
    obtain ⟨-, -, ⟨⟩, hguid, ⟨⟩, hpast, hrest⟩ := h
    exact ⟨(), huser, (), hguid, (), Validation.asOf_later hpast hnow, hrest⟩

/-- The pages of an accepted search are taken from one list, which has every element that is seen,
admitted and asked for, once and in order. Later calls for other pages are accepted, and if they go
from page to page until the first one without a result, they give the list. -/
theorem run_pages (hreachable : collection.Reachable) {result : Option (List kind.Carrier)}
    (h : search.run collection call scope = .ok result) :
    ∃ listed, search.IsListing collection scope listed ∧
      ∀ size, 1 ≤ size → size ≤ collection.config.maxPageSize → ∀ calls : Nat → Call,
        (∀ start, Validation.userId (calls start).user = .ok () ∧
          call.now ≤ (calls start).now) →
        (∀ start, search.run collection (calls start) { scope with start, size } =
          .ok (nonEmpty ((listed.drop start).take size))) ∧
        ReadsThrough (fun start => search.run collection (calls start) { scope with start, size })
          size 0 listed := by
  obtain ⟨hcheck, query, hquery, hsearchable, -⟩ := run_eq_ok_iff.mp h
  refine ⟨collection.listing kind scope query,
    isListing_listing hreachable.store.coherent hquery scope, ?_⟩
  intro size hsome hmax calls hcalls
  have hpages (start : Nat) : search.run collection (calls start) { scope with start, size } =
      .ok (nonEmpty (((collection.listing kind scope query).drop start).take size)) := by
    obtain ⟨huser, hnow⟩ := hcalls start
    refine run_eq_ok_iff.mpr ⟨check_later hcheck huser hnow start size, query, hquery, ?_, size,
      ?_, rfl⟩
    · exact ⟨Validation.asOf_later hsearchable.asOf hnow, hsearchable.typed, hsearchable.meant⟩
    · exact Validation.pageSize_of_pos hsome hmax
  exact ⟨hpages, readsThrough_drop hsome hpages 0⟩

/-- A collection with two assets of a rank and one without. -/
private def rankedAssets : Collection :=
  let call : Call := ⟨"ada", .earliest⟩
  let asset (ranks : List Int64) : NewEntity :=
    ⟨"Asset", .ofList (ranks.map fun rank => ("rank", .integer rank)), [], .active, none⟩
  Collection.run ⟨default, ∅, .empty⟩
    [.addType ⟨"Asset", .entity, none, ["rank"], [], [], none, []⟩,
      .operate call "first" (.addEntity (asset [1])),
      .operate call "second" (.addEntity (asset [2])),
      .operate call "third" (.addEntity (asset []))]

/-- The first two assets, highest rank first. -/
private def byRank : SearchScope where
  typeName := some "Asset"
  subtypes := []
  statuses := []
  asOf := .now
  sequencing := ⟨.propertyDescending, some "rank"⟩
  start := 0
  size := 2

private theorem reachable_rankedAssets : rankedAssets.Reachable :=
  (Collection.Reachable.start _ _).run _

/-- The assets are found by rank, the one without a rank at last. -/
private theorem guids_listing_rankedAssets :
    (rankedAssets.listing .entity byRank (Query.ofKind .entity)).map Instance.guid =
      ["second", "first", "third"] := by
  obtain ⟨first, second, third, hvisible, hguids, hfirst, hthird, hlast⟩ :
      ∃ first second third, (rankedAssets.store.visibleRecords .now).filter
          ((Query.ofKind .entity).within byRank .everything).selects = [first, second, third] ∧
        [second, first, third].map Record.guid = ["second", "first", "third"] ∧
          byRank.sequencing.compareRecords second first = .lt ∧
            byRank.sequencing.compareRecords first third = .lt ∧
              byRank.sequencing.compareRecords second third = .lt :=
    ⟨_, _, _, rfl, rfl, rfl, rfl, rfl⟩
  have hfound : rankedAssets.foundRecords byRank (Query.ofKind .entity) =
      [second, first, third] := by
    refine byRank.sequencing.eq_of_pairwise
      (Collection.pairwise_foundRecords reachable_rankedAssets.store.coherent _ _) ?_ ?_
    · simp [hfirst, hthird, hlast]
    · intro record
      rw [Collection.foundRecords, (Sequencing.sort_perm _ _).mem_iff]
      exact hvisible ▸ (List.Perm.swap _ _ _).mem_iff
  have hmap : (rankedAssets.listing .entity byRank (Query.ofKind .entity)).map Element.toRecord =
    [second, first, third] := (Collection.map_listing rfl).trans hfound
  rw [← hguids, ← hmap, List.map_map]
  exact List.map_congr_left fun entity _ => (Element.guid_toRecord entity).symm

/-- Two pages of two give all assets by rank, the one without a rank at last. -/
theorem run_pages_rankedAssets :
    ∃ listed, (entities none none).IsListing rankedAssets byRank listed ∧
      listed.map Instance.guid = ["second", "first", "third"] ∧
        ReadsThrough (fun start => (entities none none).run rankedAssets ⟨"ada", .earliest⟩
          { byRank with start }) 2 0 listed := by
  have hquery : (entities none none).query = .ok (Query.ofKind .entity) := rfl
  obtain ⟨result, hresult⟩ : ∃ result,
      (entities none none).run rankedAssets ⟨"ada", .earliest⟩ byRank = .ok result := by
    refine ⟨_, run_eq_ok_iff.mpr ⟨rfl, _, hquery, ⟨rfl, ?_, rfl⟩, _, rfl, rfl⟩⟩
    exact List.forall_mem_singleton.mpr ⟨_, rfl⟩
  obtain ⟨listed, hlisting, hpages⟩ := run_pages reachable_rankedAssets hresult
  refine ⟨listed, hlisting, ?_, ?_⟩
  · rw [hlisting.unique (isListing_listing reachable_rankedAssets.store.coherent hquery byRank)]
    exact guids_listing_rankedAssets
  · exact (hpages 2 (by decide) (by decide) (fun _ => ⟨"ada", .earliest⟩)
      fun _ => ⟨rfl, Int.le_refl _⟩).2

end Search

end MetadataGraph

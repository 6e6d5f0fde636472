import MetadataGraph.Proofs.Store.Reachable

/-!
# Traversal over the index

The index enters a relationship at every end that it gets and forgets an end only when the
relationship is evicted, and then only the ends of its revisions. So an entry does not say that a
relationship is still at a node, or that it was there at the time that a read names: a traversal
looks at what a read sees and leaves the rest out. We prove that nothing is missing and nothing is
too much, in every store that transactions lead to:

* `Coherent.pairwise_traverse`: a traversal lists relationships in the order of their identities,
  each once;
* `Coherent.mem_traverse_iff`: it lists those that a read sees at the node, each with what a read
  sees at its other end;
* `Coherent.filter_visibleRecords`: a query for the relationships at the node, which goes through
  all records and not through the index, selects the same;
* `traverse_exact`: all of this of reachable stores.
-/

namespace MetadataGraph

/-- The relationship has a node at one end and `other` at the other, in either direction. -/
def Relationship.Connects (relationship : Relationship) (node other : Guid) : Prop :=
  relationship.endOneGuid = node ∧ relationship.endTwoGuid = other ∨
    relationship.endTwoGuid = node ∧ relationship.endOneGuid = other

/-- The other end than a node is the one that the relationship connects it with. For a relationship
of a node with itself it is the node, whichever end is taken. -/
theorem Relationship.exists_otherEnd?_iff {relationship : Relationship} {node other : Guid} :
    (∃ proxy, relationship.otherEnd? node = some proxy ∧ proxy.header.guid = other) ↔
      relationship.Connects node other := by
  unfold otherEnd? Connects
  by_cases hone : relationship.endOneGuid = node
  · simp only [hone, if_true, Option.some.injEq, exists_eq_left', true_and]
    refine ⟨Or.inl, ?_⟩
    rintro (htwo | ⟨htwo, hother⟩)
    · exact htwo
    · exact htwo.trans hother
  · by_cases htwo : relationship.endTwoGuid = node
    · simp [hone, htwo]
    · simp [hone, htwo]

/-- A relationship references a node if it connects it with some node. -/
theorem Relationship.references_iff {relationship : Relationship} {node : Guid} :
    relationship.references node ↔ ∃ other, relationship.Connects node other := by
  rw [← Store.isSome_otherEnd?_iff, Option.isSome_iff_exists]
  simp only [← exists_otherEnd?_iff]
  constructor
  · rintro ⟨proxy, hother⟩
    exact ⟨proxy.header.guid, proxy, hother, rfl⟩
  · rintro ⟨-, proxy, hother, -⟩
    exact ⟨proxy, hother⟩

/-- The query asks for the relationships at a node, of any type and in any status, and puts no other
condition on them. -/
structure Query.AsksForEnds (query : Query) (node : Guid) : Prop where
  /-- It asks for relationships. -/
  kind : query.kind = .relationship
  /-- It does not name a type. -/
  typeName : query.typeName = none
  /-- It names no types of which they must have one. -/
  subtypes : query.subtypes = []
  /-- It leaves the properties open. -/
  properties : query.properties = none
  /-- It leaves the classifications open. -/
  classifications : query.classifications = none
  /-- It looks for no text. -/
  text : query.text = none
  /-- It accepts every status, the deleted one included. -/
  statuses : ∀ status, status ∈ query.statuses
  /-- It asks for the node at an end. -/
  endpoint : query.endpoint = some node

/-- Such a query selects the relationships that reference the node. -/
theorem Query.AsksForEnds.selects_iff {query : Query} {node : Guid} (h : query.AsksForEnds node)
    {record : Record} :
    query.selects record ↔
      ∃ relationship, record = .relationship relationship ∧ relationship.references node := by
  have hstatus : acceptsStatus query.statuses record.header.status := by
    have hnonempty : query.statuses.isEmpty = false :=
      List.isEmpty_eq_false_iff.mpr (List.ne_nil_of_mem (h.statuses .active))
    simp [acceptsStatus, hnonempty, h.statuses]
  cases record <;>
    simp [selects, acceptsType, acceptsEnds, acceptsClassifications, h.kind, h.typeName, h.subtypes,
      h.properties, h.classifications, h.text, h.endpoint, hstatus, Record.kind, Record.ends?,
      Relationship.references]

namespace Store

variable {store : Store} {node : Guid} {asOf : AsOf}

/-! ## Coherent stores -/

/-- A traversal lists relationships in the order of their identities, each once. -/
theorem Coherent.pairwise_traverse (h : store.Coherent) (node : Guid) (asOf : AsOf) :
    (store.traverse node asOf).Pairwise fun hop later =>
      hop.relationship.header.guid < later.relationship.header.guid := by
  rw [h.traverse_eq_scan]
  refine store.chains.pairwise_filterMap_keys fun guid hop hhop => ?_
  exact h.guid_of_read (hop?_eq_some_iff.mp hhop).1

/-- A traversal lists the relationships that a read sees at a node, each with the record that the
read sees at its other end. -/
theorem Coherent.mem_traverse_iff (h : store.Coherent) {hop : Hop} :
    hop ∈ store.traverse node asOf ↔
      store.read hop.relationship.header.guid asOf = some (.relationship hop.relationship) ∧
        ∃ other, hop.relationship.Connects node other ∧ hop.neighbor = store.read other asOf := by
  simp only [h.traverse_eq_scan, List.mem_filterMap, hop?_eq_some_iff,
    ← Relationship.exists_otherEnd?_iff]
  constructor
  · rintro ⟨guid, -, hread, other, hother, hneighbor⟩
    have hguid : hop.relationship.header.guid = guid := h.guid_of_read hread
    exact ⟨hguid ▸ hread, other.header.guid, ⟨other, hother, rfl⟩, hneighbor⟩
  · rintro ⟨hread, -, ⟨other, hother, rfl⟩, hneighbor⟩
    have hkept := NameMap.mem_keys_iff.mpr (isSome_get?_of_read hread)
    exact ⟨hop.relationship.header.guid, hkept, hread, other, hother, hneighbor⟩

/-- The records that a read sees are listed in the order of their identities. -/
theorem Coherent.pairwise_visibleRecords (h : store.Coherent) (asOf : AsOf) :
    (store.visibleRecords asOf).Pairwise fun record later => record.guid < later.guid := by
  rw [visibleRecords_eq]
  exact store.chains.pairwise_filterMap_keys fun guid record hread => h.guid_of_read hread

/-- The records that a read sees are those that it sees under their identities. -/
theorem Coherent.mem_visibleRecords_iff (h : store.Coherent) {record : Record} :
    record ∈ store.visibleRecords asOf ↔ store.read record.guid asOf = some record := by
  rw [visibleRecords_eq, List.mem_filterMap]
  constructor
  · rintro ⟨guid, -, hread⟩
    rwa [h.guid_of_read hread]
  · intro hread
    exact ⟨record.guid, NameMap.mem_keys_iff.mpr (isSome_get?_of_read hread), hread⟩

/-- Of all records that a read sees, a query for the relationships at a node selects those that a
traversal lists. -/
theorem Coherent.filter_visibleRecords (h : store.Coherent) {query : Query}
    (hquery : query.AsksForEnds node) (asOf : AsOf) :
    (store.visibleRecords asOf).filter query.selects =
      (store.traverse node asOf).map fun hop => .relationship hop.relationship := by
  rw [visibleRecords_eq, h.traverse_eq_scan, List.filter_filterMap, List.map_filterMap]
  refine List.filterMap_congr fun guid _ => ?_
  -- both lists run over all identities, so that it is enough to look at one of them
  ext record
  simp only [Option.filter_eq_some_iff, Option.map_eq_some_iff, hop?_eq_some_iff,
    hquery.selects_iff]
  constructor
  · rintro ⟨hread, relationship, rfl, hreferences⟩
    obtain ⟨other, hother⟩ := Option.isSome_iff_exists.mp (isSome_otherEnd?_iff.mpr hreferences)
    exact ⟨⟨relationship, store.read other.header.guid asOf⟩, ⟨hread, other, hother, rfl⟩, rfl⟩
  · rintro ⟨hop, ⟨hread, other, hother, -⟩, rfl⟩
    have hreferences := isSome_otherEnd?_iff.mp (Option.isSome_iff_exists.mpr ⟨other, hother⟩)
    exact ⟨hread, hop.relationship, rfl, hreferences⟩

/-- A traversal lists at most as many relationships as there are identities. -/
theorem Coherent.length_traverse_le (h : store.Coherent) (node : Guid) (asOf : AsOf) :
    (store.traverse node asOf).length ≤ store.size := by
  have hkeys : store.chains.keys.length = store.size := List.length_map ..
  rw [h.traverse_eq_scan, ← hkeys]
  exact List.length_filterMap_le _ _

end Store

/-- Sorting only changes the order. -/
theorem Sequencing.sortBy_perm {α : Type} (sequencing : Sequencing) (view : α → Record)
    (items : List α) : (sequencing.sortBy view items).Perm items := by
  unfold sortBy
  split
  · exact List.Perm.refl _
  · exact List.mergeSort_perm _ _

theorem Sequencing.sort_perm (sequencing : Sequencing) (records : List Record) :
    (sequencing.sort records).Perm records :=
  sequencing.sortBy_perm id records

/-- A page from the start that has room for all items has all of them. -/
theorem Page.apply_eq_self {α : Type} {page : Page} {items : List α} (hstart : page.start = 0)
    (hsize : items.length ≤ page.size) : page.apply items = items := by
  rw [apply, hstart, List.drop_zero, List.take_of_length_le hsize]

namespace Store

variable {store : Store}

/-! ## Reachable stores -/

/-- A traversal lists exactly the relationships that a read sees at a node, each once, in the order
of their identities, and with the record that the read sees at the other end. They are those that a
query for the relationships at the node selects: its answer is a page of them in its own order, and
all of them if the page has room. -/
theorem traverse_exact (hreachable : store.Reachable) (node : Guid) (asOf : AsOf) :
    ((store.traverse node asOf).Pairwise fun hop later =>
      hop.relationship.header.guid < later.relationship.header.guid) ∧
    (∀ hop, hop ∈ store.traverse node asOf ↔
      store.read hop.relationship.header.guid asOf = some (.relationship hop.relationship) ∧
        ∃ other, hop.relationship.Connects node other ∧ hop.neighbor = store.read other asOf) ∧
    ∀ query : Query, query.AsksForEnds node →
      let found := (store.traverse node asOf).map fun hop => Record.relationship hop.relationship
      store.query query asOf = query.page.apply (query.sequencing.sort found) ∧
        (query.page.start = 0 → store.size ≤ query.page.size →
          (store.query query asOf).Perm found) := by
  have hcoherent := hreachable.coherent
  refine ⟨hcoherent.pairwise_traverse node asOf, fun _ => hcoherent.mem_traverse_iff, ?_⟩
  intro query hquery found
  have hanswer : store.query query asOf = query.page.apply (query.sequencing.sort found) := by
    rw [Store.query, Query.apply, hcoherent.filter_visibleRecords hquery]
  refine ⟨hanswer, fun hstart hsize => ?_⟩
  have hperm := query.sequencing.sort_perm found
  have hroom : (query.sequencing.sort found).length ≤ query.page.size := by
    rw [hperm.length_eq, List.length_map]
    exact Nat.le_trans (hcoherent.length_traverse_le node asOf) hsize
  rw [hanswer, Page.apply_eq_self hstart hroom]
  exact hperm

/-- A relationship of the asset with itself or with another entity. -/
private def link (other : Guid) : Relationship :=
  let proxy (guid : Guid) : Proxy := ⟨{ (asset 1).header with guid }, ∅⟩
  ⟨{ (asset 1).header with guid := "link", typeRef := ⟨"Link", []⟩ }, ∅, proxy "asset", proxy other⟩

/-- The store after a relationship came to the asset alone from another entity, in one commit, and
was evicted and created again in the next. -/
private def movedStore : Store :=
  (assetStore.afterSubmit [.overwrite (.relationship (link "other")),
    .overwrite (.relationship (link "asset"))] .earliest).afterSubmit
      [.evict "link", .create (.relationship (link "asset"))] .earliest

/-- The query for all relationships at a node. -/
private def endsQuery (node : Guid) : Query :=
  { Query.ofKind .relationship with statuses := .deleted :: Status.live, endpoint := some node }

/-- The index still enters the relationship at the other entity, where a traversal does not find it.
At the asset it finds it once, with the asset at its other end, and so does the query. -/
theorem traverse_movedStore :
    movedStore.Indexed "other" "link" ∧ movedStore.traverse "other" .now = [] ∧
    ⟨link "asset", some (.entity (asset 1))⟩ ∈ movedStore.traverse "asset" .now ∧
    (movedStore.query (endsQuery "asset") .now).Perm
      ((movedStore.traverse "asset" .now).map fun hop => .relationship hop.relationship) := by
  have hreachable : movedStore.Reachable := (reachable_assetStore.submit _ _).submit _ _
  have hasks : (endsQuery "asset").AsksForEnds "asset" := by
    refine ⟨rfl, rfl, rfl, rfl, rfl, rfl, fun status => ?_, rfl⟩
    cases status <;> decide
  have hlink : movedStore.read "link" .now = some (.relationship (link "asset")) := by decide
  obtain ⟨-, hmem, hquery⟩ := traverse_exact hreachable "asset" .now
  refine ⟨rfl, List.eq_nil_of_length_eq_zero (by decide), ?_, ?_⟩
  · exact (hmem _).mpr ⟨hlink, "asset", Or.inl ⟨rfl, rfl⟩, by decide⟩
  · exact (hquery _ hasks).2 rfl (by decide)

end Store

end MetadataGraph

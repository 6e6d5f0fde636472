import MetadataGraph.Proofs.Listing
import MetadataGraph.Proofs.Store.Commit

/-!
# Coherent stores

A store is coherent when its chains are linked and hold revisions of their own identity, and its
index knows every relationship at each end that one of its revisions has. We prove:

* `Coherent.foldl_apply`: the statements of a commit keep a store coherent;
* `Coherent.traverse_eq_scan`: in a coherent store a traversal over the index lists what a scan of
  all relationships finds;
* `query_congr` and `Coherent.traverse_congr`: what reads see determines queries and traversals.
-/

namespace MetadataGraph.Store

/-! ## The index -/

/-- The index enters a relationship at a node. -/
def Adjacent (adjacency : NameMap NameSet) (node relationship : Guid) : Prop :=
  ((adjacency.get? node).getD ∅).contains relationship

/-- The index of a store enters a relationship at a node. -/
abbrev Indexed (store : Store) (node relationship : Guid) : Prop :=
  Adjacent store.adjacency node relationship

/-- Entering a relationship at a node adds this one entry. -/
private theorem adjacent_insert_add (adjacency : NameMap NameSet) (node guid : Guid)
    (query relationship : Guid) :
    Adjacent (adjacency.insert node (((adjacency.get? node).getD ∅).add guid)) query relationship ↔
      Adjacent adjacency query relationship ∨ node = query ∧ guid = relationship := by
  unfold Adjacent NameMap.contains
  rw [NameMap.get?_insert]
  by_cases hnode : node = query
  · subst hnode
    by_cases hguid : guid = relationship
    · simp [NameSet.add, hguid]
    · simp [NameSet.add, hguid]
  · simp [hnode]

/-- A record is entered at its ends, and nothing else is. -/
theorem adjacent_indexEnds (record : Record) (adjacency : NameMap NameSet)
    (node relationship : Guid) :
    Adjacent (indexEnds record adjacency) node relationship ↔
      Adjacent adjacency node relationship ∨
        record.guid = relationship ∧
          ∃ one two, record.ends? = some (one, two) ∧ (one = node ∨ two = node) := by
  unfold indexEnds
  cases hends : record.ends? with
  | none => simp
  | some ends =>
    obtain ⟨one, two⟩ := ends
    simp only [List.foldl_cons, List.foldl_nil, adjacent_insert_add, Option.some.injEq,
      Prod.mk.injEq]
    constructor
    · rintro ((h | ⟨hnode, hguid⟩) | ⟨hnode, hguid⟩)
      · exact Or.inl h
      · exact Or.inr ⟨hguid, one, two, ⟨rfl, rfl⟩, Or.inl hnode⟩
      · exact Or.inr ⟨hguid, one, two, ⟨rfl, rfl⟩, Or.inr hnode⟩
    · rintro (h | ⟨hguid, _, _, ⟨rfl, rfl⟩, hnode | hnode⟩)
      · exact Or.inl (Or.inl h)
      · exact Or.inl (Or.inr ⟨hnode, hguid⟩)
      · exact Or.inr ⟨hnode, hguid⟩

/-- Removing a relationship from the ends of a revision keeps all other relationships. -/
private theorem adjacent_unindexEnds {guid relationship : Guid} (hne : guid ≠ relationship)
    (revision : Revision Record) (adjacency : NameMap NameSet) (node : Guid) :
    Adjacent (unindexEnds guid adjacency revision) node relationship ↔
      Adjacent adjacency node relationship := by
  have herase (index : NameMap NameSet) (stood : Guid) (relationships : NameSet)
      (hget : index.get? stood = some relationships) :
      Adjacent (index.insert stood (relationships.erase guid)) node relationship ↔
        Adjacent index node relationship := by
    unfold Adjacent NameMap.contains
    rw [NameMap.get?_insert]
    by_cases hnode : stood = node
    · subst hnode
      simp [hne, hget]
    · simp [hnode]
  unfold unindexEnds
  split
  · rfl
  · -- end two is removed from the index that the removal from end one leaves
    simp only [List.foldl_cons, List.foldl_nil]
    split
    · split
      · rfl
      · exact herase _ _ _ ‹_›
    · refine (herase _ _ _ ‹_›).trans ?_
      split
      · rfl
      · exact herase _ _ _ ‹_›

/-- Removing a relationship from the ends of its revisions keeps all other relationships. -/
theorem adjacent_foldl_unindexEnds {guid relationship : Guid} (hne : guid ≠ relationship)
    (chain : Chain) (adjacency : NameMap NameSet) (node : Guid) :
    Adjacent (chain.foldl (unindexEnds guid) adjacency) node relationship ↔
      Adjacent adjacency node relationship := by
  induction chain generalizing adjacency with
  | nil => rfl
  | cons revision older ih => exact (ih _).trans (adjacent_unindexEnds hne revision adjacency node)

/-! ## Coherent stores -/

/-- The index of the store enters an identity at the ends that a record has. -/
def EndsIndexed (store : Store) (guid : Guid) (record : Record) : Prop :=
  ∀ one two, record.ends? = some (one, two) → store.Indexed one guid ∧ store.Indexed two guid

/-- The chains and the index of a store fit together. -/
structure Coherent (store : Store) : Prop where
  /-- No identity is kept without revisions. -/
  nonempty : ∀ guid, store.chains.get? guid ≠ some []
  /-- Revisions of an identity follow each other without a gap. -/
  linked : ∀ guid, (store.chain guid).Linked
  /-- Revisions are kept under their own identity. -/
  guid_eq : ∀ guid, ∀ revision ∈ store.chain guid, revision.data.guid = guid
  /-- Relationships are entered at all ends that they have or had. -/
  indexed : ∀ guid, ∀ revision ∈ store.chain guid, store.EndsIndexed guid revision.data

/-- All revisions of the store begin at a time or before it. -/
def Within (time : Instant) (store : Store) : Prop := ∀ guid, (store.chain guid).Within time

/-- The empty store is coherent. -/
theorem coherent_empty : empty.Coherent where
  nonempty _ h := by cases h
  linked _ := Chain.linked_nil
  guid_eq _ _ h := by cases h
  indexed _ _ h := by cases h

variable {store : Store} {validTime transactionTime : Instant}

/-- A statement keeps all revisions within the time of its commit. -/
theorem Within.apply (h : store.Within validTime) (statement : Statement) :
    (store.apply validTime transactionTime statement).Within validTime := by
  intro guid
  cases statement with
  | put record guard =>
    rw [chain_apply_put]
    split
    · exact Chain.forall_mem_push (p := fun _ time => time ≤ validTime) (h guid) (Int.le_refl _)
    · exact h guid
  | evict evicted =>
    rw [chain_apply_evict]
    split
    · simp [Chain.Within]
    · exact h guid

/-- A put keeps a store coherent whose revisions are not later than its commit. -/
private theorem Coherent.put (h : store.Coherent) (hwithin : store.Within validTime)
    (record : Record) (guard : Guard) :
    (store.apply validTime transactionTime (.put record guard)).Coherent := by
  have hindexed (node relationship : Guid) :
      (store.apply validTime transactionTime (.put record guard)).Indexed node relationship ↔ _ :=
    adjacent_indexEnds record store.adjacency node relationship
  constructor
  · intro guid
    simp only [Store.apply, NameMap.get?_insert]
    split
    · simp [Chain.push]
    · exact h.nonempty guid
  · intro guid
    rw [chain_apply_put]
    split
    · exact (h.linked guid).push (hwithin guid) record transactionTime
    · exact h.linked guid
  · intro guid
    rw [chain_apply_put]
    split
    · rename_i heq
      exact Chain.forall_mem_push (p := fun data _ => data.guid = guid) (h.guid_eq guid) heq
    · exact h.guid_eq guid
  · intro guid
    -- what is entered stays entered, and the record that is put is entered at its own ends
    have hold : ∀ revision ∈ store.chain guid, EndsIndexed (store.apply validTime
        transactionTime (.put record guard)) guid revision.data := by
      intro revision hmem one two hends
      obtain ⟨hone, htwo⟩ := h.indexed guid revision hmem one two hends
      exact ⟨(hindexed one guid).mpr (Or.inl hone), (hindexed two guid).mpr (Or.inl htwo)⟩
    rw [chain_apply_put]
    split
    · rename_i heq
      refine Chain.forall_mem_push (p := fun data _ => EndsIndexed _ guid data) hold ?_
      intro one two hends
      exact ⟨(hindexed one guid).mpr (Or.inr ⟨heq, one, two, hends, Or.inl rfl⟩),
        (hindexed two guid).mpr (Or.inr ⟨heq, one, two, hends, Or.inr rfl⟩)⟩
    · exact hold

/-- An eviction keeps a store coherent. -/
private theorem Coherent.evict (h : store.Coherent) (evicted : Guid) :
    (store.apply validTime transactionTime (.evict evicted)).Coherent := by
  constructor
  · intro guid
    simp only [Store.apply, NameMap.get?_erase]
    split
    · simp
    · exact h.nonempty guid
  · intro guid
    rw [chain_apply_evict]
    split
    · exact Chain.linked_nil
    · exact h.linked guid
  · intro guid
    rw [chain_apply_evict]
    split
    · simp
    · exact h.guid_eq guid
  · intro guid
    rw [chain_apply_evict]
    split
    · simp
    -- what is evicted takes its own entries with it and no others
    · rename_i hne
      intro revision hmem one two hends
      obtain ⟨hone, htwo⟩ := h.indexed guid revision hmem one two hends
      exact ⟨(adjacent_foldl_unindexEnds hne _ _ _).mpr hone,
        (adjacent_foldl_unindexEnds hne _ _ _).mpr htwo⟩

/-- A statement keeps a store coherent whose revisions are not later than its commit. -/
theorem Coherent.apply (h : store.Coherent) (hwithin : store.Within validTime)
    (statement : Statement) : (store.apply validTime transactionTime statement).Coherent := by
  cases statement with
  | put record guard => exact h.put hwithin record guard
  | evict evicted => exact h.evict evicted

/-- The statements of a commit keep a store coherent whose revisions are not later. -/
theorem Coherent.foldl_apply (h : store.Coherent) (hwithin : store.Within validTime)
    (transactionTime : Instant) (statements : List Statement) :
    (statements.foldl (Store.apply validTime transactionTime) store).Coherent ∧
      (statements.foldl (Store.apply validTime transactionTime) store).Within validTime := by
  induction statements generalizing store with
  | nil => exact ⟨h, hwithin⟩
  | cons statement rest ih => exact ih (h.apply hwithin statement) (hwithin.apply statement)

/-! ## Reading coherent stores -/

/-- What a read sees is the state of a revision. -/
theorem exists_mem_chain_of_read {guid : Guid} {asOf : AsOf} {record : Record}
    (h : store.read guid asOf = some record) :
    ∃ revision ∈ store.chain guid, revision.data = record := by
  obtain ⟨revision, hfind, hdata⟩ := Option.map_eq_some_iff.mp h
  exact ⟨revision, List.mem_of_find?_eq_some hfind, hdata⟩

/-- An identity that a read sees is kept. -/
theorem isSome_get?_of_read {guid : Guid} {asOf : AsOf} {record : Record}
    (h : store.read guid asOf = some record) : (store.chains.get? guid).isSome := by
  cases hget : store.chains.get? guid with
  | some chain => rfl
  | none => simp [read, chain, hget, Chain.visible?] at h

/-- What a read sees under an identity has that identity. -/
theorem Coherent.guid_of_read (h : store.Coherent) {guid : Guid} {asOf : AsOf} {record : Record}
    (hread : store.read guid asOf = some record) : record.guid = guid := by
  obtain ⟨revision, hmem, rfl⟩ := exists_mem_chain_of_read hread
  exact h.guid_eq guid revision hmem

/-- Nothing is current under an identity only if it has no revisions. -/
theorem Coherent.latest_eq_none_iff (h : store.Coherent) {guid : Guid} :
    store.latest guid = none ↔ store.chain guid = [] :=
  (h.linked guid).visible?_now_eq_none_iff

/-- The records that a read sees, listed over the identities. -/
theorem visibleRecords_eq (store : Store) (asOf : AsOf) :
    store.visibleRecords asOf = store.chains.keys.filterMap (store.read · asOf) := by
  rw [visibleRecords, NameMap.filterMap_values]
  refine List.filterMap_congr fun guid _ => ?_
  unfold read chain
  cases store.chains.get? guid <;> rfl

/-! ## Traversal -/

/-- A relationship has an entity at the other end than a node exactly when it references the
node. -/
theorem isSome_otherEnd?_iff {relationship : Relationship} {node : Guid} :
    (relationship.otherEnd? node).isSome ↔ relationship.references node := by
  unfold Relationship.otherEnd? Relationship.references
  by_cases hone : relationship.endOneGuid = node
  · simp [hone]
  · by_cases htwo : relationship.endTwoGuid = node <;> simp [hone, htwo]

/-- An identity gives a hop at a node exactly when a relationship that references the node is seen
under it. -/
theorem hop?_eq_some_iff {node guid : Guid} {asOf : AsOf} {hop : Hop} :
    store.hop? node guid asOf = some hop ↔
      store.read guid asOf = some (.relationship hop.relationship) ∧
        ∃ other, hop.relationship.otherEnd? node = some other ∧
          hop.neighbor = store.read other.header.guid asOf := by
  obtain ⟨relationship, neighbor⟩ := hop
  unfold hop?
  simp only [bind, Option.bind_eq_some_iff, pure, Option.some.injEq, Hop.mk.injEq]
  constructor
  · rintro ⟨record, hread, found, hfound, other, hother, rfl, rfl⟩
    cases record with
    | relationship r =>
      cases hfound
      exact ⟨hread, other, hother, rfl⟩
    | entity e => cases hfound
    | proxy p => cases hfound
  · rintro ⟨hread, other, hother, hneighbor⟩
    exact ⟨_, hread, relationship, rfl, other, hother, rfl, hneighbor.symm⟩

/-- In a coherent store the index enters every relationship that is seen at a node. -/
theorem Coherent.indexed_of_hop? (h : store.Coherent) {node guid : Guid} {asOf : AsOf} {hop : Hop}
    (hhop : store.hop? node guid asOf = some hop) : store.Indexed node guid := by
  obtain ⟨hread, other, hother, -⟩ := hop?_eq_some_iff.mp hhop
  obtain ⟨revision, hmem, hdata⟩ := exists_mem_chain_of_read hread
  obtain ⟨hone, htwo⟩ := h.indexed guid revision hmem hop.relationship.endOneGuid
    hop.relationship.endTwoGuid (by rw [hdata]; rfl)
  have hreferences : hop.relationship.references node :=
    isSome_otherEnd?_iff.mp (Option.isSome_iff_exists.mpr ⟨other, hother⟩)
  simp only [Relationship.references, Bool.or_eq_true, decide_eq_true_eq] at hreferences
  rcases hreferences with rfl | rfl
  · exact hone
  · exact htwo

/-- A traversal over the index lists what a scan of all identities finds. -/
theorem Coherent.traverse_eq_scan (h : store.Coherent) (node : Guid) (asOf : AsOf) :
    store.traverse node asOf = store.chains.keys.filterMap (store.hop? node · asOf) := by
  unfold traverse
  -- the index and the chains need not list the same names, only the same ones that give a hop
  refine NameMap.filterMap_keys_congr fun guid hsome => ?_
  obtain ⟨hop, hhop⟩ := Option.isSome_iff_exists.mp hsome
  have hindexed : (((store.adjacency.get? node).getD ∅).get? guid).isSome :=
    h.indexed_of_hop? hhop
  exact iff_of_true hindexed (isSome_get?_of_read (hop?_eq_some_iff.mp hhop).1)

/-- A query only depends on what reads see. -/
theorem query_congr {other : Store} {asOf : AsOf}
    (hread : ∀ guid, store.read guid asOf = other.read guid asOf) (query : Query) :
    store.query query asOf = other.query query asOf := by
  have hrecords : store.visibleRecords asOf = other.visibleRecords asOf := by
    rw [visibleRecords_eq, visibleRecords_eq, funext hread]
    refine NameMap.filterMap_keys_congr fun guid hsome => ?_
    obtain ⟨record, hother⟩ := Option.isSome_iff_exists.mp hsome
    exact iff_of_true (isSome_get?_of_read ((hread guid).trans hother)) (isSome_get?_of_read hother)
  rw [Store.query, Store.query, hrecords]

/-- In coherent stores a traversal only depends on what reads see. -/
theorem Coherent.traverse_congr {other : Store} (h : store.Coherent) (hother : other.Coherent)
    {asOf : AsOf} (hread : ∀ guid, store.read guid asOf = other.read guid asOf) (node : Guid) :
    store.traverse node asOf = other.traverse node asOf := by
  have hhops (guid : Guid) : store.hop? node guid asOf = other.hop? node guid asOf := by
    simp only [hop?, hread]
  rw [h.traverse_eq_scan, hother.traverse_eq_scan, funext hhops]
  refine NameMap.filterMap_keys_congr fun guid hsome => ?_
  obtain ⟨hop, hhop⟩ := Option.isSome_iff_exists.mp hsome
  have hseen := (hop?_eq_some_iff.mp hhop).1
  exact iff_of_true (isSome_get?_of_read ((hread guid).trans hseen)) (isSome_get?_of_read hseen)

end MetadataGraph.Store

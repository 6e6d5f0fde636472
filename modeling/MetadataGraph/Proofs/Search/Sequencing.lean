import MetadataGraph.Proofs.Store.Traversal
import MetadataGraph.Proofs.Value.Order
import MetadataGraph.Search.Sequencing

/-!
# The order of a list of results

Results are compared by a key and then by their identities, so that no two of them compare as equal
and their order does not depend on how they were found. We prove:

* the comparisons of keys and of records are total and transitive (instances of `TransCmp`);
* `pairwise_sortBy`: sorting puts what is found in the order of identities in strictly increasing
  order;
* `eq_of_pairwise`: there is only one such list of the same records.
-/

namespace MetadataGraph

instance : Std.TransOrd Instant where
  eq_swap := Std.OrientedOrd.eq_swap (α := Int)
  isLE_trans := Std.TransOrd.isLE_trans (α := Int)

/-- A comparison of what things are mapped to is total and transitive like the one between these. -/
theorem transCmp_on {α β : Type} (cmp : β → β → Ordering) [Std.TransCmp cmp] (f : α → β) :
    Std.TransCmp fun a b => cmp (f a) (f b) where
  eq_swap := Std.OrientedCmp.eq_swap
  isLE_trans := Std.TransCmp.isLE_trans

/-! ## Comparisons -/

theorem compareOptional_some (descending : Bool) (a b : Value) :
    compareOptional descending (some a) (some b) =
      if descending then b.sequenceCompare a else a.sequenceCompare b := by
  cases descending with
  | true => exact (Value.sequenceCompare_swap b a).symm
  | false => rfl

/-- Values in either direction, those that are missing at the end. -/
instance (descending : Bool) : Std.TransCmp (compareOptional descending) := by
  refine transCmp_of_spans (fun a b => ?_) fun a b c => ?_
  · match a, b with
    | none, none | none, some _ | some _, none => rfl
    | some a, some b =>
      rw [compareOptional_some, compareOptional_some]
      cases descending with
      | true => exact Value.sequenceCompare_swap b a
      | false => exact Value.sequenceCompare_swap a b
  · match a, b, c with
    | some a, some b, some c =>
      simp only [compareOptional_some]
      cases descending with
      | true => exact spans_of_transCmp (fun a b : Value => b.sequenceCompare a) a b c
      | false => exact spans_of_transCmp Value.sequenceCompare a b c
    | none, none, _ | some _, none, none => exact fun _ _ => rfl
    | none, some _, _ => exact fun hab => absurd rfl hab
    | some _, none, some _ => exact fun _ hbc => absurd rfl hbc
    | some a, some b, none =>
      intro hab _
      cases h : compareOptional descending (some a) (some b) with
      | lt | eq => rfl
      | gt => exact absurd h hab

namespace Sequencing

variable (sequencing : Sequencing)

instance : Std.TransCmp sequencing.compareKeys := by
  obtain ⟨order, property⟩ := sequencing
  let created (record : Record) : Instant := record.header.createdAt
  let changed (record : Record) : Instant := record.header.lastChangedAt
  let value (record : Record) : Option Value := record.properties.get? (property.getD "")
  cases order with
  | any | guid => exact transCmp_on compare fun _ => 0
  | creationDateRecent => exact transCmp_on (fun a b : Instant => compare b a) created
  | creationDateOldest => exact transCmp_on compare created
  | lastUpdateRecent => exact transCmp_on (fun a b : Instant => compare b a) changed
  | lastUpdateOldest => exact transCmp_on compare changed
  | propertyAscending => exact transCmp_on (compareOptional false) value
  | propertyDescending => exact transCmp_on (compareOptional true) value

instance : Std.TransCmp sequencing.compareRecords :=
  inferInstanceAs (Std.TransCmp (compareLex sequencing.compareKeys (compareOn Record.guid)))

theorem compareRecords_self (record : Record) : sequencing.compareRecords record record = .eq :=
  Std.ReflCmp.compare_self

theorem compareRecords_swap (a b : Record) :
    sequencing.compareRecords a b = (sequencing.compareRecords b a).swap :=
  Std.OrientedCmp.eq_swap

/-- Only records of one identity compare as equal. -/
theorem guid_eq_of_compareRecords {a b : Record} (h : sequencing.compareRecords a b = .eq) :
    a.guid = b.guid :=
  Std.LawfulEqOrd.eq_of_compare (Ordering.then_eq_eq.mp h).2

/-! ## Lists in order -/

/-- Sorting puts items that stand for records of different identities in strictly increasing
order. -/
theorem pairwise_mergeSort {α : Type} {view : α → Record} {items : List α}
    (h : (items.map fun item => (view item).guid).Nodup) :
    (items.mergeSort fun a b => sequencing.compareRecords (view a) (view b) != .gt).Pairwise
      fun item later => sequencing.compareRecords (view item) (view later) = .lt := by
  set le := fun a b => sequencing.compareRecords (view a) (view b) != .gt with hle
  have hisLE (a b : α) : le a b ↔ (sequencing.compareRecords (view a) (view b)).isLE := by
    rw [Ordering.isLE_iff_ne_gt, hle, bne_iff_ne]
  have hsorted : (items.mergeSort le).Pairwise fun item later => le item later := by
    refine List.pairwise_mergeSort (fun a b c => ?_) (fun a b => ?_) items
    · rw [hisLE, hisLE, hisLE]
      exact Std.TransCmp.isLE_trans
    · rw [Bool.or_eq_true, hisLE, hisLE]
      by_cases hbefore : (sequencing.compareRecords (view a) (view b)).isLE
      · exact Or.inl hbefore
      · exact Or.inr (Ordering.isLE_of_eq_lt (Std.OrientedCmp.lt_of_not_isLE hbefore))
  have hdifferent : (items.mergeSort le).Pairwise fun item later =>
      (view item).guid ≠ (view later).guid :=
    List.pairwise_map.mp (((List.mergeSort_perm items le).map _).nodup_iff.mpr h)
  refine hsorted.imp₂ (fun item later hnotAfter hother => ?_) hdifferent
  cases hcompare : sequencing.compareRecords (view item) (view later) with
  | lt => rfl
  | eq => exact absurd (sequencing.guid_eq_of_compareRecords hcompare) hother
  | gt => exact absurd hcompare (bne_iff_ne.mp hnotAfter)

/-- Sorting puts items that stand for records in the order of their identities in strictly
increasing order; in the arbitrary order they are in it from the start. -/
theorem pairwise_sortBy {α : Type} {view : α → Record} {items : List α}
    (h : items.Pairwise fun item later => (view item).guid < (view later).guid) :
    (sequencing.sortBy view items).Pairwise
      fun item later => sequencing.compareRecords (view item) (view later) = .lt := by
  rw [sortBy]
  split
  · rename_i hany
    refine h.imp fun {item later} hless => ?_
    rw [compareRecords, compareKeys, hany]
    exact compareOfLessAndEq_eq_lt.mpr hless
  · refine sequencing.pairwise_mergeSort (List.pairwise_map.mpr (h.imp fun hless hsame => ?_))
    exact String.lt_irrefl _ (hsame ▸ hless)

/-- There is only one list of the same records in strictly increasing order. -/
theorem eq_of_pairwise {records others : List Record}
    (h : records.Pairwise fun record later => sequencing.compareRecords record later = .lt)
    (h' : others.Pairwise fun record later => sequencing.compareRecords record later = .lt)
    (hmem : ∀ record, record ∈ records ↔ record ∈ others) : records = others := by
  have hnodup {list : List Record} (hlist : list.Pairwise fun record later =>
      sequencing.compareRecords record later = .lt) : list.Nodup := by
    refine hlist.imp fun {record later} hless hsame => ?_
    rw [hsame, compareRecords_self] at hless
    cases hless
  have hperm := (List.perm_ext_iff_of_nodup (hnodup h) (hnodup h')).mpr hmem
  refine hperm.eq_of_pairwise (fun a b _ _ hab hba => ?_) h h'
  rw [compareRecords_swap, hba] at hab
  cases hab

end Sequencing

end MetadataGraph

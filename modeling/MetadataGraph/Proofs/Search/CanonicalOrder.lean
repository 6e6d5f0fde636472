import MetadataGraph.Proofs.Search.Sequencing
import MetadataGraph.Proofs.Value.Identity

/-!
# The canonical order of results

An order of results is a key, in one direction or the other, and the identities where the key does
not tell two results apart. A property to order by may be missing, and then it comes last in either
direction. We prove:

* `compareRecords_eq_lt_iff`: what the comparison of records says of keys and identities;
* `sortBy_canonical`: items of different identities are sorted into one list, whatever order they
  are in at first, and that list is in the order of keys and identities.
-/

namespace MetadataGraph

/-! ## Comparisons of keys -/

theorem Instant.compare_eq_lt_iff {a b : Instant} : compare a b = .lt ↔ a < b := by
  rw [compare_def, lt_def, Std.compare_eq_lt]

theorem Instant.compare_eq_iff {a b : Instant} : compare a b = .eq ↔ a = b := by
  rw [compare_def, Std.compare_eq_iff_eq]
  exact ⟨position_injective, congrArg position⟩

/-- One value of a property comes before another one, and all values before a missing one. -/
def ValuePrecedes (before : Value → Value → Prop) : Option Value → Option Value → Prop
  | some a, some b => before a b
  | some _, none => True
  | none, _ => False

theorem compareOptional_eq_lt_iff {descending : Bool} {a b : Option Value} :
    compareOptional descending a b = .lt ↔
      ValuePrecedes (fun a b =>
        (if descending then b.sequenceCompare a else a.sequenceCompare b) = .lt) a b := by
  match a, b with
  | some a, some b =>
    rw [compareOptional_some]
    rfl
  | some _, none => exact iff_of_true rfl trivial
  | none, some _ | none, none => exact iff_of_false nofun id

theorem compareOptional_eq_iff {descending : Bool} {a b : Option Value} :
    compareOptional descending a b = .eq ↔ a = b := by
  match a, b with
  | some a, some b =>
    rw [compareOptional_some, Option.some_inj]
    cases descending with
    | true => exact (Value.sequenceCompare_eq_iff b a).trans eq_comm
    | false => exact Value.sequenceCompare_eq_iff a b
  | none, none => exact iff_of_true rfl rfl
  | some _, none | none, some _ => exact iff_of_false nofun nofun

namespace Sequencing

variable (sequencing : Sequencing)

/-- The value of the property to order by. -/
def value? (record : Record) : Option Value :=
  record.properties.get? (sequencing.property.getD "")

/-- The chosen key puts a record before another one. -/
def KeyPrecedes (a b : Record) : Prop :=
  match sequencing.order with
  | .any | .guid => False
  | .creationDateRecent => b.header.createdAt < a.header.createdAt
  | .creationDateOldest => a.header.createdAt < b.header.createdAt
  | .lastUpdateRecent => b.header.lastChangedAt < a.header.lastChangedAt
  | .lastUpdateOldest => a.header.lastChangedAt < b.header.lastChangedAt
  | .propertyAscending =>
    ValuePrecedes (fun a b => a.sequenceCompare b = .lt) (sequencing.value? a) (sequencing.value? b)
  | .propertyDescending =>
    ValuePrecedes (fun a b => b.sequenceCompare a = .lt) (sequencing.value? a) (sequencing.value? b)

/-- The chosen key does not tell two records apart. -/
def KeyTies (a b : Record) : Prop :=
  match sequencing.order with
  | .any | .guid => True
  | .creationDateRecent | .creationDateOldest => a.header.createdAt = b.header.createdAt
  | .lastUpdateRecent | .lastUpdateOldest => a.header.lastChangedAt = b.header.lastChangedAt
  | .propertyAscending | .propertyDescending => sequencing.value? a = sequencing.value? b

/-- A record comes before another one: by the chosen key, and by its identity where the key does not
tell them apart. -/
def Precedes (a b : Record) : Prop :=
  sequencing.KeyPrecedes a b ∨ sequencing.KeyTies a b ∧ a.guid < b.guid

variable {sequencing} {a b : Record}

theorem compareKeys_eq_lt_iff : sequencing.compareKeys a b = .lt ↔ sequencing.KeyPrecedes a b := by
  unfold compareKeys KeyPrecedes
  cases sequencing.order with
  | any | guid => exact iff_of_false nofun id
  | creationDateRecent | creationDateOldest | lastUpdateRecent | lastUpdateOldest =>
    exact Instant.compare_eq_lt_iff
  | propertyAscending | propertyDescending => exact compareOptional_eq_lt_iff

theorem compareKeys_eq_iff : sequencing.compareKeys a b = .eq ↔ sequencing.KeyTies a b := by
  unfold compareKeys KeyTies
  cases sequencing.order with
  | any | guid => exact iff_of_true rfl trivial
  -- the comparison that looks for the latest has its sides swapped
  | creationDateRecent | lastUpdateRecent => exact Instant.compare_eq_iff.trans eq_comm
  | creationDateOldest | lastUpdateOldest => exact Instant.compare_eq_iff
  | propertyAscending | propertyDescending => exact compareOptional_eq_iff

/-- Records compare as less where one comes before the other. -/
theorem compareRecords_eq_lt_iff :
    sequencing.compareRecords a b = .lt ↔ sequencing.Precedes a b := by
  have hguid : compare a.guid b.guid = .lt ↔ a.guid < b.guid :=
    ⟨fun h => compareOfLessAndEq_eq_lt.mp h, fun h => compareOfLessAndEq_eq_lt.mpr h⟩
  rw [compareRecords, Ordering.then_eq_lt, compareKeys_eq_lt_iff, compareKeys_eq_iff, hguid,
    Precedes]

/-- A record that has the property to order by comes only after such that have it. -/
theorem Precedes.isSome_value? (h : sequencing.Precedes a b)
    (hproperty : sequencing.order.needsProperty) (hb : (sequencing.value? b).isSome) :
    (sequencing.value? a).isSome := by
  have hsome {before : Value → Value → Prop}
      (hbefore : ValuePrecedes before (sequencing.value? a) (sequencing.value? b)) :
      (sequencing.value? a).isSome := by
    cases hvalue : sequencing.value? a with
    | some value => rfl
    | none =>
      rw [hvalue] at hbefore
      exact hbefore.elim
  unfold Precedes KeyPrecedes KeyTies at h
  cases horder : sequencing.order with
  | propertyAscending | propertyDescending =>
    simp only [horder] at h
    rcases h with hbefore | ⟨hsame, -⟩
    · exact hsome hbefore
    · rwa [hsame]
  | _ =>
    rw [horder] at hproperty
    cases hproperty

/-! ## Lists in the canonical order -/

/-- A list in which a property is not lost and then found again has all items with the property
before all items without it. -/
theorem exists_append_of_pairwise {α : Type} {has : α → Prop} {items : List α}
    (h : items.Pairwise fun item later => has later → has item) :
    ∃ front back, items = front ++ back ∧ (∀ item ∈ front, has item) ∧
      ∀ item ∈ back, ¬has item := by
  induction items with
  | nil => exact ⟨[], [], rfl, nofun, nofun⟩
  | cons item items ih =>
    obtain ⟨hitem, hitems⟩ := List.pairwise_cons.mp h
    by_cases hhas : has item
    · obtain ⟨front, back, rfl, hfront, hback⟩ := ih hitems
      exact ⟨item :: front, back, rfl, List.forall_mem_cons.mpr ⟨hhas, hfront⟩, hback⟩
    · -- the first item without the property is followed by such items only
      refine ⟨[], item :: items, rfl, nofun, List.forall_mem_cons.mpr ⟨hhas, ?_⟩⟩
      exact fun later hmem hlater => hhas (hitem later hmem hlater)

variable {α : Type} {view : α → Record} {items : List α}

/-- Items of different identities are sorted so that each comes before the ones after it. -/
theorem pairwise_precedes_sortBy (horder : sequencing.order ≠ .any)
    (hguids : (items.map fun item => (view item).guid).Nodup) :
    (sequencing.sortBy view items).Pairwise
      fun item later => sequencing.Precedes (view item) (view later) := by
  rw [sortBy, if_neg horder]
  exact (sequencing.pairwise_mergeSort hguids).imp compareRecords_eq_lt_iff.mp

/-- No record comes before one that comes before it. -/
theorem Precedes.asymm (h : sequencing.Precedes a b) : ¬sequencing.Precedes b a := by
  rw [← compareRecords_eq_lt_iff] at h ⊢
  rw [compareRecords_swap, h]
  nofun

/-- In every order but the arbitrary one, items of different identities are sorted into one list,
whatever order they are in at first. In that list each item comes before all later ones, by the
chosen key or, where the key is the same, by its identity; and if they are sorted by a property, in
either direction, those that have it come before those that do not. -/
theorem sortBy_canonical (horder : sequencing.order ≠ .any)
    (hguids : (items.map fun item => (view item).guid).Nodup) :
    (sequencing.sortBy view items).Perm items ∧
    (∀ others, others.Perm items → sequencing.sortBy view others = sequencing.sortBy view items) ∧
    (sequencing.sortBy view items).Pairwise
      (fun item later => sequencing.Precedes (view item) (view later)) ∧
    (sequencing.order.needsProperty → ∃ having missing,
      sequencing.sortBy view items = having ++ missing ∧
        (∀ item ∈ having, (sequencing.value? (view item)).isSome) ∧
        ∀ item ∈ missing, sequencing.value? (view item) = none) := by
  have hsorted := sequencing.pairwise_precedes_sortBy horder hguids
  refine ⟨sequencing.sortBy_perm view items, fun others hperm => ?_, hsorted, fun hproperty => ?_⟩
  · -- of two items in two sorted lists one cannot come first here and last there
    have hothers : (others.map fun item => (view item).guid).Nodup :=
      (hperm.map _).nodup_iff.mpr hguids
    have hsame : (sequencing.sortBy view others).Perm (sequencing.sortBy view items) :=
      ((sequencing.sortBy_perm view others).trans hperm).trans
        (sequencing.sortBy_perm view items).symm
    refine hsame.eq_of_pairwise (fun item other _ _ hless hmore => ?_)
      (pairwise_precedes_sortBy horder hothers) hsorted
    exact absurd hmore hless.asymm
  · obtain ⟨having, missing, hsplit, hhaving, hmissing⟩ := exists_append_of_pairwise
      (hsorted.imp fun hprecedes => hprecedes.isSome_value? hproperty)
    refine ⟨having, missing, hsplit, hhaving, fun item hmem => ?_⟩
    exact Option.not_isSome_iff_eq_none.mp (hmissing item hmem)

/-- An asset with a score, or without one. -/
private def scoredAsset (guid : Guid) (score : Option Value) : Record :=
  .entity (.new (Header.new guid ⟨"Asset", []⟩ "catalog" ⟨"ada", .earliest⟩)
    (.ofList (score.toList.map fun score => ("score", score))) [])

/-- Assets from the highest score on: a text comes before all numbers, the NaN before the others and
the float before the integers of its value, and the assets without a score come last. -/
private def mixedAssets : List Record :=
  [scoredAsset "f" (some (.string "high")), scoredAsset "c" (some (.float ⟨0x7ff8000000000000⟩)),
    scoredAsset "e" (some (.float ⟨0x4008000000000000⟩)), scoredAsset "b" (some (.integer 3)),
    scoredAsset "g" (some (.integer 3)), scoredAsset "a" none, scoredAsset "d" none]

/-- The assets are sorted into this list from the reverse of it, and from the list itself. -/
theorem sort_mixedAssets :
    let byScore : Sequencing := ⟨.propertyDescending, some "score"⟩
    byScore.order ≠ .any ∧ (mixedAssets.reverse.map fun asset => asset.guid).Nodup ∧
      byScore.sort mixedAssets.reverse = mixedAssets ∧ byScore.sort mixedAssets = mixedAssets := by
  intro byScore
  have horder : byScore.order ≠ .any := by decide
  have hguids : (mixedAssets.reverse.map fun asset => asset.guid).Nodup := by decide
  have hpairwise : mixedAssets.Pairwise
      fun asset later => byScore.compareRecords asset later = .lt := by decide
  obtain ⟨hperm, hsame, hsorted, -⟩ := sortBy_canonical horder hguids
  have hsort : byScore.sort mixedAssets.reverse = mixedAssets := by
    refine byScore.eq_of_pairwise (hsorted.imp compareRecords_eq_lt_iff.mpr) hpairwise ?_
    exact fun asset => hperm.mem_iff.trans List.mem_reverse
  exact ⟨horder, hguids, hsort, (hsame _ (List.reverse_perm _).symm).trans hsort⟩

end Sequencing

end MetadataGraph

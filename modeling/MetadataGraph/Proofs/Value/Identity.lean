import MetadataGraph.Proofs.Listing
import MetadataGraph.Proofs.Value.Order

/-!
# Identity of values

Two values are identical if they are of one kind and hold the same: floats the same bits, lists the
same values in the same places and maps the same named values, in whatever order they are held. The
sequence order finds no difference between identical values and tells all others apart, and it never
turns a comparison of values around. We prove:

* `Binary64.totalCompare_of_compare?`: the total order of doubles keeps the order of numbers;
* `sequenceCompare_eq_iff`: the sequence order tells any two values apart;
* `same_iff_eq`: values that hold their maps in name order are identical only if they are equal;
* `sequenceCompare_total`: the sequence order is a total order by identity that refines comparison.
-/

namespace MetadataGraph

namespace Binary64

variable {a b : Binary64}

/-- The places of negative numbers all move by one, so that a number that is less than another one
stands before it. -/
theorem totalKey_lt_of_orderKey_lt (h : a.orderKey < b.orderKey) : a.totalKey < b.totalKey := by
  unfold orderKey at h
  unfold totalKey
  cases ha : a.isNegative <;> cases hb : b.isNegative <;> simp [ha, hb] at h ⊢ <;> omega

/-- The total order of doubles keeps the order of numbers. -/
theorem totalCompare_of_compare? {order : Ordering} (h : a.compare? b = some order)
    (hne : order ≠ .eq) : a.totalCompare b = order := by
  unfold Binary64.compare? at h
  split at h
  · cases h
  · have horder := Option.some.inj h
    cases order with
    | eq => exact absurd rfl hne
    | lt => exact Std.compare_eq_lt.mpr (totalKey_lt_of_orderKey_lt (Std.compare_eq_lt.mp horder))
    | gt => exact Std.compare_eq_gt.mpr (totalKey_lt_of_orderKey_lt (Std.compare_eq_gt.mp horder))

end Binary64

namespace Value

/-! ## Values in name order -/

mutual

/-- Every map in the value, at any depth, holds its entries in the order of their names, each name
once, as maps do that are made of pairs (`inNameOrder_ofPairs`). -/
def InNameOrder : Value → Prop
  | array items => ItemsInNameOrder items
  | map entries => Entries.Sorted entries ∧ EntriesInNameOrder entries
  | null | boolean _ | integer _ | float _ | string _ | dateTime _ | enumeration _ _ => True

/-- Every map in one of the values holds its entries in the order of their names. -/
def ItemsInNameOrder : List Value → Prop
  | [] => True
  | item :: items => InNameOrder item ∧ ItemsInNameOrder items

/-- Every map in one of the named values holds its entries in the order of their names. -/
def EntriesInNameOrder : List (String × Value) → Prop
  | [] => True
  | (_, item) :: entries => InNameOrder item ∧ EntriesInNameOrder entries

end

theorem inNameOrder_of_isScalar {a : Value} (h : a.IsScalar) : a.InNameOrder := by
  cases a with
  | array _ | map _ => exact h.elim
  | null | boolean _ | integer _ | float _ | string _ | dateTime _ | enumeration _ _ => trivial

theorem entriesInNameOrder_iff {entries : List (String × Value)} :
    EntriesInNameOrder entries ↔ ∀ name item, (name, item) ∈ entries → item.InNameOrder := by
  induction entries with
  | nil => simp [EntriesInNameOrder]
  | cons entry entries ih =>
    obtain ⟨name, item⟩ := entry
    rw [EntriesInNameOrder, ih]
    constructor
    · rintro ⟨hitem, hentries⟩ other value (⟨⟩ | ⟨-, hmem⟩)
      · exact hitem
      · exact hentries other value hmem
    · intro h
      exact ⟨h name item List.mem_cons_self,
        fun other value hmem => h other value (List.mem_cons_of_mem _ hmem)⟩

/-! ## Identity -/

mutual

/-- Two values are of one kind and hold the same: floats the same bits, maps the same values under
the same names. -/
def Same : Value → Value → Prop
  | null, null => True
  | boolean a, boolean b => a = b
  | integer a, integer b => a = b
  | float a, float b => a.bits = b.bits
  | string a, string b => a = b
  | array as, array bs => SameItems as bs
  | map as, map bs =>
    (∀ name, name ∈ as.map Prod.fst ↔ name ∈ bs.map Prod.fst) ∧ AmongEntries as bs
  | dateTime a, dateTime b => a = b
  | enumeration a n, enumeration b m => a = b ∧ n = m
  | _, _ => False

/-- Two lists hold identical values in the same places. -/
def SameItems : List Value → List Value → Prop
  | [], [] => True
  | a :: as, b :: bs => Same a b ∧ SameItems as bs
  | _, _ => False

/-- Every named value is there under its name in another list of named values. -/
def AmongEntries : List (String × Value) → List (String × Value) → Prop
  | [], _ => True
  | (name, a) :: as, bs => (∃ b, (name, b) ∈ bs ∧ Same a b) ∧ AmongEntries as bs

end

/-! ## What the sequence order tells apart -/

mutual

/-- The sequence order tells any two values apart. -/
theorem sequenceCompare_eq_iff (a b : Value) : a.sequenceCompare b = .eq ↔ a = b := by
  by_cases hkind : a.kindRank = b.kindRank
  · match a, b, hkind with
    | null, null, _ => simp [sequenceCompare]
    | boolean _, boolean _, _ | integer _, integer _, _ | string _, string _, _
    | dateTime _, dateTime _, _ => simp [sequenceCompare]
    | float _, float _, _ => simp [sequenceCompare, Binary64.totalCompare_eq_iff]
    -- an integer is never at the place of a float
    | integer _, float _, _ | float _, integer _, _ =>
      simp [sequenceCompare, Ordering.then_eq_eq]
    | enumeration _ _, enumeration _ _, _ =>
      simp [sequenceCompare, Ordering.then_eq_eq]
    | array as, array bs, _ =>
      rw [sequenceCompare, sequenceCompareItems_eq_iff as bs, array.injEq]
    | map as, map bs, _ =>
      rw [sequenceCompare, sequenceCompareEntries_eq_iff as bs, map.injEq]
  · refine iff_of_false ?_ fun hsame => hkind (congrArg kindRank hsame)
    rw [sequenceCompare_eq_then, Ordering.then_eq_eq]
    exact fun h => hkind (Std.LawfulEqOrd.eq_of_compare h.1)

theorem sequenceCompareItems_eq_iff (as bs : List Value) :
    sequenceCompareItems as bs = .eq ↔ as = bs := by
  match as, bs with
  | [], [] | [], _ :: _ | _ :: _, [] => simp [sequenceCompareItems]
  | a :: as, b :: bs =>
    rw [sequenceCompareItems, Ordering.then_eq_eq, sequenceCompare_eq_iff a b,
      sequenceCompareItems_eq_iff as bs, List.cons.injEq]

theorem sequenceCompareEntries_eq_iff (as bs : List (String × Value)) :
    sequenceCompareEntries as bs = .eq ↔ as = bs := by
  match as, bs with
  | [], [] | [], _ :: _ | _ :: _, [] => simp [sequenceCompareEntries]
  | (k, a) :: as, (l, b) :: bs =>
    rw [sequenceCompareEntries, Ordering.then_eq_eq, Ordering.then_eq_eq, Std.compare_eq_iff_eq,
      sequenceCompare_eq_iff a b, sequenceCompareEntries_eq_iff as bs, List.cons.injEq,
      Prod.mk.injEq, and_assoc]

end

instance : Std.LawfulEqCmp sequenceCompare where
  compare_self := (sequenceCompare_eq_iff _ _).mpr rfl
  eq_of_compare := (sequenceCompare_eq_iff _ _).mp

/-- The sequence order does not turn a comparison around. -/
theorem sequenceCompare_of_compare? {a b : Value} {order : Ordering}
    (h : a.compare? b = some order) (hne : order ≠ .eq) : a.sequenceCompare b = order := by
  -- what comes after a difference does not count
  have hthen (later : Ordering) : order.then later = order := by
    cases order with
    | eq => exact absurd rfl hne
    | lt | gt => rfl
  cases a with
  | null => cases b <;> exact Option.some.inj h
  | boolean _ =>
    cases b with
    | null | boolean _ => exact Option.some.inj h
    | _ => cases h
  | integer _ =>
    cases b with
    | null | integer _ => exact Option.some.inj h
    | float _ => rw [sequenceCompare, Binary64.totalCompare_of_compare? h hne, hthen]
    | _ => cases h
  | float _ =>
    cases b with
    | null => exact Option.some.inj h
    | float _ => exact Binary64.totalCompare_of_compare? h hne
    | integer _ => rw [sequenceCompare, Binary64.totalCompare_of_compare? h hne, hthen]
    | _ => cases h
  | string _ =>
    cases b with
    | null | string _ => exact Option.some.inj h
    | _ => cases h
  | dateTime _ =>
    cases b with
    | null | dateTime _ => exact Option.some.inj h
    | _ => cases h
  | enumeration _ _ =>
    cases b with
    | null => exact Option.some.inj h
    | enumeration _ _ => rw [sequenceCompare, Option.some.inj h, hthen]
    | _ => cases h
  | array _ | map _ =>
    cases b with
    | null => exact Option.some.inj h
    | _ => cases h

/-! ## Identical values -/

mutual

theorem same_self (a : Value) : a.Same a := by
  match a with
  | null => trivial
  | boolean _ | integer _ | float _ | string _ | dateTime _ => rfl
  | enumeration _ _ => exact ⟨rfl, rfl⟩
  | array as => exact sameItems_self as
  | map as => exact ⟨fun _ => Iff.rfl, amongEntries_of_subset as as (List.Subset.refl as)⟩

theorem sameItems_self (as : List Value) : SameItems as as := by
  match as with
  | [] => trivial
  | a :: as => exact ⟨same_self a, sameItems_self as⟩

theorem amongEntries_of_subset (as bs : List (String × Value)) (h : as ⊆ bs) :
    AmongEntries as bs := by
  match as with
  | [] => trivial
  | (name, a) :: as =>
    obtain ⟨hmem, hrest⟩ := List.cons_subset.mp h
    exact ⟨⟨a, hmem, same_self a⟩, amongEntries_of_subset as bs hrest⟩

end

mutual

/-- Identical values that hold their maps in name order are equal. -/
theorem eq_of_same (a b : Value) (ha : a.InNameOrder) (hb : b.InNameOrder) (h : a.Same b) :
    a = b := by
  match a, b, ha, hb, h with
  | null, null, _, _, _ => rfl
  | boolean _, boolean _, _, _, rfl | integer _, integer _, _, _, rfl
  | string _, string _, _, _, rfl | dateTime _, dateTime _, _, _, rfl => rfl
  | float ⟨_⟩, float ⟨_⟩, _, _, rfl => rfl
  | enumeration _ _, enumeration _ _, _, _, ⟨rfl, rfl⟩ => rfl
  | array as, array bs, ha, hb, h => rw [eq_of_sameItems as bs ha hb h]
  | map as, map bs, ⟨hsorted, has⟩, ⟨hsorted', hbs⟩, ⟨hnames, h⟩ =>
    have hsubset := subset_of_amongEntries as bs has hbs h
    -- both hold the same names, and what the first holds under one the second holds as well
    rw [Entries.eq_of_find?_eq hsorted hsorted' fun name => ?_]
    have hfound : (Entries.find? name as).isSome ↔ (Entries.find? name bs).isSome :=
      NameMap.mem_keys_iff (m := ⟨as, hsorted⟩).symm.trans
        ((hnames name).trans (NameMap.mem_keys_iff (m := ⟨bs, hsorted'⟩)))
    cases hfind : Entries.find? name as with
    | some item =>
      have hmem := (Entries.find?_eq_some_iff hsorted).mp hfind
      exact ((Entries.find?_eq_some_iff hsorted').mpr (hsubset hmem)).symm
    | none =>
      have hnone : ¬(Entries.find? name bs).isSome := by
        rw [← hfound, hfind]
        exact Bool.false_ne_true
      exact (Option.not_isSome_iff_eq_none.mp hnone).symm

theorem eq_of_sameItems (as bs : List Value) (has : ItemsInNameOrder as)
    (hbs : ItemsInNameOrder bs) (h : SameItems as bs) : as = bs := by
  match as, bs, has, hbs, h with
  | [], [], _, _, _ => rfl
  | a :: as, b :: bs, has, hbs, h =>
    rw [eq_of_same a b has.1 hbs.1 h.1, eq_of_sameItems as bs has.2 hbs.2 h.2]

theorem subset_of_amongEntries (as bs : List (String × Value)) (has : EntriesInNameOrder as)
    (hbs : EntriesInNameOrder bs) (h : AmongEntries as bs) : as ⊆ bs := by
  match as, has, h with
  | [], _, _ => exact List.nil_subset bs
  | (name, a) :: as, has, ⟨⟨b, hmem, hsame⟩, h⟩ =>
    rw [eq_of_same a b has.1 (entriesInNameOrder_iff.mp hbs name b hmem) hsame]
    exact List.cons_subset.mpr ⟨hmem, subset_of_amongEntries as bs has.2 hbs h⟩

end

/-- Values that hold their maps in name order are identical only if they are equal. -/
theorem same_iff_eq {a b : Value} (ha : a.InNameOrder) (hb : b.InNameOrder) : a.Same b ↔ a = b :=
  ⟨eq_of_same a b ha hb, fun hsame => hsame ▸ same_self a⟩

/-- The map of named values that hold their maps in name order holds its own so, too. -/
theorem inNameOrder_ofPairs {pairs : List (String × Value)}
    (h : ∀ name item, (name, item) ∈ pairs → item.InNameOrder) : (ofPairs pairs).InNameOrder := by
  refine ⟨Entries.sorted_ofList pairs, entriesInNameOrder_iff.mpr fun name item hmem => ?_⟩
  exact h name item (NameMap.mem_of_get?_ofList
    ((NameMap.mem_entries_iff (.ofList pairs) name item).mp hmem))

/-- The sequence order is a total order of all values: it is swapped with its sides, transitive, and
finds no difference only between a value and itself; so between identical values, which are held
alike if their maps are in name order. Where one value is less or greater than another one, it comes
before or after it. -/
theorem sequenceCompare_total (a b c : Value) :
    a.sequenceCompare b = (b.sequenceCompare a).swap ∧
    ((a.sequenceCompare b).isLE → (b.sequenceCompare c).isLE → (a.sequenceCompare c).isLE) ∧
    (a.sequenceCompare b = .eq ↔ a = b) ∧
    (a.InNameOrder → b.InNameOrder → (a.sequenceCompare b = .eq ↔ a.Same b)) ∧
    ∀ order, a.compare? b = some order → order ≠ .eq → a.sequenceCompare b = order := by
  refine ⟨sequenceCompare_swap a b, Std.TransCmp.isLE_trans, sequenceCompare_eq_iff a b,
    fun ha hb => ?_, fun order => sequenceCompare_of_compare?⟩
  rw [sequenceCompare_eq_iff, same_iff_eq ha hb]

/-- A map of a count and of a ratio that is a NaN. -/
private def counted (count : Value) : Value :=
  ofPairs [("ratio", .float ⟨0x7ff8000000000000⟩), ("count", count)]

/-- Of two integers at the place of one float the smaller one comes first and the float last. A map
is the same in whatever order its entries come, with a NaN among them too. -/
theorem sequenceCompare_counted :
    (counted (.integer 9007199254740992)).sequenceCompare (counted (.integer 9007199254740993)) =
        .lt ∧
      (counted (.integer 9007199254740993)).sequenceCompare
        (counted (.float ⟨0x4340000000000000⟩)) = .lt ∧
      ((counted (.integer 9007199254740992)).sequenceCompare
        (counted (.float ⟨0x4340000000000000⟩))).isLE ∧
      (counted .null).Same (ofPairs [("count", .null), ("ratio", .float ⟨0x7ff8000000000000⟩)]) ∧
      (Value.integer 2).compare? (.float ⟨0x4004000000000000⟩) = some .lt ∧
      (Value.integer 2).sequenceCompare (.float ⟨0x4004000000000000⟩) = .lt := by
  have hsmall : (counted (.integer 9007199254740992)).sequenceCompare
      (counted (.integer 9007199254740993)) = .lt := by decide
  have hlarge : (counted (.integer 9007199254740993)).sequenceCompare
      (counted (.float ⟨0x4340000000000000⟩)) = .lt := by decide
  have hless : (Value.integer 2).compare? (.float ⟨0x4004000000000000⟩) = some .lt := by decide
  have hordered (pairs : List (String × Value)) (h : ∀ pair ∈ pairs, pair.2.IsScalar) :
      (ofPairs pairs).InNameOrder :=
    inNameOrder_ofPairs fun _ _ hmem => inNameOrder_of_isScalar (h _ hmem)
  refine ⟨hsmall, hlarge, ?_, ?_, hless, ?_⟩
  · exact (sequenceCompare_total _ _ _).2.1 (by rw [hsmall]; rfl) (by rw [hlarge]; rfl)
  · refine ((sequenceCompare_total _ _ .null).2.2.2.1 ?_ ?_).mp (by decide)
    · exact hordered _ (by simp [IsScalar])
    · exact hordered _ (by simp [IsScalar])
  · exact (sequenceCompare_total _ _ .null).2.2.2.2 .lt hless (by decide)

end Value

end MetadataGraph

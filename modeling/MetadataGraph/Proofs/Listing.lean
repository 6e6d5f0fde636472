import Mathlib.Data.List.Perm.Subperm
import MetadataGraph.NameMap

/-!
# Listing a map by name

A `NameMap` lists its entries in the order of their names, so a listing is determined by the set of
names that it runs over. We prove:

* `mem_keys_iff`: the names listed are those with an entry;
* `mem_of_get?_ofList`: what is found in the map of a list of pairs is in the list;
* `get?_ofList_eq_some_iff` and `mem_values_ofList_iff`: what the map of a list of pairs has, if no
  name stands for two values;
* `pairwise_values_ofList`: the map of items under names of their own lists them in this order;
* `filterMap_values`: a listing of values is a listing of names and of what is found under them;
* `filterMap_keys_congr`: two maps give the same listing through a partial function if they have an
  entry for the same names among those on which the function is defined.
-/

namespace MetadataGraph.NameMap

variable {α β γ : Type}

/-- The names of a map are listed in increasing order. -/
theorem pairwise_keys (m : NameMap α) : m.keys.Pairwise (· < ·) :=
  List.pairwise_map.mpr m.sorted

/-- What is listed by name is listed in the order of the keys that it has, if each has for a key the
name under which it was found. -/
theorem pairwise_filterMap_keys (m : NameMap α) {pick : String → Option β} {key : β → String}
    (h : ∀ name item, pick name = some item → key item = name) :
    (m.keys.filterMap pick).Pairwise fun item later => key item < key later := by
  rw [List.pairwise_filterMap]
  refine m.pairwise_keys.imp fun {name other} hlt item hitem later hlater => ?_
  rwa [h name item hitem, h other later hlater]

/-- The names listed are those with an entry. -/
theorem mem_keys_iff {m : NameMap α} {name : String} :
    name ∈ m.keys ↔ (m.get? name).isSome := by
  rw [Option.isSome_iff_exists, keys, List.mem_map]
  constructor
  · rintro ⟨⟨key, value⟩, hmem, rfl⟩
    exact ⟨value, (mem_entries_iff m key value).mp hmem⟩
  · rintro ⟨value, hget⟩
    exact ⟨(name, value), (mem_entries_iff m name value).mpr hget, rfl⟩

/-- Of the entries that are kept those are found that pass the test. -/
theorem get?_filter (m : NameMap α) (keep : String → α → Bool) (name : String) :
    (m.filter keep).get? name = (m.get? name).filter (keep name) := by
  ext value
  rw [← mem_entries_iff, Option.filter_eq_some_iff, ← mem_entries_iff]
  exact List.mem_filter

/-- A listing of values runs over the names and what is found under them. -/
theorem filterMap_values (m : NameMap α) (f : α → Option β) :
    m.values.filterMap f = m.keys.filterMap fun name => (m.get? name).bind f := by
  rw [values, keys, List.filterMap_map, List.filterMap_map]
  apply List.filterMap_congr
  intro ⟨name, value⟩ hmem
  simp [(mem_entries_iff m name value).mp hmem]

/-- Names in increasing order do not repeat. -/
private theorem nodup_of_pairwise_lt {names : List String} (h : names.Pairwise (· < ·)) :
    names.Nodup := by
  apply h.imp
  intro a b hlt heq
  subst b
  exact String.lt_irrefl a hlt

/-- A map that has an entry for every name of another one has as many entries at least. -/
theorem size_le_of_keys_subset {a : NameMap α} {b : NameMap β} (h : a.keys ⊆ b.keys) :
    a.size ≤ b.size := by
  have hlength := (List.subperm_of_subset (nodup_of_pairwise_lt a.pairwise_keys) h).length_le
  rwa [keys, keys, List.length_map, List.length_map] at hlength

/-- What is found in the map of a list of pairs is in the list. -/
theorem mem_of_get?_ofList {pairs : List (String × α)} {name : String} {value : α}
    (h : (ofList pairs).get? name = some value) : (name, value) ∈ pairs := by
  -- an entry is either there at the start, where there is none, or it was put from a pair
  have hfold : ∀ entries : List (String × α), ∀ entry ∈ pairs.foldl
      (fun entries pair => Entries.insert pair.1 pair.2 entries) entries,
        entry ∈ entries ∨ entry ∈ pairs := by
    clear h
    induction pairs with
    | nil => exact fun entries entry hmem => Or.inl hmem
    | cons pair rest ih =>
      intro entries entry hmem
      rcases ih (Entries.insert pair.1 pair.2 entries) entry hmem with hmem | hmem
      · rcases Entries.mem_insert hmem with rfl | hmem
        · exact Or.inr List.mem_cons_self
        · exact Or.inl hmem
      · exact Or.inr (List.mem_cons_of_mem pair hmem)
  exact (hfold [] _ ((mem_entries_iff _ name value).mpr h)).resolve_left List.not_mem_nil

/-- Every name of a list of pairs has an entry in their map. -/
theorem isSome_get?_ofList {pairs : List (String × α)} {name : String} {value : α}
    (h : (name, value) ∈ pairs) : ((ofList pairs).get? name).isSome := by
  -- an entry may be replaced when the rest of the list is put, but it does not go away
  suffices ∀ entries, (name, value) ∈ pairs ∨ (Entries.find? name entries).isSome →
      (Entries.find? name (pairs.foldl
        (fun entries pair => Entries.insert pair.1 pair.2 entries) entries)).isSome from
    this [] (Or.inl h)
  clear h
  induction pairs with
  | nil => exact fun entries h => h.resolve_left List.not_mem_nil
  | cons pair rest ih =>
    intro entries h
    refine ih _ ?_
    rw [Entries.find?_insert]
    rcases h with hmem | hsome
    · rcases List.mem_cons.mp hmem with rfl | hmem
      · exact Or.inr (by simp)
      · exact Or.inl hmem
    · refine Or.inr ?_
      split
      · rfl
      · exact hsome

/-- If no name of a list of pairs stands for two values, their map has the pairs of the list. -/
theorem get?_ofList_eq_some_iff {pairs : List (String × α)}
    (h : ∀ name value other, (name, value) ∈ pairs → (name, other) ∈ pairs → value = other)
    {name : String} {value : α} :
    (ofList pairs).get? name = some value ↔ (name, value) ∈ pairs := by
  refine ⟨mem_of_get?_ofList, fun hmem => ?_⟩
  obtain ⟨found, hfound⟩ := Option.isSome_iff_exists.mp (isSome_get?_ofList hmem)
  rw [hfound, h name found value (mem_of_get?_ofList hfound) hmem]

/-- Its values are those of the list then. -/
theorem mem_values_ofList_iff {pairs : List (String × α)}
    (h : ∀ name value other, (name, value) ∈ pairs → (name, other) ∈ pairs → value = other)
    {value : α} : value ∈ (ofList pairs).values ↔ ∃ name, (name, value) ∈ pairs := by
  simp only [values, List.mem_map, Prod.exists, mem_entries_iff, exists_eq_right,
    get?_ofList_eq_some_iff h]

/-- The map of items under names of their own lists them in the order of these. -/
theorem pairwise_values_ofList (name : α → String) (items : List α) :
    (ofList (items.map fun item => (name item, item))).values.Pairwise
      fun item later => name item < name later := by
  set m := ofList (items.map fun item => (name item, item)) with hm
  have hname (entry : String × α) (hmem : entry ∈ m.entries) : entry.1 = name entry.2 := by
    rw [mem_entries_iff, hm] at hmem
    obtain ⟨item, -, hitem⟩ := List.mem_map.mp (mem_of_get?_ofList hmem)
    obtain ⟨hkey, hvalue⟩ := Prod.mk.inj hitem
    rw [← hkey, ← hvalue]
  refine List.pairwise_map.mpr (m.sorted.imp_of_mem fun {entry later} hentry hlater hless => ?_)
  rwa [hname entry hentry, hname later hlater] at hless

/-- Lists of names in increasing order with the same members are equal. -/
theorem eq_of_pairwise_lt {names others : List String} (h : names.Pairwise (· < ·))
    (h' : others.Pairwise (· < ·)) (hmem : ∀ name, name ∈ names ↔ name ∈ others) :
    names = others := by
  have hperm : names.Perm others :=
    (List.perm_ext_iff_of_nodup (nodup_of_pairwise_lt h) (nodup_of_pairwise_lt h')).mpr hmem
  refine hperm.eq_of_pairwise (fun a b _ _ hab hba => ?_) h h'
  exact absurd (String.lt_trans hab hba) (String.lt_irrefl a)

/-- Two maps list the same results of a partial function when they have an entry for the same names
among those on which it is defined. -/
theorem filterMap_keys_congr {a : NameMap α} {b : NameMap β} {f : String → Option γ}
    (h : ∀ name, (f name).isSome → ((a.get? name).isSome ↔ (b.get? name).isSome)) :
    a.keys.filterMap f = b.keys.filterMap f := by
  -- a listing only depends on the names on which the function is defined
  have hdefined (names : List String) :
      names.filterMap f = (names.filter fun name => (f name).isSome).filterMap f := by
    rw [List.filterMap_filter]
    refine List.filterMap_congr fun name _ => ?_
    cases f name <;> rfl
  rw [hdefined a.keys, hdefined b.keys]
  congr 1
  apply eq_of_pairwise_lt (a.pairwise_keys.filter _) (b.pairwise_keys.filter _)
  intro name
  simp only [List.mem_filter, mem_keys_iff]
  exact and_congr_left (h name)

end MetadataGraph.NameMap

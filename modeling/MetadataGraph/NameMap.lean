/-!
# Maps keyed by names

A `NameMap` holds its entries in increasing order of their names (by code point), so that two
maps with the same look-ups are equal and every listing is in name order. Main statements:
`get?_insert`, `get?_erase` and the extensionality law `ext_get?`.
-/

namespace MetadataGraph

/-! ## Sorted entry lists -/

namespace Entries

variable {α β : Type}

/-- The entries are strictly increasing in their names, so no name occurs twice. -/
def Sorted (entries : List (String × α)) : Prop :=
  entries.Pairwise fun a b => a.1 < b.1

/-- The value under a name, if there is an entry for it. -/
def find? (name : String) : List (String × α) → Option α
  | [] => none
  | (key, value) :: rest => if key = name then some value else find? name rest

/-- Put a value under a name, replacing the entry of that name. -/
def insert (name : String) (value : α) : List (String × α) → List (String × α)
  | [] => [(name, value)]
  | (key, old) :: rest =>
    if name < key then (name, value) :: (key, old) :: rest
    else if name = key then (name, value) :: rest
    else (key, old) :: insert name value rest

/-- Drop the entry of a name. -/
def erase (name : String) (entries : List (String × α)) : List (String × α) :=
  entries.filter fun entry => entry.1 ≠ name

/-- The sorted entries of a list of pairs, a later pair replacing an earlier one of its name. -/
def ofList (pairs : List (String × α)) : List (String × α) :=
  pairs.foldl (fun entries pair => insert pair.1 pair.2 entries) []

theorem sorted_nil : Sorted ([] : List (String × α)) := List.Pairwise.nil

theorem mem_insert {name : String} {value : α} {entry : String × α} :
    ∀ {entries : List (String × α)}, entry ∈ insert name value entries →
      entry = (name, value) ∨ entry ∈ entries
  | [], h => by simpa [insert] using h
  | (key, old) :: rest, h => by
    unfold insert at h
    split at h
    · simpa using h
    · split at h
      · rcases List.mem_cons.1 h with h | h
        · exact Or.inl h
        · exact Or.inr (List.mem_cons_of_mem _ h)
      · rcases List.mem_cons.1 h with h | h
        · exact Or.inr (h ▸ List.mem_cons_self)
        · exact (mem_insert h).imp_right (List.mem_cons_of_mem _)

private theorem lt_of_not_lt_of_ne {a b : String} (hlt : ¬a < b) (hne : ¬a = b) : b < a :=
  Decidable.byContradiction fun h => hne (String.le_antisymm h hlt)

theorem sorted_insert (name : String) (value : α) :
    ∀ {entries : List (String × α)}, Sorted entries → Sorted (insert name value entries)
  | [], _ => by simp [insert, Sorted]
  | (key, old) :: rest, h => by
    obtain ⟨head, tail⟩ := List.pairwise_cons.1 h
    unfold insert
    split
    · rename_i before
      refine List.pairwise_cons.2 ⟨fun entry mem => ?_, h⟩
      rcases List.mem_cons.1 mem with rfl | mem
      · exact before
      · exact String.lt_trans before (head entry mem)
    · split
      · rename_i same
        exact List.pairwise_cons.2 ⟨fun entry mem => same ▸ head entry mem, tail⟩
      · rename_i notBefore different
        refine List.pairwise_cons.2 ⟨fun entry mem => ?_, sorted_insert name value tail⟩
        rcases mem_insert mem with rfl | mem
        · exact lt_of_not_lt_of_ne notBefore different
        · exact head entry mem

theorem sorted_erase (name : String) {entries : List (String × α)} (h : Sorted entries) :
    Sorted (erase name entries) :=
  List.Pairwise.sublist List.filter_sublist h

theorem sorted_filter (keep : String × α → Bool) {entries : List (String × α)}
    (h : Sorted entries) : Sorted (entries.filter keep) :=
  List.Pairwise.sublist List.filter_sublist h

theorem sorted_map (f : String → α → β) {entries : List (String × α)} (h : Sorted entries) :
    Sorted (entries.map fun entry => (entry.1, f entry.1 entry.2)) :=
  List.pairwise_map.2 h

theorem sorted_ofList (pairs : List (String × α)) : Sorted (ofList pairs) := by
  suffices ∀ entries, Sorted entries →
      Sorted (pairs.foldl (fun entries pair => insert pair.1 pair.2 entries) entries) from
    this [] sorted_nil
  induction pairs with
  | nil => exact fun _ h => h
  | cons pair rest ih => exact fun entries h => ih _ (sorted_insert pair.1 pair.2 h)

theorem find?_insert (name query : String) (value : α) :
    ∀ entries : List (String × α),
      find? query (insert name value entries) =
        if name = query then some value else find? query entries
  | [] => by simp [insert, find?]
  | (key, old) :: rest => by
    unfold insert
    split
    · simp [find?]
    · split
      · rename_i same
        subst same
        simp only [find?]
        split <;> rfl
      · rename_i different
        simp only [find?, find?_insert name query value rest]
        split
        · rename_i here
          subst here
          simp [different]
        · rfl

theorem find?_erase (name query : String) :
    ∀ entries : List (String × α),
      find? query (erase name entries) = if name = query then none else find? query entries
  | [] => by simp [erase, find?]
  | (key, old) :: rest => by
    have ih := find?_erase name query rest
    by_cases here : key = name
    · subst here
      simp only [erase, ne_eq, not_true_eq_false, decide_false, Bool.false_eq_true,
        not_false_eq_true, List.filter_cons_of_neg, find?] at ih ⊢
      rw [ih]
      split <;> rfl
    · simp only [erase, ne_eq, here, not_false_eq_true, decide_true, List.filter_cons_of_pos,
        find?] at ih ⊢
      rw [ih]
      by_cases found : key = query
      · subst found
        simp [Ne.symm here]
      · simp [found]

theorem find?_eq_some_of_mem {entries : List (String × α)} (h : Sorted entries)
    {name : String} {value : α} (mem : (name, value) ∈ entries) :
    find? name entries = some value := by
  induction entries with
  | nil => cases mem
  | cons entry rest ih =>
    obtain ⟨key, old⟩ := entry
    obtain ⟨head, tail⟩ := List.pairwise_cons.1 h
    rcases List.mem_cons.1 mem with same | mem
    · cases same
      simp [find?]
    · have below : key < name := head _ mem
      have : key ≠ name := fun same => String.lt_irrefl name (same ▸ below)
      simp [find?, this, ih tail mem]

theorem mem_of_find?_eq_some {name : String} {value : α} :
    ∀ {entries : List (String × α)}, find? name entries = some value → (name, value) ∈ entries
  | [], h => by simp [find?] at h
  | (key, old) :: rest, h => by
    unfold find? at h
    split at h
    · rename_i same
      cases h
      exact same ▸ List.mem_cons_self
    · exact List.mem_cons_of_mem _ (mem_of_find?_eq_some h)

theorem find?_eq_some_iff {entries : List (String × α)} (h : Sorted entries)
    {name : String} {value : α} : find? name entries = some value ↔ (name, value) ∈ entries :=
  ⟨mem_of_find?_eq_some, find?_eq_some_of_mem h⟩

private theorem eq_nil_of_find?_eq_none {entries : List (String × α)} (h : Sorted entries)
    (none_found : ∀ name, find? name entries = none) : entries = [] := by
  cases entries with
  | nil => rfl
  | cons entry rest =>
    have := none_found entry.1
    have found : find? entry.1 (entry :: rest) = some entry.2 :=
      find?_eq_some_of_mem h List.mem_cons_self
    rw [found] at this
    cases this

/-- Sorted entry lists with the same look-ups are equal. -/
theorem eq_of_find?_eq : ∀ {a b : List (String × α)}, Sorted a → Sorted b →
    (∀ name, find? name a = find? name b) → a = b
  | [], b, _, sortedB, same =>
    (eq_nil_of_find?_eq_none sortedB fun name => (same name).symm).symm
  | a, [], sortedA, _, same => eq_nil_of_find?_eq_none sortedA same
  | (keyA, valueA) :: restA, (keyB, valueB) :: restB, sortedA, sortedB, same => by
    obtain ⟨headA, tailA⟩ := List.pairwise_cons.1 sortedA
    obtain ⟨headB, tailB⟩ := List.pairwise_cons.1 sortedB
    have inB : (keyA, valueA) ∈ (keyB, valueB) :: restB :=
      mem_of_find?_eq_some ((same keyA).symm.trans (by simp [find?]))
    have inA : (keyB, valueB) ∈ (keyA, valueA) :: restA :=
      mem_of_find?_eq_some ((same keyB).trans (by simp [find?]))
    have heads : (keyA, valueA) = (keyB, valueB) := by
      rcases List.mem_cons.1 inB with h | memB
      · exact h
      · rcases List.mem_cons.1 inA with h | memA
        · exact h.symm
        · exact absurd (String.lt_trans (headA _ memA) (headB _ memB)) (String.lt_irrefl _)
    cases heads
    have notIn (rest : List (String × α)) (head : ∀ entry ∈ rest, keyA < entry.1) :
        find? keyA rest = none := by
      cases found : find? keyA rest with
      | none => rfl
      | some value =>
        exact absurd (head _ (mem_of_find?_eq_some found)) (String.lt_irrefl keyA)
    have tails : restA = restB := eq_of_find?_eq tailA tailB fun name => by
      by_cases here : keyA = name
      · subst here
        rw [notIn restA headA, notIn restB headB]
      · simpa [find?, here] using same name
    rw [tails]

end Entries

/-! ## The map type -/

/-- A finite map from names to values, its entries strictly increasing in their names. -/
structure NameMap (α : Type) where
  /-- The entries in name order. -/
  entries : List (String × α)
  /-- Names increase strictly along the entries. -/
  sorted : Entries.Sorted entries

namespace NameMap

variable {α β : Type}

/-- The map without entries. -/
def empty : NameMap α := ⟨[], Entries.sorted_nil⟩

instance : EmptyCollection (NameMap α) := ⟨empty⟩

instance : Inhabited (NameMap α) := ⟨empty⟩

@[ext] theorem ext {a b : NameMap α} (h : a.entries = b.entries) : a = b := by
  cases a
  cases b
  cases h
  rfl

instance [DecidableEq α] : DecidableEq (NameMap α) := fun a b =>
  decidable_of_iff (a.entries = b.entries) ⟨NameMap.ext, fun h => h ▸ rfl⟩

/-- The value under a name. -/
def get? (m : NameMap α) (name : String) : Option α := Entries.find? name m.entries

/-- Whether there is an entry for a name. -/
def contains (m : NameMap α) (name : String) : Bool := (m.get? name).isSome

/-- Put a value under a name, replacing what was there. -/
def insert (m : NameMap α) (name : String) (value : α) : NameMap α :=
  ⟨Entries.insert name value m.entries, Entries.sorted_insert name value m.sorted⟩

/-- Drop the entry of a name. -/
def erase (m : NameMap α) (name : String) : NameMap α :=
  ⟨Entries.erase name m.entries, Entries.sorted_erase name m.sorted⟩

/-- The names in order. -/
def keys (m : NameMap α) : List String := m.entries.map Prod.fst

/-- The values in the order of their names. -/
def values (m : NameMap α) : List α := m.entries.map Prod.snd

/-- The number of entries. -/
def size (m : NameMap α) : Nat := m.entries.length

/-- Whether there is no entry. -/
def isEmpty (m : NameMap α) : Bool := m.entries.isEmpty

/-- The map of a list of pairs, a later pair replacing an earlier one of its name. -/
def ofList (pairs : List (String × α)) : NameMap α :=
  ⟨Entries.ofList pairs, Entries.sorted_ofList pairs⟩

/-- Replace every value by a function of its name and itself. -/
def map (f : String → α → β) (m : NameMap α) : NameMap β :=
  ⟨m.entries.map fun entry => (entry.1, f entry.1 entry.2), Entries.sorted_map f m.sorted⟩

/-- Keep the entries that pass a test. -/
def filter (keep : String → α → Bool) (m : NameMap α) : NameMap α :=
  ⟨m.entries.filter fun entry => keep entry.1 entry.2, Entries.sorted_filter _ m.sorted⟩

/-- The entries of both maps, the second map's where a name has one in each. -/
def merge (m other : NameMap α) : NameMap α :=
  other.entries.foldl (fun merged entry => merged.insert entry.1 entry.2) m

@[simp] theorem get?_empty (name : String) : (∅ : NameMap α).get? name = none := rfl

@[simp] theorem get?_insert (m : NameMap α) (name query : String) (value : α) :
    (m.insert name value).get? query = if name = query then some value else m.get? query :=
  Entries.find?_insert name query value m.entries

@[simp] theorem get?_erase (m : NameMap α) (name query : String) :
    (m.erase name).get? query = if name = query then none else m.get? query :=
  Entries.find?_erase name query m.entries

theorem mem_entries_iff (m : NameMap α) (name : String) (value : α) :
    (name, value) ∈ m.entries ↔ m.get? name = some value :=
  (Entries.find?_eq_some_iff m.sorted).symm

/-- Maps with the same look-ups are equal. -/
theorem ext_get? {a b : NameMap α} (h : ∀ name, a.get? name = b.get? name) : a = b :=
  NameMap.ext (Entries.eq_of_find?_eq a.sorted b.sorted h)

end NameMap

/-- A finite set of names, listed in order. -/
abbrev NameSet := NameMap Unit

namespace NameSet

/-- Add a name. -/
def add (names : NameSet) (name : String) : NameSet := names.insert name ()

end NameSet

end MetadataGraph

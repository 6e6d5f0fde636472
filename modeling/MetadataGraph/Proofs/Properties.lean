import MetadataGraph.Pattern
import MetadataGraph.Proofs.Listing

/-!
# Properties

What is kept of properties by their names, and what a search for texts sees of them. We prove:

* `Properties.get?_project`: a projection has the properties with the given names and no others;
* `Properties.mem_strings_iff`: the texts of properties are those that they hold at any depth;
* `TextPattern.occursInAny_iff`: a pattern occurs in properties if it matches a text that they hold.
-/

namespace MetadataGraph

/-! ## Texts -/

namespace Value

/-- A value holds a text: it is the text or the name of an enumeration member, or an item or entry
of it holds the text. -/
inductive HasString : Value → String → Prop
  | string (text : String) : HasString (string text) text
  | enumeration (ordinal : Int32) (name : String) : HasString (enumeration ordinal name) name
  | array {items : List Value} {item : Value} {text : String} (hmem : item ∈ items)
      (hitem : item.HasString text) : HasString (array items) text
  | map {entries : List (String × Value)} {name : String} {value : Value} {text : String}
      (hmem : (name, value) ∈ entries) (hvalue : value.HasString text) :
      HasString (map entries) text

variable {text : String}

/-- The texts of a list of values are those of its items. -/
theorem mem_stringsOfItems_iff {items : List Value} :
    text ∈ stringsOfItems items ↔ ∃ item ∈ items, text ∈ item.strings := by
  induction items with
  | nil => simp [stringsOfItems]
  | cons item rest ih => simp [stringsOfItems, ih]

/-- The texts of map entries are those of their values. -/
theorem mem_stringsOfEntries_iff {entries : List (String × Value)} :
    text ∈ stringsOfEntries entries ↔
      ∃ name value, (name, value) ∈ entries ∧ text ∈ value.strings := by
  induction entries with
  | nil => simp [stringsOfEntries]
  | cons entry rest ih =>
    obtain ⟨key, held⟩ := entry
    simp [stringsOfEntries, ih, or_and_right, exists_or]

mutual

-- the recursion is that of the listing, which goes into items and entries in turn
/-- A value holds its texts. -/
private theorem hasString_of_mem : ∀ {value : Value}, text ∈ value.strings → value.HasString text
  | string _, h => by
    rw [List.mem_singleton.mp h]
    exact .string _
  | enumeration ordinal _, h => by
    rw [List.mem_singleton.mp h]
    exact .enumeration ordinal _
  | array _, h => hasString_array h
  | map _, h => hasString_map h
  | null, h | boolean _, h | integer _, h | float _, h | dateTime _, h =>
    absurd h List.not_mem_nil

private theorem hasString_array : ∀ {items : List Value}, text ∈ stringsOfItems items →
    (array items).HasString text
  | [], h => absurd h List.not_mem_nil
  | _ :: _, h => by
    rcases List.mem_append.mp h with hitem | hrest
    · exact .array List.mem_cons_self (hasString_of_mem hitem)
    · cases hasString_array hrest with
      | array hmem hitem => exact .array (List.mem_cons_of_mem _ hmem) hitem

private theorem hasString_map : ∀ {entries : List (String × Value)},
    text ∈ stringsOfEntries entries → (map entries).HasString text
  | [], h => absurd h List.not_mem_nil
  | _ :: _, h => by
    rcases List.mem_append.mp h with hvalue | hrest
    · exact .map List.mem_cons_self (hasString_of_mem hvalue)
    · cases hasString_map hrest with
      | map hmem hvalue => exact .map (List.mem_cons_of_mem _ hmem) hvalue

end

/-- The texts of a value are those that it holds. -/
theorem mem_strings_iff {value : Value} : text ∈ value.strings ↔ value.HasString text := by
  refine ⟨hasString_of_mem, fun h => ?_⟩
  -- an item or entry that holds the text has it in its own listing
  induction h with
  | string | enumeration => exact List.mem_singleton_self _
  | array hmem _ ih => exact mem_stringsOfItems_iff.mpr ⟨_, hmem, ih⟩
  | map hmem _ ih => exact mem_stringsOfEntries_iff.mpr ⟨_, _, hmem, ih⟩

end Value

namespace Properties

/-- One of the properties holds a text. -/
def HasString (properties : Properties) (text : String) : Prop :=
  ∃ name value, properties.get? name = some value ∧ value.HasString text

/-- The texts of properties are those that they hold. -/
theorem mem_strings_iff {properties : Properties} {text : String} :
    text ∈ properties.strings ↔ properties.HasString text := by
  simp only [strings, NameMap.values, List.mem_flatMap, List.mem_map, Prod.exists,
    NameMap.mem_entries_iff, Value.mem_strings_iff, HasString, exists_eq_right]
  constructor
  · rintro ⟨value, ⟨name, hget⟩, htext⟩
    exact ⟨name, value, hget, htext⟩
  · rintro ⟨name, value, hget, htext⟩
    exact ⟨value, ⟨name, hget⟩, htext⟩

end Properties

/-- A pattern occurs in properties if it matches in a text that they hold. -/
theorem TextPattern.occursInAny_iff {pattern : TextPattern} {properties : Properties} :
    pattern.occursInAny properties ↔
      ∃ text, properties.HasString text ∧ pattern.occursIn text := by
  simp only [occursInAny, List.any_eq_true, Properties.mem_strings_iff]

/-! ## Projections -/

/-- A projection has the properties with the given names and no others. -/
theorem Properties.get?_project (properties : Properties) (names : List String) (name : String) :
    (properties.project names).get? name =
      if name ∈ names then properties.get? name else none := by
  -- a name that is given twice stands for one value, as it is looked up in the same properties
  have hpairs (key : String) (value : Value) :
      (key, value) ∈ names.filterMap (fun name => (properties.get? name).map fun value =>
        (name, value)) ↔ key ∈ names ∧ properties.get? key = some value := by
    simp [List.mem_filterMap]
  ext value
  rw [project, NameMap.get?_ofList_eq_some_iff, hpairs]
  · split
    · rename_i hmem
      exact and_iff_right hmem
    · rename_i hmem
      simp [hmem]
  · intro key one other hone hother
    rw [hpairs] at hone hother
    exact Option.some.inj (hone.2.symm.trans hother.2)

end MetadataGraph

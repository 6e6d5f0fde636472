import Mathlib.Logic.Relation
import MetadataGraph.Proofs.Catalog

/-!
# The type hierarchy

A definition names at most one type right above its own, which may be undefined, the same type or
one below it. The types above a type therefore form a line, which stops at a type that names none or
runs into a type that was met before. We prove:

* `climbs_supertypesFrom`: a walk up the hierarchy comes to its end within one step more than there
  are definitions;
* `reflTransGen_iff`: what can be reached by following definitions is met after some steps;
* `IsWholeLine.mem_iff` and `IsWholeLine.getElem?_eq_some_iff`: a line that does not go on has all
  types that can be reached, each at the step where it is first met;
* `Climbs.isWholeLine`: a finished walk has found such a line;
* `supertypes_exact`: the types above a type are those that can be reached, nearest first, and a
  definition that is added later leaves them in front.
-/

namespace MetadataGraph

namespace TypeCatalog

variable {catalog : TypeCatalog} {name above : TypeName} {found found' : List TypeName}
  {next : Option TypeName} {steps : Nat}

/-! ## Ancestors -/

/-- A type is defined and names another one as the type right above it. -/
def Declares (catalog : TypeCatalog) (name above : TypeName) : Prop :=
  ∃ type, catalog.get? name = some type ∧ type.supertype = some above

theorem supertype?_eq_some_iff :
    catalog.supertype? name = some above ↔ catalog.Declares name above :=
  Option.bind_eq_some_iff

/-- The type so many steps above a type. -/
def ancestor? (catalog : TypeCatalog) (name : TypeName) : (steps : Nat) → Option TypeName
  | 0 => some name
  | steps + 1 => (catalog.ancestor? name steps).bind catalog.supertype?

theorem ancestor?_succ_eq_some_iff :
    catalog.ancestor? name (steps + 1) = some above ↔
      ∃ below, catalog.ancestor? name steps = some below ∧ catalog.Declares below above := by
  rw [ancestor?, Option.bind_eq_some_iff]
  exact exists_congr fun below => and_congr_right fun _ => supertype?_eq_some_iff

/-- What can be reached by following definitions is met after some steps. -/
theorem reflTransGen_iff :
    Relation.ReflTransGen catalog.Declares name above ↔
      ∃ steps, catalog.ancestor? name steps = some above := by
  constructor
  · intro h
    induction h with
    | refl => exact ⟨0, rfl⟩
    | tail _ hdeclares ih =>
      obtain ⟨steps, hsteps⟩ := ih
      exact ⟨steps + 1, ancestor?_succ_eq_some_iff.mpr ⟨_, hsteps, hdeclares⟩⟩
  · rintro ⟨steps, hsteps⟩
    induction steps generalizing above with
    | zero =>
      cases hsteps
      exact .refl
    | succ steps ih =>
      obtain ⟨below, hbelow, hdeclares⟩ := ancestor?_succ_eq_some_iff.mp hsteps
      exact (ih hbelow).tail hdeclares

/-- A type is met after so many steps, and not before. -/
def FirstMet (catalog : TypeCatalog) (name : TypeName) (steps : Nat) (above : TypeName) : Prop :=
  catalog.ancestor? name steps = some above ∧
    ∀ earlier < steps, catalog.ancestor? name earlier ≠ some above

/-! ## Lines -/

/-- The types found are those above a type, one step after the other, and none is met twice. -/
structure IsLine (catalog : TypeCatalog) (name : TypeName) (found : List TypeName) : Prop where
  /-- The type at each place is the one so many steps above. -/
  ancestor : ∀ steps ≤ found.length, catalog.ancestor? name steps = (name :: found)[steps]?
  /-- No type occurs twice, and the type that they are above does not occur. -/
  nodup : (name :: found).Nodup

/-- The type at a place is so many steps above. -/
theorem IsLine.ancestor_of_getElem? (h : catalog.IsLine name found)
    (hplace : (name :: found)[steps]? = some above) :
    steps ≤ found.length ∧ catalog.ancestor? name steps = some above := by
  have hle := Nat.le_of_lt_succ (List.getElem?_eq_some_iff.mp hplace).1
  exact ⟨hle, (h.ancestor steps hle).trans hplace⟩

theorem isLine_nil (catalog : TypeCatalog) (name : TypeName) : catalog.IsLine name [] where
  ancestor steps hsteps := by
    cases Nat.le_zero.mp hsteps
    rfl
  nodup := List.pairwise_singleton _ name

/-- A line goes on with the type right above its last one, if that was not met before. -/
theorem IsLine.concat (h : catalog.IsLine name found)
    (hnext : catalog.ancestor? name (found.length + 1) = some above)
    (hnew : above ∉ name :: found) :
    catalog.IsLine name (found ++ [above]) where
  ancestor steps hsteps := by
    rw [List.length_append, List.length_singleton] at hsteps
    rw [← List.cons_append]
    rcases Nat.le_succ_iff.mp hsteps with hle | rfl
    · rw [List.getElem?_append_left (by simpa using Nat.lt_succ_of_le hle)]
      exact h.ancestor steps hle
    · rw [hnext, Nat.succ_eq_add_one, ← List.length_cons, List.getElem?_concat_length]
  nodup := by
    rw [← List.cons_append]
    refine List.nodup_append.mpr ⟨h.nodup, List.pairwise_singleton _ above, ?_⟩
    rintro type hmem other hother rfl
    exact hnew (List.mem_singleton.mp hother ▸ hmem)

/-- All types of a line but the last one are defined, so it is no longer than the catalog. -/
theorem IsLine.length_le (h : catalog.IsLine name found) :
    found.length ≤ catalog.types.size := by
  have hsubset : (name :: found).dropLast ⊆ catalog.types.keys := by
    intro type hmem
    obtain ⟨place, hplace, rfl⟩ := List.mem_iff_getElem.mp hmem
    rw [List.length_dropLast, List.length_cons, Nat.add_sub_cancel] at hplace
    -- the type one step further was found in the definition of this one
    have hnext : catalog.ancestor? name (place + 1) = some found[place] :=
      (h.ancestor (place + 1) hplace).trans (by simp)
    obtain ⟨below, hbelow, type, htype, -⟩ := ancestor?_succ_eq_some_iff.mp hnext
    rw [h.ancestor place (Nat.le_of_lt hplace), List.getElem?_eq_some_iff] at hbelow
    obtain ⟨_, rfl⟩ := hbelow
    rw [List.getElem_dropLast]
    exact NameMap.mem_keys_iff.mpr (Option.isSome_iff_exists.mpr ⟨type, htype⟩)
  have hnodup : (name :: found).dropLast.Nodup := h.nodup.sublist (List.dropLast_sublist _)
  have hlength := (List.subperm_of_subset hnodup hsubset).length_le
  rwa [List.length_dropLast, List.length_cons, Nat.add_sub_cancel, NameMap.keys,
    List.length_map] at hlength

/-- A line that does not go on: what comes next, if anything, was met before. -/
structure IsWholeLine (catalog : TypeCatalog) (name : TypeName) (found : List TypeName) : Prop
    extends IsLine catalog name found where
  /-- What comes next was met before. -/
  ended : ∀ above, catalog.ancestor? name (found.length + 1) = some above → above ∈ name :: found

/-- The types of a whole line are all that are met. -/
theorem IsWholeLine.mem_of_ancestor? (h : catalog.IsWholeLine name found)
    (habove : catalog.ancestor? name steps = some above) : above ∈ name :: found := by
  induction steps generalizing above with
  | zero =>
    cases habove
    exact List.mem_cons_self
  | succ steps ih =>
    obtain ⟨below, hbelow, hdeclares⟩ := ancestor?_succ_eq_some_iff.mp habove
    obtain ⟨place, hplace⟩ := List.mem_iff_getElem?.mp (ih hbelow)
    -- the type is one step above that place, be it met there for the first time or not
    obtain ⟨hle, hbelow⟩ := h.ancestor_of_getElem? hplace
    have hnext := ancestor?_succ_eq_some_iff.mpr ⟨below, hbelow, hdeclares⟩
    rcases Nat.lt_or_eq_of_le hle with hlt | rfl
    · rw [h.ancestor (place + 1) hlt] at hnext
      exact List.mem_of_getElem? hnext
    · exact h.ended above hnext

/-- A whole line consists of the types that can be reached. -/
theorem IsWholeLine.mem_iff (h : catalog.IsWholeLine name found) :
    above ∈ name :: found ↔ Relation.ReflTransGen catalog.Declares name above := by
  rw [reflTransGen_iff]
  constructor
  · intro hmem
    obtain ⟨place, hplace⟩ := List.mem_iff_getElem?.mp hmem
    exact ⟨place, (h.ancestor_of_getElem? hplace).2⟩
  · rintro ⟨steps, hsteps⟩
    exact h.mem_of_ancestor? hsteps

/-- A whole line has every type at the step where it is first met. -/
theorem IsWholeLine.getElem?_eq_some_iff (h : catalog.IsWholeLine name found) :
    (name :: found)[steps]? = some above ↔ catalog.FirstMet name steps above := by
  constructor
  · intro hsteps
    obtain ⟨hle, hmet⟩ := h.ancestor_of_getElem? hsteps
    refine ⟨hmet, fun earlier hearlier hbefore => ?_⟩
    have hlt : earlier < (name :: found).length :=
      Nat.lt_of_lt_of_le hearlier (Nat.le_succ_of_le hle)
    -- it would stand at two places of the line
    rw [h.ancestor earlier (Nat.le_of_lt_succ hlt), ← hsteps] at hbefore
    exact Nat.ne_of_lt hearlier ((List.getElem?_inj hlt h.nodup).mp hbefore)
  · rintro ⟨hsteps, hfirst⟩
    obtain ⟨place, hplace⟩ := List.mem_iff_getElem?.mp (h.mem_of_ancestor? hsteps)
    obtain ⟨hle, hmet⟩ := h.ancestor_of_getElem? hplace
    have hnotBefore : ¬place < steps := fun hlt => hfirst place hlt hmet
    rw [← h.ancestor steps (by omega)]
    exact hsteps

/-! ## Walks -/

/-- A walk up the hierarchy from the types found so far to the next one ends with more of them. No
number of steps is set: it ends where no type comes next, or one that was met before. -/
inductive Climbs (catalog : TypeCatalog) (name : TypeName) :
    List TypeName → Option TypeName → List TypeName → Prop where
  /-- No type comes next. -/
  | top {found : List TypeName} : Climbs catalog name found none found
  /-- The next type was met before. -/
  | met {found : List TypeName} {above : TypeName} (hmet : above ∈ name :: found) :
      Climbs catalog name found (some above) found
  /-- The next type is new, and the walk goes on with the one right above it. -/
  | climb {found found' : List TypeName} {above : TypeName} (hnew : above ∉ name :: found)
      (later : Climbs catalog name (found ++ [above]) (catalog.supertype? above) found') :
      Climbs catalog name found (some above) found'

/-- A walk comes to its end within one step more than there are definitions. -/
theorem climbs_supertypesFrom (h : catalog.IsLine name found)
    (hnext : next = catalog.ancestor? name (found.length + 1))
    (henough : catalog.types.size < found.length + steps) :
    catalog.Climbs name found next (catalog.supertypesFrom name found next steps) := by
  induction steps generalizing found next with
  | zero =>
    -- a line has no more types than there are definitions, so the steps do not run out
    exact absurd h.length_le (Nat.not_le.mpr henough)
  | succ steps ih =>
    cases next with
    | none => exact .top
    | some above =>
      have hguard : (found.contains above || decide (above = name)) = true ↔
          above ∈ name :: found := by
        rw [Bool.or_eq_true, List.contains_iff_mem, decide_eq_true_eq, List.mem_cons, or_comm]
      rw [supertypesFrom]
      split
      · rename_i hmet
        exact .met (hguard.mp hmet)
      · rename_i hnew
        have hnew := mt hguard.mpr hnew
        refine .climb hnew (ih (h.concat hnext.symm hnew) ?_ ?_)
        · rw [List.length_append, List.length_singleton, ancestor?, ← hnext, Option.bind_some]
        · rw [List.length_append, List.length_singleton]
          omega

/-- A finished walk has found a whole line. -/
theorem Climbs.isWholeLine (h : catalog.Climbs name found next found')
    (hline : catalog.IsLine name found)
    (hnext : next = catalog.ancestor? name (found.length + 1)) :
    catalog.IsWholeLine name found' := by
  induction h with
  | top =>
    refine ⟨hline, fun above habove => ?_⟩
    cases hnext.trans habove
  | met hmet =>
    refine ⟨hline, fun above habove => ?_⟩
    cases hnext.trans habove
    exact hmet
  | climb hnew _ ih =>
    refine ih (hline.concat hnext.symm hnew) ?_
    rw [List.length_append, List.length_singleton, ancestor?, ← hnext, Option.bind_some]

/-! ## The types above a type -/

/-- The walk to the types above a type comes to its end. -/
theorem climbs_supertypes (catalog : TypeCatalog) (name : TypeName) :
    catalog.Climbs name [] (catalog.supertype? name) (catalog.supertypes name) :=
  climbs_supertypesFrom (isLine_nil catalog name) rfl (by simp)

/-- The walk up the hierarchy ends by itself for every type of every catalog. It finds no type twice
and not the type itself, but all others that can be reached by following definitions, each at the
place of the step where it is first met. A type is thus below those that can be reached from it. The
types found stay in front when a definition is added. -/
theorem supertypes_exact (catalog : TypeCatalog) (name : TypeName) :
    catalog.Climbs name [] (catalog.supertype? name) (catalog.supertypes name) ∧
      (catalog.supertypes name).Nodup ∧ name ∉ catalog.supertypes name ∧
      (∀ above, above ∈ catalog.supertypes name ↔
        above ≠ name ∧ Relation.ReflTransGen catalog.Declares name above) ∧
      (∀ place above, (catalog.supertypes name)[place]? = some above ↔
        catalog.FirstMet name (place + 1) above) ∧
      (∀ ancestor, catalog.isSubtype name ancestor ↔
        Relation.ReflTransGen catalog.Declares name ancestor) ∧
      ∀ type, catalog.supertypes name <+: (catalog.add type).2.supertypes name := by
  have hclimbs := climbs_supertypes catalog name
  have hline := hclimbs.isWholeLine (isLine_nil catalog name) rfl
  obtain ⟨hname, hnodup⟩ := List.nodup_cons.mp hline.nodup
  refine ⟨hclimbs, hnodup, hname, fun above => ?_, fun place above => ?_, fun ancestor => ?_, ?_⟩
  · rw [← hline.mem_iff, List.mem_cons]
    constructor
    · intro hmem
      exact ⟨fun hsame => hname (hsame ▸ hmem), Or.inr hmem⟩
    · rintro ⟨hne, hsame | hmem⟩
      · exact absurd hsame hne
      · exact hmem
  · rw [← hline.getElem?_eq_some_iff, List.getElem?_cons_succ]
  · rw [← hline.mem_iff, isSubtype, Bool.or_eq_true, decide_eq_true_eq, List.contains_iff_mem,
      List.mem_cons, eq_comm]
  · exact fun type => Extends.supertypes_prefix (catalog.extends_add type) name

end TypeCatalog

end MetadataGraph

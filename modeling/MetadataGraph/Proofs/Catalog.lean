import MetadataGraph.Catalog
import MetadataGraph.Proofs.Listing
import MetadataGraph.Proofs.Outcome

/-!
# Growing catalogs

A catalog only grows: a definition can be added but neither changed nor removed. A type above
another one that was not defined may become so, or a cycle may close, and yet no check that has
passed is refused later. We prove:

* `Extends.supertypes_prefix`: the types above a type stay, and further ones come after them only;
* `Extends.supertypes_eq`: no further ones come if a type and all types above it are defined;
* `checkProperties_eq_ok_iff` and its siblings: when the checks of instances pass;
* `Extends.checkProperties` and its siblings: they keep passing when the catalog grows.
-/

namespace MetadataGraph

namespace TypeCatalog

variable {catalog larger largest : TypeCatalog} {name : TypeName}

/-- A catalog has all definitions of another one. -/
def Extends (catalog larger : TypeCatalog) : Prop :=
  ∀ name type, catalog.get? name = some type → larger.get? name = some type

theorem Extends.refl (catalog : TypeCatalog) : catalog.Extends catalog := fun _ _ h => h

theorem Extends.trans (h : catalog.Extends larger) (h' : larger.Extends largest) :
    catalog.Extends largest :=
  fun name type htype => h' name type (h name type htype)

/-- A catalog keeps its definitions when one is added. -/
theorem extends_add (catalog : TypeCatalog) (type : TypeDefinition) :
    catalog.Extends (catalog.add type).2 := by
  intro name defined hdefined
  unfold add
  split
  · exact hdefined
  · rename_i hnew
    -- the name that is added is not one of those that are defined
    have hne : type.name ≠ name := by
      rintro rfl
      exact hnew (Option.isSome_iff_exists.mpr ⟨defined, hdefined⟩)
    exact (NameMap.get?_insert _ _ _ _).trans ((if_neg hne).trans hdefined)

/-- A catalog has as many definitions at least as one that it extends. -/
theorem Extends.size_le (h : catalog.Extends larger) : catalog.types.size ≤ larger.types.size := by
  refine NameMap.size_le_of_keys_subset fun name hname => ?_
  obtain ⟨type, htype⟩ := Option.isSome_iff_exists.mp (NameMap.mem_keys_iff.mp hname)
  exact NameMap.mem_keys_iff.mpr (Option.isSome_iff_exists.mpr ⟨type, h name type htype⟩)

/-! ## The type hierarchy -/

/-- The type right above a type stays. -/
theorem Extends.supertype? (h : catalog.Extends larger) {above : TypeName}
    (hsupertype : catalog.supertype? name = some above) :
    larger.supertype? name = some above := by
  obtain ⟨type, htype, hsupertype⟩ := Option.bind_eq_some_iff.mp hsupertype
  exact Option.bind_eq_some_iff.mpr ⟨type, h name type htype, hsupertype⟩

/-- A walk up the hierarchy only adds to the types that it has found. -/
theorem prefix_supertypesFrom (above : List TypeName) (next : Option TypeName) (steps : Nat) :
    above <+: catalog.supertypesFrom name above next steps := by
  induction steps generalizing above next with
  | zero => cases next <;> exact List.prefix_refl above
  | succ steps ih =>
    cases next with
    | none => exact List.prefix_refl above
    | some next =>
      rw [supertypesFrom]
      split
      · exact List.prefix_refl above
      · exact (List.prefix_append above [next]).trans (ih _ _)

/-- A walk up the hierarchy finds in a larger catalog what it found, in the same order. -/
theorem Extends.supertypesFrom_prefix (h : catalog.Extends larger) {above : List TypeName}
    {next next' : Option TypeName} (hnext : ∀ type, next = some type → next' = some type)
    {steps steps' : Nat} (hsteps : steps ≤ steps') :
    catalog.supertypesFrom name above next steps <+:
      larger.supertypesFrom name above next' steps' := by
  -- by induction on the steps in the smaller catalog, which has no more definitions to step through
  induction steps generalizing above next next' steps' with
  | zero =>
    have hstop : catalog.supertypesFrom name above next 0 = above := by cases next <;> rfl
    rw [hstop]
    exact prefix_supertypesFrom above next' steps'
  | succ steps ih =>
    cases next with
    | none => exact prefix_supertypesFrom above next' steps'
    | some type =>
      obtain ⟨more, rfl⟩ := Nat.exists_eq_add_of_le' (Nat.zero_lt_of_lt hsteps)
      rw [hnext type rfl, supertypesFrom, supertypesFrom]
      -- both walks have found the same types so far, so a cycle that stops one stops the other
      split
      · exact List.prefix_refl above
      · exact ih (fun type => h.supertype?) (Nat.le_of_succ_le_succ hsteps)

/-- The types above a type stay, and further ones come after them only. -/
theorem Extends.supertypes_prefix (h : catalog.Extends larger) (name : TypeName) :
    catalog.supertypes name <+: larger.supertypes name :=
  h.supertypesFrom_prefix (fun _ => h.supertype?) (Nat.succ_le_succ h.size_le)

/-- A type and all types above it are defined. -/
def IsRooted (catalog : TypeCatalog) (name : TypeName) : Prop :=
  ∀ type ∈ name :: catalog.supertypes name, catalog.contains type

instance (catalog : TypeCatalog) (name : TypeName) : Decidable (catalog.IsRooted name) :=
  inferInstanceAs (Decidable (∀ type ∈ _, _))

/-- The type right above a defined type is the same in a larger catalog. -/
theorem Extends.supertype?_eq (h : catalog.Extends larger) (hdefined : catalog.contains name) :
    larger.supertype? name = catalog.supertype? name := by
  obtain ⟨type, htype⟩ := Option.isSome_iff_exists.mp hdefined
  exact congrArg (Option.bind · TypeDefinition.supertype) ((h name type htype).trans htype.symm)

/-- A walk up the hierarchy through defined types finds the same in a larger catalog, if it may take
one step more than there are definitions. -/
theorem Extends.supertypesFrom_eq (h : catalog.Extends larger) {above : List TypeName}
    {next : Option TypeName} {steps steps' : Nat}
    (hdefined : ∀ type ∈ catalog.supertypesFrom name above next steps, catalog.contains type)
    (hnodup : above.Nodup) (henough : catalog.types.size < above.length + steps)
    (hsteps : steps ≤ steps') :
    larger.supertypesFrom name above next steps' =
      catalog.supertypesFrom name above next steps := by
  induction steps generalizing above next steps' with
  | zero =>
    -- the types that were found are too many to be defined all, as none was found twice
    have hsubset : above ⊆ catalog.types.keys := fun type hmem =>
      NameMap.mem_keys_iff.mpr (hdefined type ((prefix_supertypesFrom above next 0).subset hmem))
    have hlength := (List.subperm_of_subset hnodup hsubset).length_le
    rw [NameMap.keys, List.length_map] at hlength
    exact absurd hlength (Nat.not_le.mpr henough)
  | succ steps ih =>
    obtain ⟨more, rfl⟩ := Nat.exists_eq_add_of_le' (Nat.zero_lt_of_lt hsteps)
    cases next with
    | none => rfl
    | some next =>
      rw [supertypesFrom] at hdefined ⊢
      rw [supertypesFrom]
      split at hdefined
      · rename_i hstop
        rw [if_pos hstop, if_pos hstop]
      · rename_i hgoes
        rw [if_neg hgoes, if_neg hgoes]
        simp only [Bool.or_eq_true, List.contains_iff_mem, decide_eq_true_eq, not_or] at hgoes
        -- the next type is among those that are found, and so defined
        have hnext : catalog.contains next := hdefined next <|
          (prefix_supertypesFrom _ _ _).subset
            (List.mem_append_right above (List.mem_singleton_self next))
        rw [h.supertype?_eq hnext]
        refine ih hdefined ?_ ?_ (Nat.le_of_succ_le_succ hsteps)
        · refine List.nodup_append.mpr ⟨hnodup, List.pairwise_singleton _ _, ?_⟩
          rintro type htype other hother rfl
          exact hgoes.1 (List.mem_singleton.mp hother ▸ htype)
        · rw [List.length_append, List.length_singleton]
          omega

/-- If a type and all types above it are defined, they are the same in a larger catalog. -/
theorem Extends.supertypes_eq (h : catalog.Extends larger) (hrooted : catalog.IsRooted name) :
    larger.supertypes name = catalog.supertypes name := by
  obtain ⟨hname, habove⟩ := List.forall_mem_cons.mp hrooted
  rw [supertypes, h.supertype?_eq hname]
  exact h.supertypesFrom_eq habove List.nodup_nil (by simp) (Nat.succ_le_succ h.size_le)

/-- A type stays below the types that it is below. -/
theorem Extends.isSubtype (h : catalog.Extends larger) {ancestor : TypeName}
    (hsubtype : catalog.isSubtype name ancestor) : larger.isSubtype name ancestor := by
  simp only [TypeCatalog.isSubtype, Bool.or_eq_true, decide_eq_true_eq,
    List.contains_iff_mem] at hsubtype ⊢
  exact hsubtype.imp_right fun hmem => (h.supertypes_prefix name).subset hmem

/-- If all types above a type are defined, it does not come below further ones. -/
theorem Extends.isSubtype_eq (h : catalog.Extends larger) (hrooted : catalog.IsRooted name)
    (ancestor : TypeName) : larger.isSubtype name ancestor = catalog.isSubtype name ancestor := by
  rw [TypeCatalog.isSubtype, TypeCatalog.isSubtype, h.supertypes_eq hrooted]

/-- The declared properties of a type stay declared. -/
theorem Extends.declaredProperties_subset (h : catalog.Extends larger) (name : TypeName) :
    catalog.declaredProperties name ⊆ larger.declaredProperties name := by
  intro property hproperty
  simp only [declaredProperties, lineage, List.mem_flatMap, List.mem_filterMap] at hproperty ⊢
  obtain ⟨type, ⟨member, hmember, htype⟩, hdeclares⟩ := hproperty
  refine ⟨type, ⟨member, ?_, h member type htype⟩, hdeclares⟩
  exact List.cons_subset_cons name (h.supertypes_prefix name).subset hmember

/-! ## Checks -/

/-- A type is found if it is defined with the category. -/
theorem find_eq_ok_iff {category : TypeCategory} {type : TypeDefinition} :
    catalog.find name category = .ok type ↔
      catalog.get? name = some type ∧ type.category = category := by
  unfold find
  cases catalog.get? name with
  | none => simp
  | some found =>
    by_cases hcategory : found.category = category
    · simp only [if_pos hcategory, Except.ok.injEq, Option.some.injEq]
      exact ⟨fun heq => ⟨heq, heq ▸ hcategory⟩, And.left⟩
    · simp only [if_neg hcategory, reduceCtorEq, Option.some.injEq, false_iff]
      rintro ⟨rfl, hsame⟩
      exact hcategory hsame

/-- A type is required as it is found. -/
theorem require_eq_ok_iff {category : TypeCategory} {type : TypeDefinition} :
    catalog.require name category = .ok type ↔ catalog.find name category = .ok type := by
  unfold require
  cases catalog.find name category <;> simp [Except.mapError]

/-- A reference to a type has its name, and the type is found. -/
theorem typeRef_eq_ok {category : TypeCategory} {typeRef : TypeRef}
    (h : catalog.typeRef name category = .ok typeRef) :
    typeRef.name = name ∧ ∃ type, catalog.find name category = .ok type := by
  simp only [TypeCatalog.typeRef, Outcome.bind_eq_ok_iff, Outcome.pure_eq_ok_iff,
    require_eq_ok_iff] at h
  obtain ⟨type, hfind, rfl⟩ := h
  exact ⟨rfl, type, hfind⟩

/-- A reference to a type names the types that the type is below. -/
theorem isA_eq_isSubtype {category : TypeCategory} {typeRef : TypeRef}
    (h : catalog.typeRef name category = .ok typeRef) (ancestor : TypeName) :
    typeRef.isA ancestor = catalog.isSubtype name ancestor := by
  simp only [TypeCatalog.typeRef, Outcome.bind_eq_ok_iff, Outcome.pure_eq_ok_iff] at h
  obtain ⟨-, -, rfl⟩ := h
  rfl

/-- Properties pass if all of them are declared. -/
theorem checkProperties_eq_ok_iff {properties : Properties} :
    catalog.checkProperties name properties = .ok () ↔
      properties.keys ⊆ catalog.declaredProperties name := by
  simp only [checkProperties, Outcome.forM_eq_ok_iff, Outcome.require_eq_ok_iff,
    List.contains_iff_mem]
  rfl

/-- A status passes if its type is defined and does not exclude it. -/
theorem checkStatus_eq_ok_iff {status : Status} :
    catalog.checkStatus name status = .ok () ↔
      ∃ type, catalog.get? name = some type ∧
        (status.isDeleted || type.validStatuses.isEmpty || type.validStatuses.contains status) := by
  unfold checkStatus
  cases catalog.get? name with
  | none => simp
  | some type => simp [Outcome.require_eq_ok_iff]

/-- A classification passes if it is defined and applies to the type or to one above it. -/
theorem checkClassification_eq_ok_iff {entityType : TypeName} :
    catalog.checkClassification name entityType = .ok () ↔
      ∃ type, catalog.find name .classification = .ok type ∧
        (type.validEntityTypes.isEmpty ∨
          ∃ applicable ∈ type.validEntityTypes, catalog.isSubtype entityType applicable) := by
  rw [checkClassification, Outcome.bind_eq_ok_iff]
  refine exists_congr fun type => and_congr ?_ ?_
  · cases catalog.find name .classification <;> simp [Except.mapError]
  · simp [Outcome.require_eq_ok_iff]

/-- Entities pass as the ends of a relationship if its type is defined and asks for no ends, or for
theirs or types above them. -/
theorem checkEnds_eq_ok_iff {endOneType endTwoType : TypeName} :
    catalog.checkEnds name endOneType endTwoType = .ok () ↔
      ∃ type, catalog.find name .relationship = .ok type ∧
        ∀ one two, type.endTypes = some (one, two) →
          catalog.isSubtype endOneType one ∧ catalog.isSubtype endTwoType two := by
  rw [checkEnds, Outcome.bind_eq_ok_iff]
  refine exists_congr fun type => and_congr require_eq_ok_iff ?_
  cases type.endTypes with
  | none => simp
  | some ends =>
    obtain ⟨one, two⟩ := ends
    simp [Outcome.bind_eq_ok_iff, Outcome.require_eq_ok_iff]

/-- A type that is found is found in a larger catalog. -/
theorem Extends.find (h : catalog.Extends larger) {category : TypeCategory} {type : TypeDefinition}
    (hfind : catalog.find name category = .ok type) : larger.find name category = .ok type := by
  obtain ⟨hget, hcategory⟩ := find_eq_ok_iff.mp hfind
  exact find_eq_ok_iff.mpr ⟨h name type hget, hcategory⟩

/-- Properties that pass keep passing when the catalog grows. -/
theorem Extends.checkProperties (h : catalog.Extends larger) {properties : Properties}
    (hok : catalog.checkProperties name properties = .ok ()) :
    larger.checkProperties name properties = .ok () := by
  rw [checkProperties_eq_ok_iff] at hok ⊢
  exact fun property hproperty => h.declaredProperties_subset name (hok hproperty)

/-- A status that passes keeps passing when the catalog grows. -/
theorem Extends.checkStatus (h : catalog.Extends larger) {status : Status}
    (hok : catalog.checkStatus name status = .ok ()) : larger.checkStatus name status = .ok () := by
  obtain ⟨type, htype, hallowed⟩ := checkStatus_eq_ok_iff.mp hok
  exact checkStatus_eq_ok_iff.mpr ⟨type, h name type htype, hallowed⟩

/-- A classification that passes keeps passing when the catalog grows. -/
theorem Extends.checkClassification (h : catalog.Extends larger) {entityType : TypeName}
    (hok : catalog.checkClassification name entityType = .ok ()) :
    larger.checkClassification name entityType = .ok () := by
  obtain ⟨type, hfind, happlies⟩ := checkClassification_eq_ok_iff.mp hok
  refine checkClassification_eq_ok_iff.mpr ⟨type, h.find hfind, happlies.imp_right ?_⟩
  exact fun ⟨applicable, hmem, hsubtype⟩ => ⟨applicable, hmem, h.isSubtype hsubtype⟩

/-- Ends that pass keep passing when the catalog grows. -/
theorem Extends.checkEnds (h : catalog.Extends larger) {endOneType endTwoType : TypeName}
    (hok : catalog.checkEnds name endOneType endTwoType = .ok ()) :
    larger.checkEnds name endOneType endTwoType = .ok () := by
  obtain ⟨type, hfind, hends⟩ := checkEnds_eq_ok_iff.mp hok
  refine checkEnds_eq_ok_iff.mpr ⟨type, h.find hfind, fun one two htypes => ?_⟩
  obtain ⟨hone, htwo⟩ := hends one two htypes
  exact ⟨h.isSubtype hone, h.isSubtype htwo⟩

end TypeCatalog

end MetadataGraph

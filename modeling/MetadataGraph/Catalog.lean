import MetadataGraph.Error
import MetadataGraph.Instance.Record

/-!
# The type catalog

Types say what properties and statuses instances may have, which classifications apply to which
entities and which entities a relationship may connect. A type inherits properties and ends from
the types above it; a definition may name a type above it that is not defined, or a cycle.
-/

namespace MetadataGraph

/-- The definition of a type. -/
structure TypeDefinition where
  /-- The type's name. -/
  name : TypeName
  /-- What it is a type of. -/
  category : TypeCategory
  /-- The type right above it. -/
  supertype : Option TypeName
  /-- The properties that it declares itself. -/
  properties : List String
  /-- Those of them that identify an entity. -/
  uniqueProperties : List String
  /-- The statuses that its instances may have; none for all. -/
  validStatuses : List Status
  /-- For a relationship, the types of the entities at its ends. -/
  endTypes : Option (TypeName × TypeName)
  /-- For a classification, the types of the entities it applies to; none for all. -/
  validEntityTypes : List TypeName
  deriving DecidableEq

/-- The defined types by name. -/
structure TypeCatalog where
  /-- The definitions. -/
  types : NameMap TypeDefinition
  deriving DecidableEq

namespace TypeCatalog

instance : EmptyCollection TypeCatalog := ⟨⟨∅⟩⟩

instance : Inhabited TypeCatalog := ⟨∅⟩

/-- The definition of a type. -/
def get? (catalog : TypeCatalog) (name : TypeName) : Option TypeDefinition :=
  catalog.types.get? name

/-- Whether a type is defined. -/
def contains (catalog : TypeCatalog) (name : TypeName) : Bool := catalog.types.contains name

/-- Add a definition, unless its name is taken; whether it was added. -/
def add (catalog : TypeCatalog) (type : TypeDefinition) : Bool × TypeCatalog :=
  if catalog.contains type.name then (false, catalog)
  else (true, ⟨catalog.types.insert type.name type⟩)

/-- The catalog of a list of definitions; of several with one name the first counts. -/
def ofList (types : List TypeDefinition) : TypeCatalog :=
  types.foldl (fun catalog type => (catalog.add type).2) ∅

/-! ## The type hierarchy -/

/-- The type right above a type. -/
def supertype? (catalog : TypeCatalog) (name : TypeName) : Option TypeName :=
  (catalog.get? name).bind (·.supertype)

/-- Go on from the types above `name` found so far to the next one; stop at one that was met
before. -/
def supertypesFrom (catalog : TypeCatalog) (name : TypeName) (above : List TypeName) :
    Option TypeName → Nat → List TypeName
  | some next, steps + 1 =>
    if above.contains next || next = name then above
    else catalog.supertypesFrom name (above ++ [next]) (catalog.supertype? next) steps
  | _, _ => above

/-- The types above a type, nearest first. All of them but the last are defined. -/
def supertypes (catalog : TypeCatalog) (name : TypeName) : List TypeName :=
  catalog.supertypesFrom name [] (catalog.supertype? name) (catalog.types.size + 1)

/-- Whether a type is another one or below it. -/
def isSubtype (catalog : TypeCatalog) (name ancestor : TypeName) : Bool :=
  name = ancestor || (catalog.supertypes name).contains ancestor

/-- The definitions of a type and of the types above it, nearest first. -/
def lineage (catalog : TypeCatalog) (name : TypeName) : List TypeDefinition :=
  (name :: catalog.supertypes name).filterMap catalog.get?

/-- The properties declared by a type and the types above it. -/
def declaredProperties (catalog : TypeCatalog) (name : TypeName) : List String :=
  (catalog.lineage name).flatMap (·.properties)

/-- The properties that identify the entities of a type. -/
def uniqueProperties (catalog : TypeCatalog) (name : TypeName) : List String :=
  (catalog.lineage name).flatMap (·.uniqueProperties)

/-! ## Checks -/

/-- What is wrong with a name as that of a type of a category; otherwise its definition. -/
def find (catalog : TypeCatalog) (name : TypeName) (category : TypeCategory) :
    Except TypeFault TypeDefinition :=
  match catalog.get? name with
  | none => .error (.unknownType name)
  | some type =>
    if type.category = category then .ok type
    else .error (.wrongCategory name type.category category)

/-- The definition of a type of a category, which must exist. -/
def require (catalog : TypeCatalog) (name : TypeName) (category : TypeCategory) :
    Outcome TypeDefinition :=
  (catalog.find name category).mapError fun fault => .refused (.typeError fault)

/-- The reference that instances of a type carry. -/
def typeRef (catalog : TypeCatalog) (name : TypeName) (category : TypeCategory) :
    Outcome TypeRef := do
  let _ ← catalog.require name category
  return ⟨name, catalog.supertypes name⟩

/-- Every property must be declared. -/
def checkProperties (catalog : TypeCatalog) (name : TypeName) (properties : Properties) :
    Outcome Unit :=
  let declared := catalog.declaredProperties name
  properties.keys.forM fun property =>
    .require (declared.contains property) (.undeclaredProperty property name)

/-- A status must be among those of the type; the deleted status always is. -/
def checkStatus (catalog : TypeCatalog) (name : TypeName) (status : Status) : Outcome Unit :=
  match catalog.get? name with
  | none => .error (.refused (.typeError (.unknownType name)))
  | some type =>
    .require (status.isDeleted || type.validStatuses.isEmpty || type.validStatuses.contains status)
      (.typeError (.invalidStatus status name))

/-- A classification must apply to the entities of a type. -/
def checkClassification (catalog : TypeCatalog) (name entityType : TypeName) : Outcome Unit := do
  let type ← (catalog.find name .classification).mapError
    fun fault => .refused (.classification (.notAClassification fault))
  .require
    (type.validEntityTypes.isEmpty || type.validEntityTypes.any (catalog.isSubtype entityType))
    (.classification (.inapplicable name entityType))

/-- The entities at the ends of a relationship must have the types that its type asks for. -/
def checkEnds (catalog : TypeCatalog) (name endOneType endTwoType : TypeName) : Outcome Unit := do
  let type ← catalog.require name .relationship
  match type.endTypes with
  | none => .ok ()
  | some (one, two) =>
    .require (catalog.isSubtype endOneType one) (.typeMismatch one endOneType)
    .require (catalog.isSubtype endTwoType two) (.typeMismatch two endTwoType)

end TypeCatalog

end MetadataGraph

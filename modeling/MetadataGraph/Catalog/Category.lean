/-!
# Type categories

What a type is a type of.
-/

namespace MetadataGraph

/-- The three categories of types. -/
inductive TypeCategory where
  /-- Types of entities. -/
  | entity
  /-- Types of relationships. -/
  | relationship
  /-- Types of classifications. -/
  | classification
  deriving DecidableEq, Inhabited

namespace TypeCategory

/-- The category's name in messages. -/
def text : TypeCategory → String
  | entity => "Entity"
  | relationship => "Relationship"
  | classification => "Classification"

end TypeCategory

end MetadataGraph

import MetadataGraph.Value.Order

/-!
# Properties

The properties of an instance: values by property name.
-/

namespace MetadataGraph

/-- Property values by name. -/
abbrev Properties := NameMap Value

namespace Properties

/-- The properties with the given names, as far as they exist. -/
def project (properties : Properties) (names : List String) : Properties :=
  NameMap.ofList (names.filterMap fun name => (properties.get? name).map fun value => (name, value))

/-- Every text held by a property, at any depth. -/
def strings (properties : Properties) : List String :=
  properties.values.flatMap Value.strings

/-- Whether both hold equal values under the same names. -/
def equal (a b : Properties) : Bool := Value.equalEntries a.entries b.entries

end Properties

end MetadataGraph

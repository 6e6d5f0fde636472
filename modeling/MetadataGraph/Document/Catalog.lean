import MetadataGraph.Catalog
import MetadataGraph.Document.Instance

/-!
# Documents of types

The document forms of type definitions and catalogs.
-/

namespace MetadataGraph.DocumentForm

instance : DocumentForm TypeCategory where
  write category := .string category.text
  read := readChoice [.entity, .relationship, .classification] TypeCategory.text

instance : DocumentForm TypeDefinition where
  write type :=
    .object [
      ("name", write type.name),
      ("category", write type.category),
      ("supertype", write type.supertype),
      ("properties", write type.properties),
      ("unique_properties", write type.uniqueProperties),
      ("valid_statuses", write type.validStatuses),
      ("end_types", write type.endTypes),
      ("valid_entity_types", write type.validEntityTypes)]
  read room json := do
    let parts ← Parts.ofJson?
      ["name", "category", "supertype", "properties", "unique_properties", "valid_statuses",
        "end_types", "valid_entity_types"] room json
    return {
      name := ← parts.get "name"
      category := ← parts.get "category"
      supertype := ← parts.get "supertype"
      properties := ← parts.get "properties"
      uniqueProperties := ← parts.get "unique_properties"
      validStatuses := ← parts.get "valid_statuses"
      endTypes := ← parts.get "end_types"
      validEntityTypes := ← parts.get "valid_entity_types" }

instance : DocumentForm TypeCatalog where
  write catalog := .object [("types", write catalog.types)]
  read room json := do
    let parts ← Parts.ofJson? ["types"] room json
    return ⟨← parts.get "types"⟩

end MetadataGraph.DocumentForm

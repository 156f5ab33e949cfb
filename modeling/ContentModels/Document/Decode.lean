import ContentModels.CSharp.Assembly
import ContentModels.Document
import ContentModels.Document.Shape
import ContentModels.Settings

/-!
# Schemas, settings and assemblies in documents

The fields of each record in order, which of them have to be there, and the values
of those that are not.
-/

namespace ContentModels

namespace PropertyType

/-- The fields of a property. -/
def fieldNames : List String :=
  ["Alias", "EditorAlias", "Name", "Description", "Variations", "ValueType"]

/-- Read a property. -/
def ofNode? (n : Node) : Option PropertyType := do
  let f : Fields ← n.asRecord? fieldNames
  return {
    aliasName := ← f.required "Alias" Node.asText?
    editorAlias := ← f.optional "EditorAlias" "" Node.asText?
    name := ← f.optional "Name" "" Node.asText?
    description := ← f.optional "Description" none (Node.asOption? Node.asText?)
    variations := ← f.optional "Variations" .nothing (Node.asOneOf? Variations.all Variations.name)
    valueType := ← f.optional "ValueType" none (Node.asOption? Node.asText?) }

/-- How far a property is read. -/
def shape : Shape :=
  .ofFields fieldNames []

end PropertyType

namespace ContentType

/-- The fields of a content type. -/
def fieldNames : List String :=
  ["Id", "Alias", "ParentId", "Kind", "Name", "Description", "Variations", "Properties",
    "CompositionTypeIds"]

/-- Read a content type. -/
def ofNode? (n : Node) : Option ContentType := do
  let f : Fields ← n.asRecord? fieldNames
  return {
    id := ← f.required "Id" Node.asId?
    aliasName := ← f.required "Alias" Node.asText?
    parentId := ← f.optional "ParentId" none (Node.asOption? Node.asId?)
    kind := ← f.optional "Kind" .content (Node.asOneOf? ContentKind.all ContentKind.name)
    name := ← f.optional "Name" "" Node.asText?
    description := ← f.optional "Description" none (Node.asOption? Node.asText?)
    variations := ← f.optional "Variations" .nothing (Node.asOneOf? Variations.all Variations.name)
    properties := ← f.optional "Properties" [] (Node.asList? PropertyType.ofNode?)
    compositionIds := ← f.optional "CompositionTypeIds" [] (Node.asList? Node.asId?) }

/-- How far content types are read. -/
def listShape : Shape :=
  .list (.ofFields fieldNames [
    ("Properties", .list PropertyType.shape),
    ("CompositionTypeIds", .list .value)])

end ContentType

namespace Node

/-- A table; of two entries with one key the later counts. -/
def asTable? {α : Type} (read : Node → Option α) (n : Node) : Option (Keyed α) := do
  let entries ← (← n.asEntries?).mapM fun e => (read e.2).map (e.1, ·)
  return Keyed.ofList entries

end Node

namespace Settings

/-- The fields of settings. -/
def fieldNames : List String :=
  ["namespace", "using_namespaces", "content_base_class", "element_base_class",
    "content_base_interface", "element_base_interface", "content_reference_type",
    "element_reference_type", "clr_name_source", "property_style", "getter_pattern",
    "language_version", "ignore_content_types", "ignore_property_types",
    "rename_content_types", "rename_property_types"]

/-- Read settings; those that are not given are the standard ones. -/
def ofNode? (n : Node) : Option Settings := do
  let f : Fields ← n.asRecord? fieldNames
  let s := standard
  let texts := Node.asList? Node.asText?
  return {
    modelsNamespace := ← f.optional "namespace" s.modelsNamespace Node.asText?
    usingNamespaces := ← f.optional "using_namespaces" s.usingNamespaces texts
    contentBaseClass := ← f.optional "content_base_class" s.contentBaseClass Node.asText?
    elementBaseClass := ← f.optional "element_base_class" s.elementBaseClass Node.asText?
    contentBaseInterface :=
      ← f.optional "content_base_interface" s.contentBaseInterface Node.asText?
    elementBaseInterface :=
      ← f.optional "element_base_interface" s.elementBaseInterface Node.asText?
    contentReferenceType :=
      ← f.optional "content_reference_type" s.contentReferenceType Node.asText?
    elementReferenceType :=
      ← f.optional "element_reference_type" s.elementReferenceType Node.asText?
    nameSource :=
      ← f.optional "clr_name_source" s.nameSource (Node.asOneOf? NameSource.all NameSource.name)
    propertyStyle :=
      ← f.optional "property_style" s.propertyStyle
        (Node.asOneOf? PropertyStyle.all PropertyStyle.name)
    getterPattern := ← f.optional "getter_pattern" s.getterPattern Node.asText?
    languageVersion := ← f.optional "language_version" s.languageVersion Node.asText?
    ignoredTypes := ← f.optional "ignore_content_types" s.ignoredTypes texts
    ignoredProperties :=
      ← f.optional "ignore_property_types" s.ignoredProperties (Node.asTable? texts)
    typeNames := ← f.optional "rename_content_types" s.typeNames (Node.asTable? Node.asText?)
    propertyNames :=
      ← f.optional "rename_property_types" s.propertyNames
        (Node.asTable? (Node.asTable? Node.asText?)) }

/-- How far settings are read. -/
def shape : Shape :=
  .ofFields fieldNames [
    ("using_namespaces", .list .value),
    ("ignore_content_types", .list .value),
    ("ignore_property_types", .table (.list .value)),
    ("rename_content_types", .table .value),
    ("rename_property_types", .table (.table .value))]

end Settings

namespace CSharp

namespace ReferencedType

/-- Read a type that an assembly offers. -/
def ofNode? (n : Node) : Option ReferencedType := do
  let f : Fields ← n.asRecord? ["namespace", "name", "arity", "kind"]
  return {
    enclosing := ← f.required "namespace" Node.asText?
    name := ← f.required "name" Node.asText?
    arity := ← f.optional "arity" 0 Node.asCount?
    kind := ← f.required "kind" (Node.asOneOf? SymbolKind.all SymbolKind.name) }

end ReferencedType

namespace Assembly

/-- Read an assembly. -/
def ofNode? (n : Node) : Option Assembly := do
  let f : Fields ← n.asRecord? ["name", "types"]
  return {
    name := ← f.required "name" Node.asText?
    types := ← f.required "types" (Node.asList? ReferencedType.ofNode?) }

end Assembly
end CSharp
end ContentModels

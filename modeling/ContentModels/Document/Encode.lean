import ContentModels.Document
import ContentModels.Options.Declaration

/-!
# Options as documents
-/

namespace ContentModels

namespace Node

/-- An object with texts as keys. -/
def record (fields : List (String × Node)) : Node :=
  .object (fields.map fun e => (.text e.1, e.2))

/-- A text that may be absent. -/
def ofOption : Option String → Node
  | none => .null
  | some s => .text s

/-- A list of texts. -/
def ofTexts (l : List String) : Node :=
  .list (l.map .text) true

/-- A table as an object, in key order. -/
def ofTable {α : Type} (write : α → Node) (t : Keyed α) : Node :=
  record (t.entries.map fun e => (e.1, write e.2))

end Node

/-- The options of properties as a document. -/
def PropertyOptions.toNode (o : PropertyOptions) : Node :=
  .record [
    ("ignored_properties", .ofTexts (TextSet.toList o.ignored)),
    ("property_clr_names", .ofTable .text o.names),
    ("implemented_properties", .ofTexts (TextSet.toList o.implemented))]

/-- The options of content types as a document. -/
def ContentTypeOptions.toNode (o : ContentTypeOptions) : Node :=
  .record [
    ("ignored_content_types", .ofTexts (TextSet.toList o.ignored)),
    ("content_type_clr_names", .ofTable .text o.classNames),
    ("by_alias", .ofTable PropertyOptions.toNode o.byAlias),
    ("by_name", .ofTable PropertyOptions.toNode o.byClass),
    ("base_classes", .ofTable .text o.baseClasses),
    ("interfaces", .ofTable .ofTexts o.interfaces),
    ("constructors", .ofTexts (TextSet.toList o.constructors)),
    ("mapped", .bool o.mapped)]

/-- The options of a pass as a document. -/
def CodeOptions.toNode (o : CodeOptions) : Node :=
  .record [
    ("models_namespace", .ofOption o.modelsNamespace),
    ("using_namespaces", .ofTexts o.usingNamespaces),
    ("models_base_class", .ofOption o.modelsBaseClass),
    ("content_types", o.contentTypes.toNode)]

end ContentModels

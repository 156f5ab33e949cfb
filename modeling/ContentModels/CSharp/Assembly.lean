import ContentModels.CSharp.Declaration

/-!
# Referenced assemblies

The types that code can use without declaring them, by name, number of type
parameters and kind.  The standard set describes the framework, the published
content of the management system, and the markers by which code customises
generation.
-/

namespace ContentModels
namespace CSharp

/-- What a type is to the code that names it. -/
inductive SymbolKind where
  | classType
  | interfaceType
  | structType
  | enumType
  | delegateType
deriving DecidableEq, Repr

namespace SymbolKind

/-- The name of a kind. -/
def name : SymbolKind → String
  | .classType => "Class"
  | .interfaceType => "Interface"
  | .structType => "Struct"
  | .enumType => "Enum"
  | .delegateType => "Delegate"

/-- All kinds. -/
def all : List SymbolKind :=
  [.classType, .interfaceType, .structType, .enumType, .delegateType]

/-- What a declared type is to the code that names it: a record is a class. -/
def ofDeclaration : DeclarationKind → SymbolKind
  | .classType | .recordType => .classType
  | .interfaceType => .interfaceType
  | .structType => .structType
  | .enumType => .enumType
  | .delegateType => .delegateType

end SymbolKind

/-- A type that an assembly offers. -/
structure ReferencedType where
  enclosing : String
  name : String
  arity : Nat
  kind : SymbolKind
deriving DecidableEq, Repr

namespace ReferencedType

/-- The name with its namespace. -/
def fullName (t : ReferencedType) : String :=
  if t.enclosing = "" then t.name else t.enclosing ++ "." ++ t.name

end ReferencedType

/-- A referenced assembly. -/
structure Assembly where
  name : String
  types : List ReferencedType
deriving DecidableEq, Repr

namespace Assembly

/-- The core of the framework. -/
def framework : Assembly where
  name := "mscorlib"
  types := [
    ⟨"System", "Object", 0, .classType⟩,
    ⟨"System", "String", 0, .classType⟩,
    ⟨"System", "Attribute", 0, .classType⟩,
    ⟨"System", "Exception", 0, .classType⟩,
    ⟨"System", "Type", 0, .classType⟩,
    ⟨"System", "Uri", 0, .classType⟩,
    ⟨"System", "Int32", 0, .structType⟩,
    ⟨"System", "Int64", 0, .structType⟩,
    ⟨"System", "Decimal", 0, .structType⟩,
    ⟨"System", "Double", 0, .structType⟩,
    ⟨"System", "Boolean", 0, .structType⟩,
    ⟨"System", "DateTime", 0, .structType⟩,
    ⟨"System", "Guid", 0, .structType⟩,
    ⟨"System", "Nullable", 1, .structType⟩,
    ⟨"System", "IDisposable", 0, .interfaceType⟩,
    ⟨"System", "ICloneable", 0, .interfaceType⟩,
    ⟨"System", "IComparable", 0, .interfaceType⟩,
    ⟨"System", "IComparable", 1, .interfaceType⟩,
    ⟨"System", "IEquatable", 1, .interfaceType⟩,
    ⟨"System", "IFormattable", 0, .interfaceType⟩,
    ⟨"System", "Action", 0, .delegateType⟩,
    ⟨"System", "Action", 1, .delegateType⟩,
    ⟨"System", "Func", 1, .delegateType⟩,
    ⟨"System", "Func", 2, .delegateType⟩,
    ⟨"System", "StringComparison", 0, .enumType⟩,
    ⟨"System.Collections", "IEnumerable", 0, .interfaceType⟩,
    ⟨"System.Collections.Generic", "IEnumerable", 1, .interfaceType⟩,
    ⟨"System.Collections.Generic", "ICollection", 1, .interfaceType⟩,
    ⟨"System.Collections.Generic", "IList", 1, .interfaceType⟩,
    ⟨"System.Collections.Generic", "IReadOnlyList", 1, .interfaceType⟩,
    ⟨"System.Collections.Generic", "IDictionary", 2, .interfaceType⟩,
    ⟨"System.Collections.Generic", "List", 1, .classType⟩,
    ⟨"System.Collections.Generic", "Dictionary", 2, .classType⟩,
    ⟨"System.ComponentModel", "INotifyPropertyChanged", 0, .interfaceType⟩,
    ⟨"System.Linq.Expressions", "Expression", 1, .classType⟩]

/-- Types for rendered text. -/
def web : Assembly where
  name := "System.Web"
  types := [
    ⟨"System.Web", "IHtmlString", 0, .interfaceType⟩,
    ⟨"System.Web", "HtmlString", 0, .classType⟩]

/-- Documents as trees; not in the standard set. -/
def xml : Assembly where
  name := "System.Xml"
  types := [
    ⟨"System.Xml", "IHasXmlNode", 0, .interfaceType⟩,
    ⟨"System.Xml", "IXmlLineInfo", 0, .interfaceType⟩,
    ⟨"System.Xml", "XmlNode", 0, .classType⟩,
    ⟨"System.Xml", "XmlDocument", 0, .classType⟩,
    ⟨"System.Xml.XPath", "IXPathNavigable", 0, .interfaceType⟩]

/-- Published content of the management system. -/
def publishedContent : Assembly where
  name := "Umbraco.Core"
  types := [
    ⟨"Umbraco.Core.Models.PublishedContent", "IPublishedElement", 0, .interfaceType⟩,
    ⟨"Umbraco.Core.Models.PublishedContent", "IPublishedContent", 0, .interfaceType⟩,
    ⟨"Umbraco.Core.Models.PublishedContent", "IPublishedContentType", 0, .interfaceType⟩,
    ⟨"Umbraco.Core.Models.PublishedContent", "IPublishedPropertyType", 0, .interfaceType⟩,
    ⟨"Umbraco.Core.Models.PublishedContent", "IPublishedProperty", 0, .interfaceType⟩,
    ⟨"Umbraco.Core.Models.PublishedContent", "PublishedElementModel", 0, .classType⟩,
    ⟨"Umbraco.Core.Models.PublishedContent", "PublishedContentModel", 0, .classType⟩,
    ⟨"Umbraco.Core.Models.PublishedContent", "PublishedElementWrapped", 0, .classType⟩,
    ⟨"Umbraco.Core.Models.PublishedContent", "PublishedContentWrapped", 0, .classType⟩,
    ⟨"Umbraco.Core.Models.PublishedContent", "PublishedModelAttribute", 0, .classType⟩,
    ⟨"Umbraco.Core.Models.PublishedContent", "PublishedItemType", 0, .enumType⟩,
    ⟨"Umbraco.Core.Models", "IMember", 0, .interfaceType⟩,
    ⟨"Umbraco.Core.Models", "IContent", 0, .interfaceType⟩,
    ⟨"Umbraco.Web", "PublishedModelUtility", 0, .classType⟩,
    ⟨"Umbraco.Web", "PublishedElementExtensions", 0, .classType⟩,
    ⟨"Umbraco.Web", "PublishedContentExtensions", 0, .classType⟩]

/-- The markers by which code customises generation. -/
def markers : Assembly where
  name := "Umbraco.ModelsBuilder"
  types := [
    ⟨"Umbraco.ModelsBuilder", "ImplementPropertyTypeAttribute", 0, .classType⟩,
    ⟨"Umbraco.ModelsBuilder", "IgnorePropertyTypeAttribute", 0, .classType⟩,
    ⟨"Umbraco.ModelsBuilder", "RenamePropertyTypeAttribute", 0, .classType⟩,
    ⟨"Umbraco.ModelsBuilder", "IgnoreContentTypeAttribute", 0, .classType⟩,
    ⟨"Umbraco.ModelsBuilder", "RenameContentTypeAttribute", 0, .classType⟩,
    ⟨"Umbraco.ModelsBuilder", "ImplementContentTypeAttribute", 0, .classType⟩,
    ⟨"Umbraco.ModelsBuilder", "ModelsNamespaceAttribute", 0, .classType⟩,
    ⟨"Umbraco.ModelsBuilder", "ModelsUsingAttribute", 0, .classType⟩,
    ⟨"Umbraco.ModelsBuilder", "ModelsBaseClassAttribute", 0, .classType⟩]

/-- The standard set of references. -/
def standard : List Assembly :=
  [framework, web, publishedContent, markers]

end Assembly

end CSharp
end ContentModels

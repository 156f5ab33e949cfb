import ContentModels.Naming
import ContentModels.Options.Declaration
import ContentModels.Text.Search

/-!
# Settings

What a host configures for a pass.  Settings are checked before they are used, and
they contribute declarations for the patterns and names that they list.
-/

namespace ContentModels

/-- How the values of properties are accessed. -/
inductive PropertyStyle where
  | property
  | extensionMethod
  | propertyAndExtensionMethod
  | method
deriving DecidableEq, Repr, Inhabited

namespace PropertyStyle

/-- The name of a style. -/
def name : PropertyStyle → String
  | .property => "Property"
  | .extensionMethod => "ExtensionMethod"
  | .propertyAndExtensionMethod => "PropertyAndExtensionMethod"
  | .method => "Method"

/-- All styles. -/
def all : List PropertyStyle :=
  [.property, .extensionMethod, .propertyAndExtensionMethod, .method]

/-- Whether classes get properties. -/
def hasProperties : PropertyStyle → Bool
  | .property | .propertyAndExtensionMethod => true
  | _ => false

/-- Whether extension methods are generated. -/
def hasExtensionMethods : PropertyStyle → Bool
  | .extensionMethod | .propertyAndExtensionMethod => true
  | _ => false

/-- Whether classes get members for properties at all. -/
def hasMembers : PropertyStyle → Bool
  | .extensionMethod => false
  | _ => true

end PropertyStyle

/-- The settings of a pass. -/
structure Settings where
  modelsNamespace : String
  usingNamespaces : List String
  contentBaseClass : String
  elementBaseClass : String
  contentBaseInterface : String
  elementBaseInterface : String
  contentReferenceType : String
  elementReferenceType : String
  nameSource : NameSource
  propertyStyle : PropertyStyle
  /-- The name of a getter, with a placeholder for the name of its property. -/
  getterPattern : String
  /-- The version of the language, as text. -/
  languageVersion : String
  ignoredTypes : List String
  /-- Patterns for ignored properties, by alias of the content type. -/
  ignoredProperties : Keyed (List String)
  /-- Class names, by alias. -/
  typeNames : Keyed String
  /-- Property names, by alias of the content type and alias of the property. -/
  propertyNames : Keyed (Keyed String)
deriving DecidableEq, Repr

namespace Settings

/-- The settings of a host that configures nothing. -/
def standard : Settings where
  modelsNamespace := "Umbraco.Web.PublishedModels"
  usingNamespaces := []
  contentBaseClass := "Umbraco.Core.Models.PublishedContent.PublishedContentModel"
  elementBaseClass := "Umbraco.Core.Models.PublishedContent.PublishedElementModel"
  contentBaseInterface := "Umbraco.Core.Models.PublishedContent.IPublishedContent"
  elementBaseInterface := "Umbraco.Core.Models.PublishedContent.IPublishedElement"
  contentReferenceType := "Umbraco.Core.Models.PublishedContent.IPublishedContent"
  elementReferenceType := "Umbraco.Core.Models.PublishedContent.IPublishedElement"
  nameSource := .pascalAlias
  propertyStyle := .property
  getterPattern := "Get\x7b0\x7d"
  languageVersion := CSharp.LanguageVersion.standard.display
  ignoredTypes := []
  ignoredProperties := .empty
  typeNames := .empty
  propertyNames := .empty

instance : Inhabited Settings := ⟨standard⟩

/-- The placeholder of a getter pattern. -/
def getterPlaceholder : List Char := "\x7b0\x7d".toList

/-- The settings that name a type, under the names by which they are configured. -/
def typeSettings (s : Settings) : List (String × String) :=
  [("content_base_class", s.contentBaseClass), ("element_base_class", s.elementBaseClass),
    ("content_base_interface", s.contentBaseInterface),
    ("element_base_interface", s.elementBaseInterface),
    ("content_reference_type", s.contentReferenceType),
    ("element_reference_type", s.elementReferenceType)]

/-- The version of the language. -/
def version (s : Settings) : Outcome CSharp.LanguageVersion :=
  CSharp.LanguageVersion.parse s.languageVersion

/-- Check the settings. -/
def validate (s : Settings) : Outcome Unit := do
  let _ ← s.version
  if Text.isBlankText s.modelsNamespace then
    throw (.configuration .emptyNamespace)
  if !Text.occursIn getterPlaceholder s.getterPattern.toList then
    throw (.configuration (.getterPattern s.getterPattern))
  if let some (setting, _) := s.typeSettings.find? fun x => Text.isBlankText x.2 then
    throw (.configuration (.emptySetting setting))

/-- The name of the getter of a property. -/
def getterName (s : Settings) (propertyName : String) : String :=
  String.ofList
    (Text.replaceAll getterPlaceholder propertyName.toList s.getterPattern.toList)

/-- The interface that the generated interfaces of a kind extend. -/
def baseInterface (s : Settings) : ContentKind → String
  | .element => s.elementBaseInterface
  | _ => s.contentBaseInterface

/-- The parameter type of the constructors of a kind. -/
def referenceType (s : Settings) : ContentKind → String
  | .element => s.elementReferenceType
  | _ => s.contentReferenceType

/-- What the settings declare. -/
def declarations (s : Settings) : List Declaration :=
  s.ignoredTypes.map .ignoreType ++
    s.ignoredProperties.entries.flatMap (fun e => e.2.map (.ignoreProperty (.typeAlias e.1))) ++
    s.typeNames.entries.map (fun e => .renameType e.1 e.2) ++
    s.propertyNames.entries.flatMap fun e =>
      e.2.entries.map fun x => .renameProperty (.typeAlias e.1) x.1 x.2

end Settings
end ContentModels

import ContentModels.Schema
import ContentModels.Text.Lowercase

/-!
# Code models

What is generated for a schema: a class for every content type that takes part, with
its name, its base class and interfaces, and a decision for every property.  Models
refer to each other by their positions.  They are built up in layers: the hierarchy,
then names, then properties, then what a class inherits.
-/

namespace ContentModels

/-- What becomes of a property on a class. -/
inductive PropertyState where
  /-- An accessor is generated. -/
  | generate
  /-- The property is left out. -/
  | ignored
  /-- Code implements the property. -/
  | implemented
deriving DecidableEq, Repr, Inhabited

namespace PropertyState

/-- The name of a state. -/
def name : PropertyState → String
  | .generate => "Generate"
  | .ignored => "Ignored"
  | .implemented => "Implemented"

end PropertyState

/-- A property of a model. -/
structure ModelProperty where
  type : PropertyType
  /-- The name of the property in code. -/
  name : String
  /-- The type of its values, without placeholders. -/
  valueType : String
  state : PropertyState
deriving DecidableEq, Repr, Inhabited

/-- A property that a class gets from a mixin. -/
structure MixedProperty where
  /-- The position of the mixin. -/
  mixin : Nat
  /-- The position of the property in the mixin. -/
  property : Nat
  state : PropertyState
deriving DecidableEq, Repr, Inhabited

/-- A content type that takes part, in its place in the hierarchy. -/
structure Participant where
  type : ContentType
  /-- The position of the parent. -/
  parent : Option Nat
  /-- The positions of the compositions that are no ancestors. -/
  mixins : List Nat
  /-- Whether a type is composed of this one or of one that descends from it. -/
  isMixin : Bool
deriving DecidableEq, Repr, Inhabited

/-- A participant with the name of its class. -/
structure NamedType extends Participant where
  name : String
deriving DecidableEq, Repr, Inhabited

namespace NamedType

/-- The name of the interface of a mixin. -/
def interfaceName (t : NamedType) : String :=
  "I" ++ t.name

/-- The name of the class of extension methods. -/
def extensionsName (t : NamedType) : String :=
  t.name ++ "Extensions"

end NamedType

/-- A named type with its own properties. -/
structure PropertiedType extends NamedType where
  properties : List ModelProperty
deriving DecidableEq, Repr, Inhabited

/-- A model: all that the code generated for a content type depends on. -/
structure Model extends PropertiedType where
  /-- The properties of mixins that no ancestor has. -/
  mixedProperties : List MixedProperty
  /-- The base class to generate. -/
  baseClass : Option String
  /-- The base class that code declares. -/
  declaredBase : Option String
  /-- The interfaces to generate on the class. -/
  interfaces : List String
  /-- What the interface of a mixin extends. -/
  interfaceBases : List String
  /-- Whether code declares the constructor. -/
  omitsConstructor : Bool
deriving DecidableEq, Repr, Inhabited

/-- What is generated in one pass. -/
structure CodeModel where
  modelsNamespace : String
  /-- Namespaces used besides the standard ones, in order and without repetitions. -/
  usingNamespaces : List String
  /-- The models, in the order of the schema. -/
  models : List Model
deriving DecidableEq, Repr, Inhabited

namespace CodeModel

/-- The model of an alias, the case of ASCII letters aside. -/
def modelOf? (m : CodeModel) (aliasName : String) : Option Model :=
  m.models.find? fun x => x.type.aliasName.toList.map Char.toLower == aliasName.toList.map Char.toLower

end CodeModel
end ContentModels

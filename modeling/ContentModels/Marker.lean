import ContentModels.CSharp.Compilation

/-!
# Markers

The attributes by which code customises generation, and their arguments.  A name
that denotes a type must denote the marker's own type; a name that denotes nothing
is taken for a marker when it is unqualified or in the marker's namespace.
-/

namespace ContentModels

open CSharp

/-- An attribute that customises generation. -/
inductive Marker where
  | implementProperty
  | ignoreProperty
  | renameProperty
  | ignoreContentType
  | renameContentType
  | implementContentType
  | publishedModel
  | modelsNamespace
  | modelsUsing
  | modelsBaseClass
deriving DecidableEq, Repr

namespace Marker

/-- All markers. -/
def all : List Marker :=
  [.implementProperty, .ignoreProperty, .renameProperty, .ignoreContentType,
    .renameContentType, .implementContentType, .publishedModel, .modelsNamespace,
    .modelsUsing, .modelsBaseClass]

/-- The name of a marker without the ending `Attribute`. -/
def shortName : Marker → String
  | .implementProperty => "ImplementPropertyType"
  | .ignoreProperty => "IgnorePropertyType"
  | .renameProperty => "RenamePropertyType"
  | .ignoreContentType => "IgnoreContentType"
  | .renameContentType => "RenameContentType"
  | .implementContentType => "ImplementContentType"
  | .publishedModel => "PublishedModel"
  | .modelsNamespace => "ModelsNamespace"
  | .modelsUsing => "ModelsUsing"
  | .modelsBaseClass => "ModelsBaseClass"

/-- The namespace of a marker. -/
def enclosing : Marker → String
  | .publishedModel => "Umbraco.Core.Models.PublishedContent"
  | _ => "Umbraco.ModelsBuilder"

/-- The full name of a marker without the ending `Attribute`. -/
def fullName (m : Marker) : String :=
  m.enclosing ++ "." ++ m.shortName

/-- Whether a symbol is the type of a marker. -/
def isDenotedBy (m : Marker) (s : Symbol) : Bool :=
  s.fullName == m.fullName ++ "Attribute" || s.fullName == m.fullName

/-- Whether a name that denotes nothing can stand for a marker. -/
def isWrittenAs (m : Marker) (name : TypeName) : Bool :=
  name.path.length ≤ 1 || ".".intercalate name.path.dropLast == m.enclosing

/-- The marker that an attribute is. -/
def identify? (a : AttributeUse) (c : Compilation) (scope : Scope) : Option Marker :=
  (all.find? fun m => a.isNamed m.shortName).filter fun m =>
    match c.resolveAttribute a.name scope with
    | some s => m.isDenotedBy s
    | none => m.isWrittenAs a.name

/-- How an argument is shown in messages. -/
def describe : AttributeValue → String
  | .str s => "\"" ++ s ++ "\""
  | .typeOf t => "typeof(" ++ t.text ++ ")"
  | .expr text => text

/-- A fault of an attribute. -/
def fail {α : Type} (file : String) (a : AttributeUse) (fault : Fault) : Outcome α :=
  .error (.compilation file ⟨a.line, fault⟩)

/-- The texts of arguments, of which the first has a position. -/
def textsFrom (file : String) (a : AttributeUse) (position : Nat) :
    List AttributeValue → Outcome (List String)
  | [] => .ok []
  | .str s :: values => (textsFrom file a (position + 1) values).map (s :: ·)
  | value :: _ => fail file a (.argumentType position (describe value) "string")

/-- The arguments of a marker that takes texts, in one of some numbers. -/
def textArguments
    (m : Marker) (a : AttributeUse) (file : String) (counts : List Nat) :
    Outcome (List String) :=
  let values := a.positional
  if counts.contains values.length then textsFrom file a 1 values
  else fail file a (.argumentCount m.shortName values.length)

/-- The argument of a marker that takes a type. -/
def typeArgument (m : Marker) (a : AttributeUse) (file : String) : Outcome TypeName :=
  match a.positional with
  | [.typeOf t] => .ok t
  | [value] => fail file a (.argumentType 1 (describe value) "System.Type")
  | values => fail file a (.argumentCount m.shortName values.length)

end Marker
end ContentModels

import ContentModels.CodeModel.Strategies
import ContentModels.CodeModel.Hierarchy

/-!
# Names of models

The name of a class is the one that options give to its alias, or else is derived.
The names of all generated types, interfaces of mixins and classes of extension
methods included, differ by more than letter case.
-/

namespace ContentModels
namespace TypeNames

/-- The name of the class for a content type. -/
def nameOf (strategies : Strategies) (options : ContentTypeOptions) (t : ContentType) : String :=
  (options.className? t.aliasName).getD (strategies.typeName t.aliasName t.name)

/-- Name a participant, if the name is usable. -/
def assign (strategies : Strategies) (options : ContentTypeOptions) (p : Participant) :
    Outcome NamedType := do
  let name := nameOf strategies options p.type
  Naming.validate name ("content type '" ++ p.type.aliasName ++ "'")
  return { p with name }

/-- The names of the types generated for a content type. -/
def generated (style : PropertyStyle) (t : NamedType) : List String :=
  [t.name] ++ (if t.isMixin then [t.interfaceName] else []) ++
    (if style.hasExtensionMethods then [t.extensionsName] else [])

/-- The generated names, each with the alias that it is generated for. -/
def all (style : PropertyStyle) (ts : List NamedType) : List (String × String) :=
  ts.flatMap fun t => (generated style t).map fun name => (t.type.aliasName, name)

/-- Check that names differ from those before them, which are kept in lower case. -/
def checkDistinct (before : Keyed (String × String)) : List (String × String) → Outcome Unit
  | [] => .ok ()
  | (aliasName, name) :: rest =>
    match before.get? (Text.lowercase name) with
    | some (otherAlias, otherName) =>
      .error (.configuration (.typeNameCollision aliasName name otherName otherAlias))
    | none => checkDistinct (before.insert (Text.lowercase name) (aliasName, name)) rest

/-- Name all participants. -/
def assignAll
    (settings : Settings) (strategies : Strategies) (options : ContentTypeOptions)
    (ps : List Participant) :
    Outcome (List NamedType) := do
  let named ← ps.mapM (assign strategies options)
  checkDistinct .empty (all settings.propertyStyle named)
  return named

/-- The class names, by alias. -/
def byAlias (ts : List NamedType) : Keyed String :=
  .ofList (ts.map fun t => (t.type.aliasName, t.name))

/--
What placeholders for aliases stand for: the class of a type that takes part, and an
interface that all types of the kind have for a type that is left out.
-/
def placeholders (settings : Settings) (dropped : List ContentType) (ts : List NamedType) :
    Keyed String :=
  .ofList (dropped.map (fun t => (Text.lowercase t.aliasName, settings.baseInterface t.kind)) ++
    ts.map fun t => (Text.lowercase t.type.aliasName, t.name))

end TypeNames
end ContentModels

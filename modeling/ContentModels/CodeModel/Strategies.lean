import ContentModels.Settings

/-!
# Strategies

The choices of a pass that a host may replace: how names are derived, which
properties take part, and what a class is derived from.
-/

namespace ContentModels

/-- What the base class of a model is chosen by. -/
structure BaseClassQuery where
  type : ContentType
  /-- The name of the class generated for the parent. -/
  parentName : Option String
  /-- The base class that code declares. -/
  declaredBase : Option String
  /-- The base class that code declares for all models. -/
  modelsBaseClass : Option String
  settings : Settings

namespace BaseClassQuery

/--
The standard choice: none beside a declared base class, else the class of the parent,
else the base class for all models of the kind.
-/
def standard (q : BaseClassQuery) : Option String :=
  match q.declaredBase, q.parentName with
  | some _, _ => none
  | none, some parent => some parent
  | none, none =>
    match q.type.kind with
    | .element => some q.settings.elementBaseClass
    | _ => some (q.modelsBaseClass.getD q.settings.contentBaseClass)

end BaseClassQuery

/-- The replaceable choices of a pass. -/
structure Strategies where
  /-- The name of a class, by the alias and the display name of its type. -/
  typeName : String → String → String
  /-- The name of a property, by its alias and its display name. -/
  propertyName : String → String → String
  /-- Whether a property of a content type takes part. -/
  includes : ContentType → PropertyType → Bool
  /-- The base class of a model. -/
  baseClass : BaseClassQuery → Option String

namespace Strategies

/-- The choices that settings ask for. -/
def standard (s : Settings) : Strategies where
  typeName := Naming.derive s.nameSource
  propertyName := Naming.derive s.nameSource
  includes _ _ := true
  baseClass := BaseClassQuery.standard

end Strategies
end ContentModels

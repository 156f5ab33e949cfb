import ContentModels.CodeModel.TypeNames
import ContentModels.ValueType

/-!
# Properties of models

A property is left out if a strategy or an option says so, and left to code if an
option says so.  A class decides on its own properties and, separately, on those that
it gets from mixins; it never takes up what the mixin itself leaves out.
-/

namespace ContentModels
namespace Properties

/-- The decision of a class on a property. -/
def state (options : List PropertyOptions) (aliasName : String) (excluded : Bool) : PropertyState :=
  if excluded || options.any (·.isIgnored aliasName) then .ignored
  else if options.any (·.isImplemented aliasName) then .implemented
  else .generate

/-- What the properties of a pass are planned with. -/
structure Plan where
  settings : Settings
  strategies : Strategies
  /-- The options, with aliases mapped to class names. -/
  options : ContentTypeOptions
  /-- What placeholders stand for. -/
  placeholders : Keyed String

/-- Plan a property of a type. -/
def property (plan : Plan) (options : List PropertyOptions) (t : ContentType) (p : PropertyType) :
    Outcome ModelProperty := do
  let name :=
    (options.findSome? (·.name? p.aliasName)).getD (plan.strategies.propertyName p.aliasName p.name)
  let state := state options p.aliasName (!plan.strategies.includes t p)
  if state != .ignored then
    Naming.validate name
      ("property '" ++ p.aliasName ++ "' of content type '" ++ t.aliasName ++ "'")
  return {
    type := p
    name
    valueType :=
      ValueType.resolve plan.placeholders plan.settings.contentBaseInterface p.valueType
    state }

/-- Plan the own properties of a type. -/
def own (plan : Plan) (t : NamedType) : Outcome PropertiedType := do
  let options := plan.options.ofClass t.name
  return { t with properties := ← t.type.properties.mapM (property plan options t.type) }

/-- The properties that the type at a position gets from the mixins that it introduces. -/
def mixed (plan : Plan) (ts : List PropertiedType) (i : Nat) (t : PropertiedType) :
    List MixedProperty :=
  let options := plan.options.ofClass t.name
  (Hierarchy.introduced (ts.map (·.toParticipant)) i).flatMap fun m =>
    ((ts[m]?.map (·.properties)).getD []).zipIdx.map fun x =>
      { mixin := m
        property := x.2
        state := state options x.1.type.aliasName (x.1.state == .ignored) }

end Properties
end ContentModels

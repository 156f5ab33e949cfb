import ContentModels.CodeModel.Properties
import ContentModels.Text.Split

/-!
# What models inherit

A class implements the interfaces of its mixins, and its own if it is a mixin, unless
code declares them.  The interface of a mixin extends those of its parent and its
mixins, or else the interface that all types of the kind have.
-/

namespace ContentModels
namespace Inheritance

/-- The simple name in the text of a type name. -/
def simpleName (name : String) : String :=
  String.ofList (Text.afterLast '.' (Text.beforeFirst '<' name.toList))

/-- The interfaces of the mixins of a type. -/
def mixinInterfaces (ts : List PropertiedType) (t : PropertiedType) : List String :=
  t.mixins.filterMap fun m => ts[m]?.map (·.interfaceName)

/-- The interfaces to generate on a class when code declares some. -/
def interfaces (declared : List String) (ts : List PropertiedType) (t : PropertiedType) :
    List String :=
  let simple := declared.map simpleName
  let all := mixinInterfaces ts t ++ (if t.isMixin then [t.interfaceName] else [])
  (all.filter fun name => !simple.contains name).foldl addOnce []

/-- What the interface of a type extends. -/
def interfaceBases (settings : Settings) (ts : List PropertiedType) (t : PropertiedType) :
    List String :=
  let parent := t.parent.bind fun p => ts[p]?.map (·.interfaceName)
  match (mixinInterfaces ts t).foldl addOnce parent.toList with
  | [] => [settings.baseInterface t.type.kind]
  | bases => bases

/-- Complete the type at a position. -/
def complete
    (plan : Properties.Plan) (modelsBaseClass : Option String) (ts : List PropertiedType)
    (i : Nat) (t : PropertiedType) :
    Model :=
  let declaredBase := plan.options.baseClass? t.name
  { t with
    mixedProperties := Properties.mixed plan ts i t
    baseClass := plan.strategies.baseClass {
      type := t.type
      parentName := t.parent.bind fun p => ts[p]?.map (·.name)
      declaredBase
      modelsBaseClass
      settings := plan.settings }
    declaredBase
    interfaces := interfaces (plan.options.interfacesOf t.name) ts t
    interfaceBases := if t.isMixin then interfaceBases plan.settings ts t else []
    omitsConstructor := plan.options.hasConstructor t.name }

end Inheritance
end ContentModels

import ContentModels.Failure
import ContentModels.Keyed
import ContentModels.Walk

/-!
# Options of content types

What code and settings say about content types and their properties.  Options of
properties are filed under aliases or under class names; they are asked for by alias
until the aliases are mapped to class names, and by class name from then on.  After
the mapping a class also has the options of its base class and its interfaces.
-/

namespace ContentModels

/-- Whether a text matches a pattern in lower case: a text, or the start of one followed by a star. -/
def matchesPattern (pattern value : String) : Bool :=
  let folded := Text.lowercase value
  match pattern.toList.reverse with
  | '*' :: start => start.reverse.isPrefixOf folded.toList
  | _ => folded == pattern

/-- The options of the properties of one content type, filed under property aliases in lower case. -/
structure PropertyOptions where
  ignored : TextSet
  names : Keyed String
  implemented : TextSet
deriving DecidableEq, Repr

namespace PropertyOptions

/-- No options. -/
def empty : PropertyOptions := ⟨.empty, .empty, .empty⟩

instance : Inhabited PropertyOptions := ⟨empty⟩

/-- Add options; names given before stay. -/
def merge (o added : PropertyOptions) : PropertyOptions :=
  { ignored := TextSet.union o.ignored added.ignored
    names := added.names.entries.foldl (fun t e => t.insertNew e.1 e.2) o.names
    implemented := TextSet.union o.implemented added.implemented }

/-- Whether a pattern says that a property is ignored. -/
def isIgnored (o : PropertyOptions) (property : String) : Bool :=
  (TextSet.toList o.ignored).any (matchesPattern · property)

/-- The name given to a property. -/
def name? (o : PropertyOptions) (property : String) : Option String :=
  o.names.get? (Text.lowercase property)

/-- Whether code implements a property. -/
def isImplemented (o : PropertyOptions) (property : String) : Bool :=
  o.implemented.contains (Text.lowercase property)

end PropertyOptions

/-- The options of all content types.  All keys are in lower case. -/
structure ContentTypeOptions where
  /-- Patterns for the aliases of ignored types. -/
  ignored : TextSet
  /-- Class names, by alias. -/
  classNames : Keyed String
  byAlias : Keyed PropertyOptions
  byClass : Keyed PropertyOptions
  /-- Base classes declared in code, by class name. -/
  baseClasses : Keyed String
  /-- Interfaces declared in code, by class name, in the order of declaration. -/
  interfaces : Keyed (List String)
  /-- Classes whose constructor is declared in code. -/
  constructors : TextSet
  /-- Whether aliases have been mapped to class names. -/
  mapped : Bool
deriving DecidableEq, Repr

namespace ContentTypeOptions

/-- No options. -/
def empty : ContentTypeOptions :=
  ⟨.empty, .empty, .empty, .empty, .empty, .empty, .empty, false⟩

instance : Inhabited ContentTypeOptions := ⟨empty⟩

/-- Change the property options filed under a key. -/
def updateProperties
    (o : ContentTypeOptions) (key : TypeKey) (f : PropertyOptions → PropertyOptions) :
    ContentTypeOptions :=
  match key with
  | .typeAlias _ => { o with byAlias := o.byAlias.update key.folded fun p => f (p.getD .empty) }
  | .className _ => { o with byClass := o.byClass.update key.folded fun p => f (p.getD .empty) }

/-! ### Mapping aliases to class names -/

/-- File property options under a class name, next to those that are there. -/
def mergeInto (byClass : Keyed PropertyOptions) (className : String) (added : PropertyOptions) :
    Keyed PropertyOptions :=
  byClass.update (Text.lowercase className) fun p => (p.getD .empty).merge added

/--
File the property options of aliases under the class names of those aliases.  Options
already filed under a class name win, and options of other aliases are dropped.
-/
def mapAliases (o : ContentTypeOptions) (map : Keyed String) : Outcome ContentTypeOptions :=
  if o.mapped then .error (.invalidState .alreadyMapped)
  else
    let folded : Keyed String := .ofList (map.entries.map fun e => (Text.lowercase e.1, e.2))
    let byClass := o.byAlias.entries.foldl (fun t e =>
      match folded.get? e.1 with
      | some className => mergeInto t className e.2
      | none => t) o.byClass
    .ok { o with byAlias := .empty, byClass, mapped := true }

/-- Map the aliases of options that are kept in place. -/
def mapInPlace (map : Keyed String) : ExceptT Failure (StateM ContentTypeOptions) Unit := do
  let o ← get
  set (← ExceptT.mk (pure (o.mapAliases map)))

/-! ### Queries -/

/-- Check that property options are asked for by the kind of key that is valid now. -/
def checkKey (o : ContentTypeOptions) (key : TypeKey) : Outcome Unit :=
  match key, o.mapped with
  | .className _, false => .error (.invalidState (.queriedBeforeMapping key))
  | .typeAlias _, true => .error (.invalidState (.queriedAfterMapping key))
  | _, _ => .ok ()

/-- The declared base class and interfaces of a class, as keys. -/
def supertypes (o : ContentTypeOptions) (className : String) : List String :=
  ((o.baseClasses.get? className).toList ++ (o.interfaces.get? className).getD []).map
    Text.lowercase

/-- The number of declared base classes and interfaces. -/
def supertypeCount (o : ContentTypeOptions) : Nat :=
  o.baseClasses.entries.length + (o.interfaces.entries.flatMap (·.2)).length

/-- The keys of a class and of all its declared supertypes, base classes before interfaces. -/
def lineage (o : ContentTypeOptions) (className : String) : List String :=
  Walk.nodes o.supertypes o.supertypeCount className

/-- The property options of a class and its declared supertypes, those that win first. -/
def ofClass (o : ContentTypeOptions) (className : String) : List PropertyOptions :=
  (o.lineage (Text.lowercase className)).filterMap o.byClass.get?

/-- The property options that count for a key, those that win first. -/
def relevant (o : ContentTypeOptions) (key : TypeKey) : Outcome (List PropertyOptions) := do
  o.checkKey key
  if o.mapped then return o.ofClass key.value
  else return (o.byAlias.get? key.folded).toList

/-- Whether a pattern says that a content type is ignored. -/
def isIgnored (o : ContentTypeOptions) (aliasName : String) : Bool :=
  (TextSet.toList o.ignored).any (matchesPattern · aliasName)

/-- The class name given to a content type. -/
def className? (o : ContentTypeOptions) (aliasName : String) : Option String :=
  o.classNames.get? (Text.lowercase aliasName)

/-- Whether a property is ignored. -/
def isPropertyIgnored
    (o : ContentTypeOptions) (key : TypeKey) (property : String) : Outcome Bool := do
  return (← o.relevant key).any (·.isIgnored property)

/-- The name given to a property. -/
def propertyName?
    (o : ContentTypeOptions) (key : TypeKey) (property : String) : Outcome (Option String) := do
  return (← o.relevant key).findSome? (·.name? property)

/-- Whether code implements a property. -/
def isPropertyImplemented
    (o : ContentTypeOptions) (key : TypeKey) (property : String) : Outcome Bool := do
  return (← o.relevant key).any (·.isImplemented property)

/-- The base class that code declares for a class. -/
def baseClass? (o : ContentTypeOptions) (className : String) : Option String :=
  o.baseClasses.get? (Text.lowercase className)

/-- Whether code declares a base class for a class, so that none is generated. -/
def hasBaseClass (o : ContentTypeOptions) (className : String) : Bool :=
  (o.baseClass? className).isSome

/-- The interfaces that code declares for a class. -/
def interfacesOf (o : ContentTypeOptions) (className : String) : List String :=
  (o.interfaces.get? (Text.lowercase className)).getD []

/-- Whether code declares the constructor of a class, so that none is generated. -/
def hasConstructor (o : ContentTypeOptions) (className : String) : Bool :=
  o.constructors.contains (Text.lowercase className)

end ContentTypeOptions
end ContentModels

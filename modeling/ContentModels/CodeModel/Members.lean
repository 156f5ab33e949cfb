import ContentModels.CodeModel.TypeNames

/-!
# Names of members

The properties of a class, own and mixed in, have different names.  Each member
generated for a property fits next to the members before it: it has neither the name of
the type around it nor a name that another member has, methods with different
parameters aside.
-/

namespace ContentModels

/-- The parameters of a generated method. -/
inductive Parameters where
  | none
  /-- One parameter of a type. -/
  | one (type : String)
  /-- The first parameter of an extension method. -/
  | extending (type : String)
  /-- An expression that selects a property. -/
  | selector
deriving DecidableEq, Repr

/-- A member of a generated type, as far as its name is concerned. -/
structure MemberName where
  name : String
  /-- The parameters of a method; other members own their names. -/
  parameters : Option Parameters
  /-- The alias of the property that the member is generated for. -/
  property : Option String
deriving DecidableEq, Repr

namespace MemberName

/-- Whether two members cannot stand in one type. -/
def clashes (a b : MemberName) : Bool :=
  a.name == b.name &&
    (a.parameters.isNone || b.parameters.isNone || a.parameters == b.parameters)

/-- The members that every class has. -/
def helpers : List MemberName :=
  [⟨"ModelTypeAlias", none, none⟩, ⟨"ModelItemType", none, none⟩,
    ⟨"GetModelContentType", some .none, none⟩, ⟨"GetModelPropertyType", some .selector, none⟩]

/-- The getter method of a property. -/
def getter (settings : Settings) (parameters : Parameters) (p : ModelProperty) : MemberName :=
  ⟨settings.getterName p.name, some parameters, some p.type.aliasName⟩

/-- The accessor of a property: a property, or a method without parameters. -/
def accessor (settings : Settings) (p : ModelProperty) : MemberName :=
  if settings.propertyStyle.hasProperties then ⟨p.name, none, some p.type.aliasName⟩
  else getter settings .none p

/-- Check members against those before them and the name of the type around them. -/
def check (typeAlias enclosing : String) (before : List MemberName) :
    List MemberName → Outcome Unit
  | [] => .ok ()
  | m :: rest => do
    if let some property := m.property then
      if m.name == enclosing then
        throw (.configuration (.reservedName property typeAlias m.name))
      if let some other := before.find? m.clashes then
        match other.property with
        | some first =>
          throw (.configuration (.memberNameCollision typeAlias first property m.name))
        | none => throw (.configuration (.reservedName property typeAlias m.name))
    check typeAlias enclosing (before ++ [m]) rest

end MemberName

namespace Model

/-- The own properties that are not left out. -/
def ownProperties (m : Model) : List ModelProperty :=
  m.properties.filter (·.state != .ignored)

/-- The mixed-in properties that are not left out, as their mixins have them. -/
def mixedIn (models : List Model) (m : Model) : List ModelProperty :=
  (m.mixedProperties.filter (·.state != .ignored)).filterMap fun x =>
    models[x.mixin]?.bind fun mixin => mixin.properties[x.property]?

/-- What the extension methods of a model extend. -/
def extended (m : Model) : String :=
  if m.isMixin then m.interfaceName else m.name

/-- Check that properties have names that those before them do not have. -/
def checkPropertyNames (typeAlias : String) (before : List ModelProperty) :
    List ModelProperty → Outcome Unit
  | [] => .ok ()
  | p :: rest =>
    match before.find? (·.name == p.name) with
    | some other =>
      .error (.configuration
        (.propertyNameCollision typeAlias other.type.aliasName p.type.aliasName p.name))
    | none => checkPropertyNames typeAlias (before ++ [p]) rest

/-- The members of the class of a model that can clash. -/
def classMembers (settings : Settings) (models : List Model) (m : Model) : List MemberName :=
  if settings.propertyStyle.hasMembers then
    MemberName.helpers ++
      (m.mixedIn models ++ m.ownProperties).map (MemberName.accessor settings) ++
      if m.isMixin then
        m.ownProperties.map (MemberName.getter settings (.one m.interfaceName))
      else []
  else MemberName.helpers

/-- The members of the interface of a mixin. -/
def interfaceMembers (settings : Settings) (m : Model) : List MemberName :=
  m.ownProperties.map (MemberName.accessor settings)

/-- The extension methods of a model. -/
def extensionMembers (settings : Settings) (m : Model) : List MemberName :=
  (m.ownProperties.filter (·.state == .generate)).map
    (MemberName.getter settings (.extending m.extended))

/-- Check the names of all members generated for a model. -/
def checkMembers (settings : Settings) (models : List Model) (m : Model) : Outcome Unit := do
  let typeAlias := m.type.aliasName
  checkPropertyNames typeAlias [] (m.ownProperties ++ m.mixedIn models)
  MemberName.check typeAlias m.name [] (m.classMembers settings models)
  if m.isMixin && settings.propertyStyle.hasMembers then
    MemberName.check typeAlias m.interfaceName [] (m.interfaceMembers settings)
  if settings.propertyStyle.hasExtensionMethods then
    MemberName.check typeAlias m.extensionsName [] (m.extensionMembers settings)

end Model
end ContentModels

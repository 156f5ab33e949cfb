import ContentModels.Generated.Layout

/-!
# Generated types

For each model there is a class, for each mixin an interface in front of it, and, if
the style of properties asks for it, a class of extension methods behind it.
-/

namespace ContentModels
namespace Generated

/-- A member that a class has for a property. -/
inductive ClassMember where
  /-- The accessor of a property of a mixin. -/
  | mixedAccessor (mixin : Model) (p : ModelProperty)
  /-- The accessor of an own property. -/
  | ownAccessor (p : ModelProperty)
  /-- The static getter through which other classes read a property of a mixin. -/
  | staticGetter (p : ModelProperty)
deriving DecidableEq, Repr

/-- The properties that a model gets from mixins and has accessors for. -/
def mixedAccessors (models : List Model) (m : Model) : List ClassMember :=
  (m.mixedProperties.filter (·.state == .generate)).filterMap fun x =>
    models[x.mixin]?.bind fun mixin =>
      mixin.properties[x.property]?.map (.mixedAccessor mixin)

/-- The members that the class of a model has for its properties. -/
def propertyMembers (style : PropertyStyle) (models : List Model) (m : Model) :
    List ClassMember :=
  if style.hasMembers then
    mixedAccessors models m ++ m.ownProperties.flatMap fun p =>
      (if p.state == .generate then [.ownAccessor p] else []) ++
        if m.isMixin then [.staticGetter p] else []
  else []

/-- The properties for which a model has extension methods. -/
def extensionProperties (m : Model) : List ModelProperty :=
  m.ownProperties.filter (·.state == .generate)

/-- Blocks of lines with blank lines between them. -/
def blocks (bs : List (List String)) : List String :=
  List.intercalate [""] bs

namespace Layout

/-- A property in the interface of a mixin. -/
def interfaceProperty (l : Layout) (p : ModelProperty) : List String :=
  let type := l.shorten p.valueType
  summary "\t\t" p.type.name p.type.description ++
    [if l.settings.propertyStyle.hasProperties then
      "\t\t" ++ type ++ " " ++ p.name ++ " \x7b get; \x7d"
    else "\t\t" ++ type ++ " " ++ l.getter p ++ "();"]

/-- The interface of a mixin. -/
def interface (l : Layout) (m : Model) : List String :=
  ["\t// Mixin Content Type with alias \"" ++ m.type.aliasName ++ "\""] ++
    summary "\t" m.type.name m.type.description ++
    [l.head ("public partial interface " ++ m.interfaceName) m.interfaceBases, "\t\x7b"] ++
    (if l.settings.propertyStyle.hasMembers then
      blocks (m.ownProperties.map l.interfaceProperty)
    else []) ++
    ["\t\x7d"]

/-- The members that every class has. -/
def helpers (l : Layout) (m : Model) : List String :=
  ["\t\t// helpers", "#pragma warning disable 0109 // new is redundant",
    "\t\tpublic new const string ModelTypeAlias = " ++ literal m.type.aliasName ++ ";",
    "\t\tpublic new const PublishedItemType ModelItemType = PublishedItemType." ++
      m.type.kind.name ++ ";"] ++
    l.method "public new static IPublishedContentType GetModelContentType()"
      "PublishedModelUtility.GetModelContentType(ModelItemType, ModelTypeAlias)" ++
    l.method
      ("public static IPublishedPropertyType GetModelPropertyType<TValue>(Expression<Func<" ++
        m.name ++ ", TValue>> selector)")
      "PublishedModelUtility.GetModelPropertyType(GetModelContentType(), selector)" ++
    ["#pragma warning restore 0109"]

/-- The constructor of a class. -/
def constructor (l : Layout) (m : Model) : List String :=
  ["", "\t\t// ctor",
    "\t\tpublic " ++ m.name ++ "(" ++ l.shorten (l.settings.referenceType m.type.kind) ++
      " content)",
    "\t\t\t: base(content)", "\t\t\x7b \x7d"]

/-- An accessor that gets the value of an expression. -/
def accessor (l : Layout) (p : ModelProperty) (expression : String) : List String :=
  let type := l.shorten p.valueType
  summary "\t\t" p.type.name p.type.description ++
    ["\t\t[ImplementPropertyType(" ++ literal p.type.aliasName ++ ")]"] ++
    if !l.settings.propertyStyle.hasProperties then
      l.method ("public " ++ type ++ " " ++ l.getter p ++ "()") expression
    else if l.expressionBodies then
      ["\t\tpublic " ++ type ++ " " ++ p.name ++ " => " ++ expression ++ ";"]
    else
      ["\t\tpublic " ++ type ++ " " ++ p.name, "\t\t\x7b",
        "\t\t\tget \x7b return " ++ expression ++ "; \x7d", "\t\t\x7d"]

/-- A member that the class of a model has for a property. -/
def classMember (l : Layout) (m : Model) : ClassMember → List String
  | .mixedAccessor mixin p => l.accessor p (mixin.name ++ "." ++ l.getter p ++ "(this)")
  | .ownAccessor p =>
    l.accessor p (if m.isMixin then l.getter p ++ "(this)" else l.valueOf "this" p)
  | .staticGetter p =>
    ["\t\t/// <summary>Static getter for " ++ markup p.type.name ++ "</summary>"] ++
      l.method
        ("public static " ++ l.shorten p.valueType ++ " " ++ l.getter p ++ "(" ++
          m.interfaceName ++ " that)")
        (l.valueOf "that" p)

/-- The class of a model. -/
def classType (l : Layout) (models : List Model) (m : Model) : List String :=
  let members := propertyMembers l.settings.propertyStyle models m
  summary "\t" m.type.name m.type.description ++
    ["\t[PublishedModel(" ++ literal m.type.aliasName ++ ")]",
      l.head ("public partial class " ++ m.name) (m.baseClass.toList ++ m.interfaces),
      "\t\x7b"] ++
    l.helpers m ++
    (if m.omitsConstructor then [] else l.constructor m) ++
    (if members.isEmpty then [] else ["", "\t\t// properties"]) ++
    members.flatMap (fun x => "" :: l.classMember m x) ++
    ["\t\x7d"]

/-- An extension method. -/
def extensionMethod (l : Layout) (m : Model) (p : ModelProperty) : List String :=
  summary "\t\t" p.type.name p.type.description ++
    l.method
      ("public static " ++ l.shorten p.valueType ++ " " ++ l.getter p ++ "(this " ++
        m.extended ++ " that)")
      (l.valueOf "that" p)

/-- The class of the extension methods of a model. -/
def extensions (l : Layout) (m : Model) : List String :=
  ["\tpublic static partial class " ++ m.extensionsName, "\t\x7b"] ++
    blocks ((extensionProperties m).map (l.extensionMethod m)) ++
    ["\t\x7d"]

/-- All types generated for a model. -/
def types (l : Layout) (models : List Model) (m : Model) : List String :=
  blocks
    ((if m.isMixin then [l.interface m] else []) ++ [l.classType models m] ++
      if l.settings.propertyStyle.hasExtensionMethods then [l.extensions m] else [])

end Layout
end Generated
end ContentModels

import ContentModels.Generated.Types

/-!
# Generated types as data

What is generated for a model, before it is laid out as lines: types, each with its members
and the notes between them, and for each member its modifiers, its type, its name, its
parameters and the expression that it gets.  Laid out, these are the lines that are generated
(`types_eq`), so what a generated type declares can be read off the data.
-/

namespace ContentModels
namespace Generated

/-- A parameter of a generated method. -/
structure Parameter where
  /-- Whether the method extends the type of the parameter. -/
  isExtended : Bool
  type : String
  name : String
deriving DecidableEq, Repr

/-- What a generated member is.  A member without a value is one that an interface asks for. -/
inductive MemberForm where
  | constant (value : String)
  | property (value : Option String)
  /-- A method, with its type variables as text. -/
  | method (generics : String) (parameters : List Parameter) (value : Option String)
  /-- A constructor that hands its parameter to the base class. -/
  | constructor (parameter : Parameter)
deriving DecidableEq, Repr

/-- A member of a generated type. -/
structure WrittenMember where
  /-- The lines of its documentation. -/
  notes : List String
  /-- The alias of the property that the member implements. -/
  implemented : Option String
  modifiers : List String
  /-- The type of its values; a constructor has none. -/
  type : Option String
  name : String
  form : MemberForm
deriving DecidableEq, Repr

/-- A line in the body of a generated type that is a note, or a member. -/
inductive Part where
  | note (line : String)
  | member (w : WrittenMember)
deriving DecidableEq, Repr

/-- A generated type. -/
structure WrittenType where
  /-- The lines of its documentation. -/
  notes : List String
  /-- The alias of the content type that the type is a model of. -/
  modelled : Option String
  /-- The modifiers and the keyword in front of its name. -/
  declaration : String
  name : String
  bases : List String
  parts : List Part
deriving DecidableEq, Repr

namespace Parameter

/-- A parameter as it is written. -/
def text (p : Parameter) : String :=
  (if p.isExtended then "this " else "") ++ p.type ++ " " ++ p.name

end Parameter

namespace WrittenMember

/-- What stands in front of the name of a member. -/
def front (w : WrittenMember) : String :=
  String.join ((w.modifiers ++ w.type.toList).map (· ++ " "))

/-- The parameters of a method; other members own their names. -/
def parameters (w : WrittenMember) : Option (List Parameter) :=
  match w.form with
  | .method _ parameters _ => some parameters
  | _ => none

/-- Whether a member is a constructor. -/
def isConstructor (w : WrittenMember) : Bool :=
  match w.form with
  | .constructor _ => true
  | _ => false

/-- A member laid out as lines, without its documentation and its attribute. -/
def declaration (l : Layout) (w : WrittenMember) : List String :=
  match w.form with
  | .constant value => ["\t\t" ++ w.front ++ w.name ++ " = " ++ value ++ ";"]
  | .property none => ["\t\t" ++ w.front ++ w.name ++ " \x7b get; \x7d"]
  | .property (some value) =>
    if l.expressionBodies then ["\t\t" ++ w.front ++ w.name ++ " => " ++ value ++ ";"]
    else
      ["\t\t" ++ w.front ++ w.name, "\t\t\x7b", "\t\t\tget \x7b return " ++ value ++ "; \x7d",
        "\t\t\x7d"]
  | .method generics parameters value =>
    let head := w.front ++ w.name ++ generics ++ "(" ++
      ", ".intercalate (parameters.map (·.text)) ++ ")"
    match value with
    | none => ["\t\t" ++ head ++ ";"]
    | some value => l.method head value
  | .constructor parameter =>
    ["\t\t" ++ w.front ++ w.name ++ "(" ++ parameter.text ++ ")",
      "\t\t\t: base(" ++ parameter.name ++ ")", "\t\t\x7b \x7d"]

/-- A member laid out as lines. -/
def lines (l : Layout) (w : WrittenMember) : List String :=
  w.notes ++
    w.implemented.toList.map (fun aliasName =>
      "\t\t[ImplementPropertyType(" ++ literal aliasName ++ ")]") ++
    w.declaration l

end WrittenMember

namespace Part

/-- A part of a body laid out as lines. -/
def lines (l : Layout) : Part → List String
  | .note line => [line]
  | .member w => w.lines l

@[simp] theorem lines_note
    (l : Layout) (line : String) :
    (note line).lines l = [line] :=
  rfl

@[simp] theorem lines_member
    (l : Layout) (w : WrittenMember) :
    (member w).lines l = w.lines l :=
  rfl

/-- The members of a part. -/
def members : Part → List WrittenMember
  | .note _ => []
  | .member w => [w]

@[simp] theorem members_note
    (line : String) :
    (note line).members = [] :=
  rfl

@[simp] theorem members_member
    (w : WrittenMember) :
    (member w).members = [w] :=
  rfl

end Part

namespace WrittenType

/-- The members of a generated type, in their order. -/
def members (w : WrittenType) : List WrittenMember :=
  w.parts.flatMap (·.members)

/-- A generated type laid out as lines. -/
def lines (l : Layout) (w : WrittenType) : List String :=
  w.notes ++
    w.modelled.toList.map (fun aliasName => "\t[PublishedModel(" ++ literal aliasName ++ ")]") ++
    [l.head (w.declaration ++ w.name) w.bases, "\t\x7b"] ++
    w.parts.flatMap (·.lines l) ++ ["\t\x7d"]

end WrittenType

namespace Layout

variable {l : Layout} {models : List Model} {m : Model} {p : ModelProperty}

/-- The member of an interface for a property of a mixin. -/
def writtenInterfaceProperty (l : Layout) (p : ModelProperty) : WrittenMember where
  notes := summary "\t\t" p.type.name p.type.description
  implemented := none
  modifiers := []
  type := some (l.shorten p.valueType)
  name := if l.settings.propertyStyle.hasProperties then p.name else l.getter p
  form := if l.settings.propertyStyle.hasProperties then .property none else .method "" [] none

/-- The interface of a mixin. -/
def writtenInterface (l : Layout) (m : Model) : WrittenType where
  notes := ["\t// Mixin Content Type with alias \"" ++ m.type.aliasName ++ "\""] ++
    summary "\t" m.type.name m.type.description
  modelled := none
  declaration := "public partial interface "
  name := m.interfaceName
  bases := m.interfaceBases
  parts :=
    if l.settings.propertyStyle.hasMembers then
      List.intercalate [.note ""]
        (m.ownProperties.map fun p => [.member (l.writtenInterfaceProperty p)])
    else []

/-- The expression that selects a property of a class. -/
def selector (m : Model) : Parameter :=
  ⟨false, "Expression<Func<" ++ m.name ++ ", TValue>>", "selector"⟩

/-- The members that every class has. -/
def writtenHelpers (m : Model) : List WrittenMember :=
  let constant type name value : WrittenMember :=
    ⟨[], none, ["public", "new", "const"], some type, name, .constant value⟩
  let method modifiers type name generics parameters value : WrittenMember :=
    ⟨[], none, modifiers, some type, name, .method generics parameters (some value)⟩
  [constant "string" "ModelTypeAlias" (literal m.type.aliasName),
    constant "PublishedItemType" "ModelItemType" ("PublishedItemType." ++ m.type.kind.name),
    method ["public", "new", "static"] "IPublishedContentType" "GetModelContentType" "" []
      "PublishedModelUtility.GetModelContentType(ModelItemType, ModelTypeAlias)",
    method ["public", "static"] "IPublishedPropertyType" "GetModelPropertyType" "<TValue>"
      [selector m] "PublishedModelUtility.GetModelPropertyType(GetModelContentType(), selector)"]

/-- The constructor of a class. -/
def writtenConstructor (l : Layout) (m : Model) : WrittenMember where
  notes := []
  implemented := none
  modifiers := ["public"]
  type := none
  name := m.name
  form := .constructor ⟨false, l.shorten (l.settings.referenceType m.type.kind), "content"⟩

/-- An accessor that gets the value of an expression. -/
def writtenAccessor (l : Layout) (p : ModelProperty) (value : String) : WrittenMember where
  notes := summary "\t\t" p.type.name p.type.description
  implemented := some p.type.aliasName
  modifiers := ["public"]
  type := some (l.shorten p.valueType)
  name := if l.settings.propertyStyle.hasProperties then p.name else l.getter p
  form :=
    if l.settings.propertyStyle.hasProperties then .property (some value)
    else .method "" [] (some value)

/-- A static method that reads the value of a property from its parameter. -/
def writtenGetter
    (l : Layout) (notes : List String) (isExtended : Bool) (type : String) (p : ModelProperty) :
    WrittenMember where
  notes
  implemented := none
  modifiers := ["public", "static"]
  type := some (l.shorten p.valueType)
  name := l.getter p
  form := .method "" [⟨isExtended, type, "that"⟩] (some (l.valueOf "that" p))

/-- A member that the class of a model has for a property. -/
def writtenClassMember (l : Layout) (m : Model) : ClassMember → WrittenMember
  | .mixedAccessor mixin p => l.writtenAccessor p (mixin.name ++ "." ++ l.getter p ++ "(this)")
  | .ownAccessor p =>
    l.writtenAccessor p (if m.isMixin then l.getter p ++ "(this)" else l.valueOf "this" p)
  | .staticGetter p =>
    l.writtenGetter
      ["\t\t/// <summary>Static getter for " ++ markup p.type.name ++ "</summary>"]
      false m.interfaceName p

/-- The class of a model. -/
def writtenClass (l : Layout) (models : List Model) (m : Model) : WrittenType where
  notes := summary "\t" m.type.name m.type.description
  modelled := some m.type.aliasName
  declaration := "public partial class "
  name := m.name
  bases := m.baseClass.toList ++ m.interfaces
  parts :=
    let members := propertyMembers l.settings.propertyStyle models m
    [.note "\t\t// helpers", .note "#pragma warning disable 0109 // new is redundant"] ++
      (writtenHelpers m).map .member ++
      [.note "#pragma warning restore 0109"] ++
      (if m.omitsConstructor then []
      else [.note "", .note "\t\t// ctor", .member (l.writtenConstructor m)]) ++
      (if members.isEmpty then [] else [.note "", .note "\t\t// properties"]) ++
      members.flatMap fun x => [.note "", .member (l.writtenClassMember m x)]

/-- The class of the extension methods of a model. -/
def writtenExtensions (l : Layout) (m : Model) : WrittenType where
  notes := []
  modelled := none
  declaration := "public static partial class "
  name := m.extensionsName
  bases := []
  parts := List.intercalate [.note ""]
    ((extensionProperties m).map fun p =>
      [.member (l.writtenGetter (summary "\t\t" p.type.name p.type.description) true m.extended p)])

/-- All types generated for a model. -/
def writtenTypes (l : Layout) (models : List Model) (m : Model) : List WrittenType :=
  (if m.isMixin then [l.writtenInterface m] else []) ++ [l.writtenClass models m] ++
    if l.settings.propertyStyle.hasExtensionMethods then [l.writtenExtensions m] else []

/-! ### What written types are laid out as -/

theorem lines_writtenInterfaceProperty :
    (l.writtenInterfaceProperty p).lines l = l.interfaceProperty p := by
  unfold writtenInterfaceProperty interfaceProperty WrittenMember.lines WrittenMember.declaration
    WrittenMember.front
  cases l.settings.propertyStyle.hasProperties <;>
    simp [← String.toList_inj, String.join, getter]

theorem lines_writtenAccessor
    (value : String) :
    (l.writtenAccessor p value).lines l = l.accessor p value := by
  unfold writtenAccessor accessor WrittenMember.lines WrittenMember.declaration
    WrittenMember.front method
  cases l.settings.propertyStyle.hasProperties <;> cases l.expressionBodies <;>
    simp [← String.toList_inj, String.join, getter]

theorem lines_writtenGetter
    (notes : List String) (isExtended : Bool) (type : String) :
    (l.writtenGetter notes isExtended type p).lines l =
      notes ++ l.method
        ("public static " ++ l.shorten p.valueType ++ " " ++ l.getter p ++
          (if isExtended then "(this " else "(") ++ type ++ " that)")
        (l.valueOf "that" p) := by
  unfold writtenGetter WrittenMember.lines WrittenMember.declaration WrittenMember.front method
  cases isExtended <;> cases l.expressionBodies <;>
    simp [← String.toList_inj, String.join, Parameter.text]

theorem lines_writtenClassMember
    (x : ClassMember) :
    (l.writtenClassMember m x).lines l = l.classMember m x := by
  cases x with
  | mixedAccessor mixin p => exact lines_writtenAccessor _
  | ownAccessor p => exact lines_writtenAccessor _
  | staticGetter p =>
    refine (lines_writtenGetter _ _ _).trans ?_
    simp [classMember]

theorem constructor_eq :
    l.constructor m = ["", "\t\t// ctor"] ++ (l.writtenConstructor m).lines l := by
  simp [writtenConstructor, constructor, WrittenMember.lines, WrittenMember.declaration,
    WrittenMember.front, String.join, Parameter.text, String.append_assoc]

theorem flatMap_intercalate
    {α β : Type} (f : α → List β) (sep : List α) :
    (bodies : List (List α)) →
      (List.intercalate sep bodies).flatMap f =
        List.intercalate (sep.flatMap f) (bodies.map (·.flatMap f))
  | [] => rfl
  | [body] => by simp [List.intercalate]
  | body :: next :: bodies => by
    have htail := flatMap_intercalate f sep (next :: bodies)
    simp only [List.intercalate, List.map_cons] at htail
    simp [List.intercalate, htail]

/-- Bodies that are divided by blank lines are blocks of lines. -/
theorem lines_blocks
    (bodies : List (List Part)) :
    (List.intercalate [.note ""] bodies).flatMap (·.lines l) =
      blocks (bodies.map (·.flatMap (·.lines l))) :=
  flatMap_intercalate _ _ bodies

theorem intercalate_nil_left
    {α : Type} :
    (bodies : List (List α)) → List.intercalate [] bodies = bodies.flatten
  | [] => rfl
  | [body] => by simp [List.intercalate]
  | body :: next :: bodies => by
    have htail := intercalate_nil_left (next :: bodies)
    simp only [List.intercalate] at htail
    simp [List.intercalate, htail]

/-- Notes between bodies add no members. -/
theorem members_blocks
    (bodies : List (List Part)) :
    (List.intercalate [.note ""] bodies).flatMap (·.members) =
      bodies.flatMap (·.flatMap (·.members)) := by
  rw [flatMap_intercalate, List.flatMap_singleton, Part.members_note, intercalate_nil_left,
    List.flatten_eq_flatMap, List.flatMap_map]
  rfl

theorem lines_writtenInterface :
    (l.writtenInterface m).lines l = l.interface m := by
  unfold writtenInterface interface WrittenType.lines
  cases l.settings.propertyStyle.hasMembers with
  | false => simp
  | true => simp [lines_blocks, Function.comp_def, lines_writtenInterfaceProperty]

theorem helpers_eq :
    l.helpers m =
      ["\t\t// helpers", "#pragma warning disable 0109 // new is redundant"] ++
        (writtenHelpers m).flatMap (·.lines l) ++
        ["#pragma warning restore 0109"] := by
  unfold writtenHelpers helpers WrittenMember.lines WrittenMember.declaration WrittenMember.front
    method
  cases l.expressionBodies <;> simp [← String.toList_inj, String.join, Parameter.text, selector]

theorem lines_writtenClass
    (models : List Model) :
    (l.writtenClass models m).lines l = l.classType models m := by
  unfold writtenClass classType WrittenType.lines
  rw [helpers_eq]
  cases propertyMembers l.settings.propertyStyle models m <;> cases m.omitsConstructor <;>
    simp [constructor_eq, lines_writtenClassMember, List.flatMap_assoc, List.flatMap_map]

theorem lines_writtenExtensionMethod :
    (l.writtenGetter (summary "\t\t" p.type.name p.type.description) true m.extended p).lines l =
      l.extensionMethod m p := by
  rw [lines_writtenGetter, extensionMethod]
  simp [String.append_assoc]

theorem lines_writtenExtensions :
    (l.writtenExtensions m).lines l = l.extensions m := by
  simp [writtenExtensions, extensions, WrittenType.lines, lines_blocks, Function.comp_def,
    lines_writtenExtensionMethod, head, ← String.toList_inj]

/-- Written types are laid out as the types that are generated. -/
theorem types_eq
    (l : Layout) (models : List Model) (m : Model) :
    l.types models m = blocks ((l.writtenTypes models m).map (·.lines l)) := by
  unfold types writtenTypes
  cases m.isMixin <;> cases l.settings.propertyStyle.hasExtensionMethods <;>
    simp [lines_writtenInterface, lines_writtenClass, lines_writtenExtensions]

end Layout
end Generated
end ContentModels

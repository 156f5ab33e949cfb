import ContentModels.Proofs.SourceTree.Syntax

/-!
# What a tree declares

The types of a tree in preorder: each with the names around it, the directives in scope and
its members, and right behind it the types that stand in it.  A reader also notes on which
lines they stand; `TypeDeclaration.withoutLines` leaves that out.
-/

namespace ContentModels
namespace CSharp

/-- An attribute without its line. -/
def AttributeUse.withoutLine (a : AttributeUse) : AttributeUse :=
  { a with line := 0 }

/-- A member without its line and those of its attributes. -/
def Member.withoutLines (m : Member) : Member :=
  { m with attributes := m.attributes.map AttributeUse.withoutLine, line := 0 }

/-- A type without its line and those of its attributes and members. -/
def TypeDeclaration.withoutLines (t : TypeDeclaration) : TypeDeclaration :=
  { t with
    attributes := t.attributes.map AttributeUse.withoutLine
    members := t.members.map Member.withoutLines
    line := 0 }

namespace SourceTree

open Parse

/-! ## Types -/

/-- The text of tokens of some kinds. -/
def textOf (ks : List TokenKind) : String :=
  render (ks.map fun k => ⟨k, 0⟩)

/-- The words of a name. -/
def PathTree.segments : PathTree → List String
  | .last word _ => [word.text]
  | .qualified word _ rest => word.text :: rest.segments

/-- The number of type arguments of the last word. -/
def PathTree.arity : PathTree → Nat
  | .last _ arguments => arguments.kinds.length
  | .qualified _ _ rest => rest.arity

/-- A type as a name; a tuple goes by the name of its library type. -/
def TypeTree.name (t : TypeTree) : TypeName :=
  match t with
  | .named fromGlobal path _ => ⟨textOf t.kinds, path.segments, path.arity, fromGlobal⟩
  | .tuple _ _ => ⟨textOf t.kinds, ["ValueTuple"], 0, false⟩

/-! ## Attributes and members -/

def StringArgument.argument (a : StringArgument) : AttributeArgument :=
  ⟨a.label.map (·.name.text), .str a.value⟩

def AttributeTree.use (a : AttributeTree) : AttributeUse :=
  ⟨a.type.name, (a.arguments.getD []).map StringArgument.argument, 0⟩

/-- The attributes of some sections. -/
def sectionUses (sections : List AttributeSection) : List AttributeUse :=
  sections.flatMap fun s => (s.first :: s.more).map AttributeTree.use

def ParameterTree.parameter (p : ParameterTree) : Parameter :=
  ⟨p.type.name, p.name.text, words p.modifiers⟩

/-- The names that a member of the type with a name declares, and what they are. -/
def MemberTree.declares (owner : Identifier) : MemberTree → List (String × MemberKind)
  | .field type first more => (first :: more).map fun d => (d.name.text, .field type.name)
  | .property type name _ => [(name.text, .property type.name)]
  | .method type name _ parameters _ =>
    [(name.text, .method type.name (parameters.map ParameterTree.parameter))]
  | .constructor parameters _ _ =>
    [(owner.text, .constructor (parameters.map ParameterTree.parameter))]
  | .destructor _ => [(owner.text, .destructor)]
  | .event _ first more => (first :: more).map fun d => (d.name.text, .event)
  | .customEvent _ name _ => [(name.text, .event)]
  | .indexer _ _ _ => [("this", .indexer)]
  | .operator _ _ _ _ | .conversion _ _ _ _ => [("operator", .operator)]

/-- The members that a declaration declares with what stands in front of it. -/
def Head.members (h : Head) (kinds : List (String × MemberKind)) : List Member :=
  kinds.map fun (name, kind) => ⟨name, kind, sectionUses h.attributes, words h.modifiers, 0⟩

/-- The members in the body of the type with a name. -/
def BodyItems.members (owner : Identifier) : BodyItems → List Member
  | .nil => []
  | .member head m rest => head.members (m.declares owner) ++ rest.members owner
  | .type _ _ rest => rest.members owner

/-! ## Types in their surroundings -/

/-- The surroundings of what stands in a type. -/
def inside (around : Surroundings) (owner : Identifier) : Surroundings :=
  { around with containing := around.containing ++ [owner.text] }

/-- A type with what stands in front of it and around it. -/
def Head.declared
    (head : Head) (around : Surroundings) (kind : DeclarationKind) (name : Identifier)
    (arity : Nat) (bases : List TypeTree) (members : List Member) : TypeDeclaration where
  kind
  name := name.text
  arity
  enclosing := around.enclosing
  containing := around.containing
  modifiers := words head.modifiers
  attributes := sectionUses head.attributes
  baseList := bases.map TypeTree.name
  members
  usings := around.usings
  line := 0

/-- The kind of type that is defined. -/
def TypeDefinition.declares : TypeDefinition → DeclarationKind
  | .composite keyword _ _ _ _ => keyword.declares
  | .enumeration _ _ _ => .enumType
  | .delegate _ _ _ _ => .delegateType

mutual

/-- A type and the types in it, outer before inner. -/
def TypeDefinition.flatten (around : Surroundings) (head : Head) :
    TypeDefinition → List TypeDeclaration
  | .composite keyword name typeParameters bases body =>
    head.declared around keyword.declares name typeParameters.length bases (body.members name) ::
      body.types (inside around name)
  | .enumeration name bases _ => [head.declared around .enumType name 0 bases []]
  | .delegate _ name typeParameters _ =>
    [head.declared around .delegateType name typeParameters.length [] []]

/-- The types in the body of a type. -/
def BodyItems.types (around : Surroundings) : BodyItems → List TypeDeclaration
  | .nil => []
  | .member _ _ rest => rest.types around
  | .type head definition rest => definition.flatten around head ++ rest.types around

end

def UsingForm.kind : UsingForm → UsingKind
  | .namespaceMembers => .namespaceMembers
  | .staticMembers => .staticMembers
  | .named name => .named name.text

def UsingTree.directive (u : UsingTree) : UsingDirective :=
  ⟨u.form.kind, u.target.name⟩

/-- The types of a part of a file, in the namespace with a name and with directives in scope. -/
def Items.types (outer : List String) (scope : List UsingDirective) :
    Items → List TypeDeclaration
  | .nil => []
  | .type head definition rest =>
    definition.flatten ⟨".".intercalate outer, [], scope⟩ head ++ rest.types outer scope
  | .block path usings inner rest =>
    inner.types (outer ++ path.segments) (scope ++ usings.map UsingTree.directive) ++
      rest.types outer scope

/-- The types of a file. -/
def File.types (f : File) : List TypeDeclaration :=
  f.items.types [] (f.usings.map UsingTree.directive)

/-! ## Forms that are not read -/

/-- A type that starts with a parenthesis. -/
def TypeTree.IsTuple : TypeTree → Prop
  | .named _ _ _ => False
  | .tuple _ _ => True

/--
A type whose parenthesis does not stand behind a modifier that could be a name: such a
modifier is then taken for the name of what is declared.
-/
def TypeTree.Follows (t : TypeTree) (modifiers : List String) : Prop :=
  t.IsTuple → ∀ w ∈ modifiers.getLast?, w ∉ contextualModifiers

/--
A member that is read as what it is.  What is not: a tuple behind a modifier that could be a
name, a conversion to a type with parentheses in it, and an event with a second name.
-/
def MemberTree.IsPlain (modifiers : List String) : MemberTree → Prop
  | .field type _ _ | .property type _ _ | .method type _ _ _ _ | .indexer type _ _
  | .operator type _ _ _ => type.Follows modifiers
  | .constructor _ _ _ | .destructor _ | .customEvent _ _ _ => True
  | .event _ _ more => more = []
  | .conversion _ target _ _ => .punct .openParen ∉ target.kinds

mutual

/-- All members of a type and of the types in it are read as what they are. -/
def TypeDefinition.IsPlain : TypeDefinition → Prop
  | .composite _ _ _ _ body => body.IsPlain
  | .enumeration _ _ _ | .delegate _ _ _ _ => True

def BodyItems.IsPlain : BodyItems → Prop
  | .nil => True
  | .member head m rest => m.IsPlain (words head.modifiers) ∧ rest.IsPlain
  | .type _ definition rest => definition.IsPlain ∧ rest.IsPlain

end

def Items.IsPlain : Items → Prop
  | .nil => True
  | .type _ definition rest => definition.IsPlain ∧ rest.IsPlain
  | .block _ _ inner rest => inner.IsPlain ∧ rest.IsPlain

/-- All members of the types of a file are read as what they are. -/
def File.IsPlain (f : File) : Prop :=
  f.items.IsPlain

end SourceTree
end CSharp
end ContentModels

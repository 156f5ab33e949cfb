/-!
# Declarations

The declaration level of a C# source file: type names as written, using
directives, attributes, members and types.  Types nested in types or namespaces
stand in one list, each with the names around it.
-/

namespace ContentModels
namespace CSharp

/-- A type name as written. -/
structure TypeName where
  /-- The tokens of the name without blanks. -/
  text : String
  /-- The segments between dots, without type arguments. -/
  path : List String
  /-- The number of type arguments of the last segment. -/
  arity : Nat
  /-- Whether the name starts at the global namespace. -/
  fromGlobal : Bool
deriving DecidableEq, Repr, Inhabited

namespace TypeName

/-- The last segment. -/
def simpleName (t : TypeName) : String :=
  t.path.getLast?.getD ""

/-- The mark in front of a name that starts at the global namespace. -/
def globalMark : List Char := "global::".toList

/-- Drop every leading `global::`. -/
def dropGlobalMarks (cs : List Char) : List Char :=
  if globalMark.isPrefixOf cs then dropGlobalMarks (cs.drop globalMark.length) else cs
termination_by cs.length
decreasing_by
  rename_i h
  have := (List.isPrefixOf_iff_prefix.mp h).length_le
  have hm : globalMark.length = 8 := by decide
  simp
  omega

/-- What follows the last dot or colon. -/
def afterLastQualifier (cs : List Char) : List Char :=
  (cs.reverse.takeWhile fun c => c != '.' && c != ':').reverse

/-- The last segment with its type arguments: what follows the last qualifier before the first `<`. -/
def displayName (t : TypeName) : String :=
  let cs := dropGlobalMarks t.text.toList
  String.ofList (afterLastQualifier (cs.takeWhile (· != '<')) ++ cs.dropWhile (· != '<'))

end TypeName

/-- What a using directive brings into scope. -/
inductive UsingKind where
  | namespaceMembers
  | staticMembers
  | named (aliasName : String)
deriving DecidableEq, Repr

/-- A using directive. -/
structure UsingDirective where
  kind : UsingKind
  target : TypeName
deriving DecidableEq, Repr

/-- The value of an attribute argument. -/
inductive AttributeValue where
  /-- A string literal without holes, or the name of something. -/
  | str (value : String)
  | typeOf (type : TypeName)
  /-- Any other expression, as text. -/
  | expr (text : String)
deriving DecidableEq, Repr

/-- An argument of an attribute, by position or by name. -/
structure AttributeArgument where
  name : Option String
  value : AttributeValue
deriving DecidableEq, Repr

/-- An attribute with the line of its name. -/
structure AttributeUse where
  name : TypeName
  arguments : List AttributeArgument
  line : Nat
deriving DecidableEq, Repr

namespace AttributeUse

/-- Drop the ending `Attribute` of a name. -/
def dropSuffix? (name : String) : Option String :=
  let suffix := "Attribute".toList
  if suffix.isSuffixOf name.toList then
    some (String.ofList (name.toList.take (name.toList.length - suffix.length)))
  else none

/-- Whether the attribute goes by a name, with or without the ending `Attribute`. -/
def isNamed (a : AttributeUse) (shortName : String) : Bool :=
  a.name.simpleName == shortName || dropSuffix? a.name.simpleName == some shortName

/-- The arguments by position. -/
def positional (a : AttributeUse) : List AttributeValue :=
  (a.arguments.filter fun x => x.name.isNone).map (·.value)

end AttributeUse

/-- A parameter. -/
structure Parameter where
  type : TypeName
  name : String
  modifiers : List String
deriving DecidableEq, Repr

/-- What a member is. -/
inductive MemberKind where
  | constructor (parameters : List Parameter)
  | method (type : TypeName) (parameters : List Parameter)
  | property (type : TypeName)
  | field (type : TypeName)
  | event
  | indexer
  | operator
  | destructor
deriving DecidableEq, Repr

/-- A member of a type; an indexer is called `this` and an operator `operator`. -/
structure Member where
  name : String
  kind : MemberKind
  attributes : List AttributeUse
  modifiers : List String
  line : Nat
deriving DecidableEq, Repr

/-- The kinds of type declarations. -/
inductive DeclarationKind where
  | classType
  | interfaceType
  | structType
  | enumType
  | recordType
  | delegateType
deriving DecidableEq, Repr

/-- A type declaration with the names and using directives around it. -/
structure TypeDeclaration where
  kind : DeclarationKind
  name : String
  arity : Nat
  /-- The enclosing namespace, dotted; empty for the global one. -/
  enclosing : String
  /-- The enclosing types, outermost first. -/
  containing : List String
  modifiers : List String
  attributes : List AttributeUse
  baseList : List TypeName
  members : List Member
  /-- The directives in scope: those of the file first, then those of the enclosing namespaces. -/
  usings : List UsingDirective
  line : Nat
deriving DecidableEq, Repr

namespace TypeDeclaration

/-- The names of the enclosing types and of the type. -/
def path (t : TypeDeclaration) : List String :=
  t.containing ++ [t.name]

/-- The name with everything around it, dotted. -/
def fullName (t : TypeDeclaration) : String :=
  ".".intercalate ((if t.enclosing = "" then [] else [t.enclosing]) ++ t.path)

/-- Whether further parts of the type may be declared elsewhere. -/
def isPartial (t : TypeDeclaration) : Bool :=
  t.modifiers.contains "partial"

end TypeDeclaration

/-- A source file at declaration level. -/
structure CompilationUnit where
  file : String
  /-- Whether the comments at its head say that a tool wrote it. -/
  isGenerated : Bool
  usings : List UsingDirective
  assemblyAttributes : List AttributeUse
  types : List TypeDeclaration
deriving DecidableEq, Repr

end CSharp
end ContentModels

import ContentModels.Proofs.Parsing.Files

/-!
# Trees of declarations

A source file as its author thinks of it: directives, blocks of namespaces, types in each
other and their members, each with the attributes and modifiers in front of it.  Bodies,
initialisers and default values are any tokens with paired brackets.  Every tree has its
tokens (`File.kinds`); where they stand in the text, and what blanks and comments are
between them, is left open.
-/

namespace ContentModels
namespace CSharp
namespace SourceTree

open Parse

/-! ## Words -/

/-- The keywords of the language, and the four that only compilers know. -/
def reservedWords : List String :=
  ["abstract", "as", "base", "bool", "break", "byte", "case", "catch", "char", "checked",
    "class", "const", "continue", "decimal", "default", "delegate", "do", "double", "else",
    "enum", "event", "explicit", "extern", "false", "finally", "fixed", "float", "for",
    "foreach", "goto", "if", "implicit", "in", "int", "interface", "internal", "is", "lock",
    "long", "namespace", "new", "null", "object", "operator", "out", "override", "params",
    "private", "protected", "public", "readonly", "ref", "return", "sbyte", "sealed", "short",
    "sizeof", "stackalloc", "static", "string", "struct", "switch", "this", "throw", "true",
    "try", "typeof", "uint", "ulong", "unchecked", "unsafe", "ushort", "using", "virtual",
    "void", "volatile", "while", "__arglist", "__makeref", "__reftype", "__refvalue"]

/-- The words that are keywords in some places only. -/
def contextualWords : List String :=
  ["add", "alias", "allows", "and", "ascending", "args", "async", "await", "by", "descending",
    "dynamic", "equals", "extension", "field", "file", "from", "get", "global", "group", "init",
    "into", "join", "let", "managed", "nameof", "nint", "not", "notnull", "nuint", "on", "or",
    "orderby", "partial", "record", "remove", "required", "scoped", "select", "set",
    "unmanaged", "value", "var", "when", "where", "with", "yield"]

/-- A word that is a keyword nowhere. -/
def IsIdentifier (w : String) : Prop :=
  w ≠ "" ∧ w ∉ reservedWords ∧ w ∉ contextualWords

instance (w : String) : Decidable (IsIdentifier w) :=
  inferInstanceAs (Decidable (_ ∧ _ ∧ _))

/-- A name that is a keyword nowhere. -/
structure Identifier where
  text : String
  isIdentifier : IsIdentifier text

/-- The token of a name. -/
def Identifier.kind (i : Identifier) : TokenKind :=
  .ident i.text false

/-- The keywords that name types. -/
def builtInTypes : List String :=
  ["bool", "byte", "char", "decimal", "double", "dynamic", "float", "int", "long", "nint",
    "nuint", "object", "sbyte", "short", "string", "uint", "ulong", "ushort", "void"]

/-- A word in the name of a type. -/
structure TypeWord where
  text : String
  isWord : text ∈ builtInTypes ∨ IsIdentifier text

/-! ## Groups and expressions -/

/-- Tokens that may stand between brackets. -/
structure Group where
  kinds : List TokenKind
  balanced : Balanced kinds

/-- An expression: tokens with paired brackets that no semicolon and no comma divides. -/
structure Expression where
  kinds : List TokenKind
  ne_nil : kinds ≠ []
  balanced : Balanced kinds
  undivided : noneOutside [.semicolon, .comma] [] kinds = true

/-- Tokens between parentheses. -/
def parenthesised (ks : List TokenKind) : List TokenKind :=
  .punct .openParen :: (ks ++ [.punct .closeParen])

/-- Tokens between braces. -/
def braced (ks : List TokenKind) : List TokenKind :=
  .punct .openBrace :: (ks ++ [.punct .closeBrace])

/-- Tokens between square brackets. -/
def bracketed (ks : List TokenKind) : List TokenKind :=
  .punct .openBracket :: (ks ++ [.punct .closeBracket])

/-- Things with commas between them, in angle brackets if there is one. -/
def angled (kss : List (List TokenKind)) : List TokenKind :=
  if kss.isEmpty then [] else .punct .less :: (listedKinds kss ++ [.punct .greater])

/-! ## Types -/

/-- What may stand behind the name of a type. -/
inductive TypeSuffix where
  | nullable
  | pointer
  | rank (commas : Nat)

def TypeSuffix.kinds : TypeSuffix → List TokenKind
  | .nullable => [.punct .question]
  | .pointer => [.punct .star]
  | .rank commas => bracketed (List.replicate commas (.punct .comma))

mutual

/-- A type as written. -/
inductive TypeTree where
  | named (fromGlobal : Bool) (path : PathTree) (suffixes : List TypeSuffix)
  | tuple (elements : Group) (suffixes : List TypeSuffix)

/-- Words with dots between them, each perhaps with type arguments. -/
inductive PathTree where
  | last (word : TypeWord) (arguments : TypeTrees)
  | qualified (word : TypeWord) (arguments : TypeTrees) (rest : PathTree)

/-- Type arguments. -/
inductive TypeTrees where
  | nil
  | cons (type : TypeTree) (rest : TypeTrees)

end

/-- The tokens that make a name start at the global namespace. -/
def globalKinds (fromGlobal : Bool) : List TokenKind :=
  if fromGlobal then [.ident "global" false, .punct .doubleColon] else []

mutual

def TypeTree.kinds : TypeTree → List TokenKind
  | .named fromGlobal path suffixes =>
    globalKinds fromGlobal ++ (path.kinds ++ suffixes.flatMap TypeSuffix.kinds)
  | .tuple elements suffixes =>
    parenthesised elements.kinds ++ suffixes.flatMap TypeSuffix.kinds

def PathTree.kinds : PathTree → List TokenKind
  | .last word arguments => .ident word.text false :: angled arguments.kinds
  | .qualified word arguments rest =>
    .ident word.text false :: (angled arguments.kinds ++ (.punct .dot :: rest.kinds))

/-- The tokens of each type argument. -/
def TypeTrees.kinds : TypeTrees → List (List TokenKind)
  | .nil => []
  | .cons type rest => type.kinds :: rest.kinds

end

/-- A type parameter with the word that says how it varies. -/
structure TypeParameter where
  /-- Whether values go in or come out. -/
  variance : Option Bool
  name : Identifier

def TypeParameter.kinds (p : TypeParameter) : List TokenKind :=
  match p.variance with
  | none => [p.name.kind]
  | some true => [.ident "in" false, p.name.kind]
  | some false => [.ident "out" false, p.name.kind]

/-! ## Attributes and modifiers -/

/-- The name of an attribute argument, behind which a colon or an equals sign stands. -/
structure Label where
  name : Identifier
  colon : Bool

def Label.kinds (l : Label) : List TokenKind :=
  [l.name.kind, .punct (if l.colon then .colon else .assign)]

/-- A string literal as an attribute argument. -/
structure StringArgument where
  label : Option Label
  value : String
  raw : Bool

def StringArgument.kinds (a : StringArgument) : List TokenKind :=
  (a.label.map Label.kinds).getD [] ++ [.str a.value false a.raw]

/-- An attribute, which may lack the parentheses. -/
structure AttributeTree where
  fromGlobal : Bool
  path : PathTree
  arguments : Option (List StringArgument)

namespace AttributeTree

/-- The name of an attribute as a type. -/
def type (a : AttributeTree) : TypeTree :=
  .named a.fromGlobal a.path []

/-- The tokens of the arguments of an attribute. -/
def argumentKinds (a : AttributeTree) : List TokenKind :=
  match a.arguments with
  | none => []
  | some arguments => parenthesised (listedKinds (arguments.map StringArgument.kinds))

def kinds (a : AttributeTree) : List TokenKind :=
  a.type.kinds ++ a.argumentKinds

end AttributeTree

/-- The attributes between two brackets. -/
structure AttributeSection where
  first : AttributeTree
  more : List AttributeTree

def AttributeSection.kinds (s : AttributeSection) : List TokenKind :=
  bracketed (listedKinds ((s.first :: s.more).map AttributeTree.kinds))

/-- The tokens of some sections of attributes. -/
def sectionKinds (sections : List AttributeSection) : List TokenKind :=
  sections.flatMap AttributeSection.kinds

/-- Some words out of a list. -/
abbrev WordsOf (allowed : List String) :=
  List { w : String // w ∈ allowed }

/-- The words of a list. -/
def words {allowed : List String} (ws : WordsOf allowed) : List String :=
  ws.map (·.1)

/-- What stands in front of a declaration. -/
structure Head where
  attributes : List AttributeSection
  modifiers : WordsOf modifierWords

def Head.kinds (h : Head) : List TokenKind :=
  sectionKinds h.attributes ++ wordKinds (words h.modifiers)

/-! ## Members -/

/-- A parameter, perhaps with a default value. -/
structure ParameterTree where
  attributes : List AttributeSection
  modifiers : WordsOf parameterModifiers
  type : TypeTree
  name : Identifier
  default : Option Expression

/-- The tokens of a value behind an equals sign. -/
def initialKinds (value : Option Expression) : List TokenKind :=
  match value with
  | none => []
  | some e => .punct .assign :: e.kinds

def ParameterTree.kinds (p : ParameterTree) : List TokenKind :=
  sectionKinds p.attributes ++ (wordKinds (words p.modifiers) ++
    (p.type.kinds ++ ([p.name.kind] ++ initialKinds p.default)))

/-- The tokens of a list of parameters. -/
def parameterListKinds (ps : List ParameterTree) : List TokenKind :=
  parenthesised (listedKinds (ps.map ParameterTree.kinds))

/-- The body of a member. -/
inductive BodyTree where
  | block (statements : Group)
  | arrow (value : Expression)
  | absent

/-- The tokens of an expression behind an arrow. -/
def arrowKinds (e : Expression) : List TokenKind :=
  .punct .arrow :: (e.kinds ++ [.punct .semicolon])

def BodyTree.kinds : BodyTree → List TokenKind
  | .block statements => braced statements.kinds
  | .arrow value => arrowKinds value
  | .absent => [.punct .semicolon]

/-- The modifiers of an accessor. -/
def accessorModifiers : List String :=
  ["private", "protected", "internal", "readonly"]

/-- The words that name an accessor. -/
def accessorWords : List String :=
  ["get", "set", "init", "add", "remove"]

/-- An accessor of a property. -/
structure AccessorTree where
  attributes : List AttributeSection
  modifiers : WordsOf accessorModifiers
  word : { w : String // w ∈ accessorWords }
  body : BodyTree

def AccessorTree.kinds (a : AccessorTree) : List TokenKind :=
  sectionKinds a.attributes ++ (wordKinds (words a.modifiers) ++
    ([.ident a.word.1 false] ++ a.body.kinds))

/-- What stands behind the name of a property. -/
inductive PropertyBody where
  | block (accessors : List AccessorTree) (initial : Option Expression)
  | arrow (value : Expression)

/-- The tokens of the initial value of a property, and the semicolon that ends it. -/
def initialStatementKinds (value : Option Expression) : List TokenKind :=
  match value with
  | none => []
  | some e => .punct .assign :: (e.kinds ++ [.punct .semicolon])

def PropertyBody.kinds : PropertyBody → List TokenKind
  | .block accessors initial =>
    braced (accessors.flatMap AccessorTree.kinds) ++ initialStatementKinds initial
  | .arrow value => arrowKinds value

/-- A name that a field or an event is declared by, with its initial value. -/
structure Declarator where
  name : Identifier
  initial : Option Expression

def Declarator.kinds (d : Declarator) : List TokenKind :=
  d.name.kind :: initialKinds d.initial

/-- The call of another constructor in front of the body of one. -/
structure ChainTree where
  /-- Whether it is a constructor of the base class. -/
  ofBase : Bool
  arguments : Group

def ChainTree.kinds (c : ChainTree) : List TokenKind :=
  [.punct .colon, .ident (if c.ofBase then "base" else "this") false] ++
    parenthesised c.arguments.kinds

/-- The tokens that name an operator. -/
structure OperatorSymbol where
  kinds : List TokenKind
  flat : .punct .openParen ∉ kinds

/-- A member of a type, without what stands in front of it. -/
inductive MemberTree where
  | field (type : TypeTree) (first : Declarator) (more : List Declarator)
  | property (type : TypeTree) (name : Identifier) (body : PropertyBody)
  | method (type : TypeTree) (name : Identifier) (typeParameters : List TypeParameter)
      (parameters : List ParameterTree) (body : BodyTree)
  | constructor (parameters : List ParameterTree) (chain : Option ChainTree) (body : BodyTree)
  | destructor (body : BodyTree)
  | event (type : TypeTree) (first : Declarator) (more : List Declarator)
  | customEvent (type : TypeTree) (name : Identifier) (accessors : Group)
  | indexer (type : TypeTree) (parameters : Group) (body : PropertyBody)
  | operator (type : TypeTree) (symbol : OperatorSymbol) (parameters : List ParameterTree)
      (body : BodyTree)
  | conversion (implicit : Bool) (target : TypeTree) (parameters : List ParameterTree)
      (body : BodyTree)

/-- The tokens of the names that a declaration declares, and its semicolon. -/
def declaratorKinds (first : Declarator) (more : List Declarator) : List TokenKind :=
  listedKinds ((first :: more).map Declarator.kinds) ++ [.punct .semicolon]

/-- The tokens of a member of the type with a name. -/
def MemberTree.kinds (owner : Identifier) : MemberTree → List TokenKind
  | .field type first more => type.kinds ++ declaratorKinds first more
  | .property type name body => type.kinds ++ ([name.kind] ++ body.kinds)
  | .method type name typeParameters parameters body =>
    type.kinds ++ ([name.kind] ++ (angled (typeParameters.map TypeParameter.kinds) ++
      (parameterListKinds parameters ++ body.kinds)))
  | .constructor parameters chain body =>
    [owner.kind] ++ (parameterListKinds parameters ++
      ((chain.map ChainTree.kinds).getD [] ++ body.kinds))
  | .destructor body =>
    [.punct .tilde] ++ ([owner.kind] ++ (parameterListKinds [] ++ body.kinds))
  | .event type first more =>
    [.ident "event" false] ++ (type.kinds ++ declaratorKinds first more)
  | .customEvent type name accessors =>
    [.ident "event" false] ++ (type.kinds ++ ([name.kind] ++ braced accessors.kinds))
  | .indexer type parameters body =>
    type.kinds ++ ([.ident "this" false] ++ (bracketed parameters.kinds ++ body.kinds))
  | .operator type symbol parameters body =>
    type.kinds ++ ((.ident "operator" false :: symbol.kinds) ++
      (parameterListKinds parameters ++ body.kinds))
  | .conversion implicit target parameters body =>
    [.ident (if implicit then "implicit" else "explicit") false] ++
      ((.ident "operator" false :: target.kinds) ++
        (parameterListKinds parameters ++ body.kinds))

/-! ## Types and namespaces -/

/-- The words that start a type with members. -/
inductive CompositeKeyword where
  | classType
  | interfaceType
  | structType
  | recordType
  | recordClass
  | recordStruct

namespace CompositeKeyword

def kinds : CompositeKeyword → List TokenKind
  | .classType => [.ident "class" false]
  | .interfaceType => [.ident "interface" false]
  | .structType => [.ident "struct" false]
  | .recordType => [.ident "record" false]
  | .recordClass => [.ident "record" false, .ident "class" false]
  | .recordStruct => [.ident "record" false, .ident "struct" false]

/-- The kind of type that the words start. -/
def declares : CompositeKeyword → DeclarationKind
  | .classType => .classType
  | .interfaceType => .interfaceType
  | .structType => .structType
  | .recordType | .recordClass | .recordStruct => .recordType

@[simp]
theorem declares_ne_delegateType
    (c : CompositeKeyword) :
    c.declares ≠ .delegateType := by
  cases c <;> simp [declares]

@[simp]
theorem declares_ne_enumType
    (c : CompositeKeyword) :
    c.declares ≠ .enumType := by
  cases c <;> simp [declares]

end CompositeKeyword

mutual

/-- A type, without what stands in front of it. -/
inductive TypeDefinition where
  | composite (keyword : CompositeKeyword) (name : Identifier)
      (typeParameters : List TypeParameter) (bases : List TypeTree) (body : BodyItems)
  | enumeration (name : Identifier) (bases : List TypeTree) (constants : Group)
  | delegate (type : TypeTree) (name : Identifier) (typeParameters : List TypeParameter)
      (parameters : List ParameterTree)

/-- What stands in the body of a type. -/
inductive BodyItems where
  | nil
  | member (head : Head) (member : MemberTree) (rest : BodyItems)
  | type (head : Head) (definition : TypeDefinition) (rest : BodyItems)

end

mutual

def TypeDefinition.kinds : TypeDefinition → List TokenKind
  | .composite keyword name typeParameters bases body =>
    keyword.kinds ++ ([name.kind] ++ (angled (typeParameters.map TypeParameter.kinds) ++
      (baseKinds (bases.map TypeTree.kinds) ++ braced (body.kinds name))))
  | .enumeration name bases constants =>
    [.ident "enum" false] ++ ([name.kind] ++
      (baseKinds (bases.map TypeTree.kinds) ++ braced constants.kinds))
  | .delegate type name typeParameters parameters =>
    [.ident "delegate" false] ++ (type.kinds ++ ([name.kind] ++
      (angled (typeParameters.map TypeParameter.kinds) ++
        (parameterListKinds parameters ++ [.punct .semicolon]))))

/-- The tokens in the body of the type with a name. -/
def BodyItems.kinds (owner : Identifier) : BodyItems → List TokenKind
  | .nil => []
  | .member head m rest => head.kinds ++ (m.kinds owner ++ rest.kinds owner)
  | .type head definition rest => head.kinds ++ (definition.kinds ++ rest.kinds owner)

end

/-- What a directive brings into scope. -/
inductive UsingForm where
  | namespaceMembers
  | staticMembers
  | named (name : Identifier)

/-- A using directive. -/
structure UsingTree where
  isGlobal : Bool
  form : UsingForm
  target : TypeTree

def UsingForm.kinds : UsingForm → List TokenKind
  | .namespaceMembers => []
  | .staticMembers => [.ident "static" false]
  | .named name => [name.kind, .punct .assign]

def UsingTree.kinds (u : UsingTree) : List TokenKind :=
  (if u.isGlobal then [.ident "global" false] else []) ++
    ([.ident "using" false] ++ (u.form.kinds ++ (u.target.kinds ++ [.punct .semicolon])))

/-- The tokens of some directives. -/
def directiveKinds (us : List UsingTree) : List TokenKind :=
  us.flatMap UsingTree.kinds

/-- The name of a namespace as it stands in front of its block. -/
structure NamespacePath where
  outer : List Identifier
  last : Identifier

namespace NamespacePath

/-- The segments of the name. -/
def segments (p : NamespacePath) : List String :=
  p.outer.map (·.text) ++ [p.last.text]

def kinds (p : NamespacePath) : List TokenKind :=
  dottedKinds (p.outer.map (·.text)) p.last.text

end NamespacePath

/-- Types and blocks of namespaces, one behind the other. -/
inductive Items where
  | nil
  | type (head : Head) (definition : TypeDefinition) (rest : Items)
  | block (path : NamespacePath) (usings : List UsingTree) (inner : Items) (rest : Items)

def Items.kinds : Items → List TokenKind
  | .nil => []
  | .type head definition rest => head.kinds ++ (definition.kinds ++ rest.kinds)
  | .block path usings inner rest =>
    [.ident "namespace" false] ++ (path.kinds ++
      (braced (directiveKinds usings ++ inner.kinds) ++ rest.kinds))

/-- A source file. -/
structure File where
  usings : List UsingTree
  items : Items

/-- The tokens of a file. -/
def File.kinds (f : File) : List TokenKind :=
  directiveKinds f.usings ++ f.items.kinds

end SourceTree
end CSharp
end ContentModels

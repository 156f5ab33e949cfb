import ContentModels.CSharp.Parse.Member
import ContentModels.CSharp.Token.Lexer
import ContentModels.Text.Search

/-!
# Reading source files

Types hold members and other types, and namespaces hold types and other
namespaces; the readers here put all types of a file in one list, outer before
inner and in the order of the text.  Faults that show in the tokens alone, the use
of literals and operators that the version lacks, come before all others.
-/

namespace ContentModels
namespace CSharp
namespace Parse

/-- What surrounds a type declaration. -/
structure Surroundings where
  /-- The enclosing namespace, dotted. -/
  enclosing : String
  containing : List String
  usings : List UsingDirective

/-- The words that start a type declaration. -/
def typeKeyword? : String → Option DeclarationKind
  | "class" => some .classType
  | "interface" => some .interfaceType
  | "struct" => some .structType
  | "enum" => some .enumType
  | "record" => some .recordType
  | "delegate" => some .delegateType
  | _ => none

/-- The type declaration that the next token starts. -/
def seesType : Parse (Option DeclarationKind) := do
  return ((← peek).bind TokenKind.keyword?).bind typeKeyword?

/-- Read the base list after a colon. -/
def baseList (kind : DeclarationKind) : Parse (List TypeName) := do
  if !(← accept .colon) then return []
  loop [] fun bases => do
    let bases := bases ++ [← typeName]
    if kind = .recordType then
      if ← sees .openParen then skipGroup
    if ← accept .comma then return .again bases
    return .done bases

/-- Read the keyword of a type declaration; a record may name its storage. -/
def declarationKeyword (kind : DeclarationKind) : Parse Unit := do
  let line ← line
  advance
  if kind = .recordType then
    require .records line
    if (← seesKeyword "class") || (← seesKeyword "struct") then advance

/-- Read a delegate declaration after its keyword. -/
def delegateDeclaration
    (attributes : List AttributeUse) (modifiers : List String) (around : Surroundings) :
    Parse TypeDeclaration := do
  let _ ← typeName
  let line ← line
  let name ← ident
  let arity ← typeParameters
  let _ ← parameters
  skipStatement
  return {
    kind := .delegateType, name, arity, attributes, modifiers, line
    enclosing := around.enclosing, containing := around.containing, usings := around.usings
    baseList := [], members := [] }

/-- Read the head of a type declaration, after its keyword and up to its body. -/
def typeHead
    (kind : DeclarationKind)
    (attributes : List AttributeUse) (modifiers : List String) (around : Surroundings) :
    Parse TypeDeclaration := do
  let line ← line
  let name ← ident
  let arity ← typeParameters
  if kind = .recordType then
    if ← sees .openParen then skipGroup
  let bases ← baseList kind
  skipConstraints [.openBrace, .semicolon] (.expected .openBrace)
  return {
    kind, name, arity, attributes, modifiers, line
    enclosing := around.enclosing, containing := around.containing, usings := around.usings
    baseList := bases, members := [] }

mutual

/-- Read a type declaration and the types in it, nested at most that deep. -/
def typeDeclarationAt :
    Nat → DeclarationKind → List AttributeUse → List String → Surroundings →
      Parse (List TypeDeclaration)
  | 0, _, _, _, _ => fail .identifierExpected
  | depth + 1, kind, attributes, modifiers, around => do
    declarationKeyword kind
    if kind = .delegateType then
      return [← delegateDeclaration attributes modifiers around]
    let head ← typeHead kind attributes modifiers around
    if kind = .enumType then
      if !(← sees .openBrace) then fail (.expected .openBrace)
      skipGroup
      let _ ← accept .semicolon
      return [head]
    if kind = .recordType then
      if ← accept .semicolon then return [head]
    let (members, inner) ←
      typeBodyAt depth head.name { around with containing := around.containing ++ [head.name] }
    let _ ← accept .semicolon
    return { head with members } :: inner

/-- Read the body of a type: its members, and the types in it. -/
def typeBodyAt : Nat → String → Surroundings → Parse (List Member × List TypeDeclaration)
  | 0, _, _ => fail .identifierExpected
  | depth + 1, name, around => do
    expect .openBrace
    loop ([], []) fun (read, inner) => do
      if (← peek).isNone then fail (.expected .closeBrace)
      if ← accept .closeBrace then return .done (read, inner)
      if ← accept .semicolon then return .again (read, inner)
      let attributes ← attributeSections
      let words ← modifiers
      match ← seesType with
      | some kind =>
        let types ← typeDeclarationAt depth kind attributes words around
        return .again (read, inner ++ types)
      | none =>
        let more ← members name attributes words
        return .again (read ++ more, inner)

end

/-- Read a type declaration and the types in it. -/
def typeDeclaration
    (kind : DeclarationKind)
    (attributes : List AttributeUse) (modifiers : List String) (around : Surroundings) :
    Parse (List TypeDeclaration) :=
  nested fun depth => typeDeclarationAt depth kind attributes modifiers around

/-- Read a using directive. -/
def usingDirective : Parse UsingDirective := do
  let line ← line
  if ← seesKeyword "global" then
    require .globalUsing line
    advance
  advance
  let kind ←
    if ← seesKeyword "static" then
      require .usingStatic line
      advance
      pure .staticMembers
    else if (← seesIdent) && (← sees .assign 1) then
      let name ← ident
      advance
      pure (.named name)
    else pure .namespaceMembers
  let target ← typeName
  expect .semicolon
  return ⟨kind, target⟩

/-- Whether a using directive comes next. -/
def seesUsing : Parse Bool := do
  return (← seesKeyword "using") || ((← seesKeyword "global") && (← seesKeyword "using" 1))

/-- Whether attributes of the assembly or the module come next. -/
def seesAssemblyAttributes : Parse Bool := do
  return (← sees .openBracket) &&
    ((← seesKeyword "assembly" 1) || (← seesKeyword "module" 1)) && (← sees .colon 2)

/-- The name of a namespace inside another one. -/
def joinNames (outer inner : String) : String :=
  if outer = "" then inner else outer ++ "." ++ inner

/-- What a part of a file declares. -/
structure Contents where
  /-- The directives outside all namespaces. -/
  usings : List UsingDirective
  assemblyAttributes : List AttributeUse
  types : List TypeDeclaration

namespace Contents

/-- Nothing declared. -/
def empty : Contents := ⟨[], [], []⟩

/-- The contents of two parts, one after the other. -/
def append (a b : Contents) : Contents :=
  ⟨a.usings ++ b.usings, a.assemblyAttributes ++ b.assemblyAttributes, a.types ++ b.types⟩

instance : Append Contents := ⟨append⟩

end Contents

/-- Where the reader of namespace members stands. -/
structure NamespaceState where
  /-- The namespace, dotted; a file-scoped declaration changes it. -/
  name : String
  /-- The directives in scope. -/
  scope : List UsingDirective
  contents : Contents

namespace NamespaceState

/-- Add contents. -/
def add (s : NamespaceState) (c : Contents) : NamespaceState :=
  { s with contents := s.contents ++ c }

/-- Add a directive, which belongs to the file when it stands outside all namespaces. -/
def addUsing (s : NamespaceState) (d : UsingDirective) : NamespaceState :=
  let added := if s.name = "" then s.add ⟨[d], [], []⟩ else s
  { added with scope := s.scope ++ [d] }

end NamespaceState

/-- Read a type declaration with the attributes and modifiers in front of it. -/
def namespaceType (s : NamespaceState) : Parse (List TypeDeclaration) := do
  let attributes ← attributeSections
  let words ← modifiers
  match ← seesType with
  | some kind => typeDeclaration kind attributes words ⟨s.name, [], s.scope⟩
  | none => fail .namespaceMember

/--
Read the members of a namespace, nested at most that deep, up to the closing brace
of its block or, for the file itself, to the end.
-/
def namespaceMembersAt : Nat → String → List UsingDirective → Bool → Parse Contents
  | 0, _, _, _ => fail .namespaceMember
  | depth + 1, name, scope, inBlock =>
    loop (⟨name, scope, .empty⟩ : NamespaceState) fun s => do
      if (← peek).isNone then
        if inBlock then fail (.expected .closeBrace)
        return .done s.contents
      if inBlock then
        if ← accept .closeBrace then
          let _ ← accept .semicolon
          return .done s.contents
      if (← seesKeyword "extern") && (← seesKeyword "alias" 1) then
        skipStatement
        return .again s
      if ← seesUsing then
        return .again (s.addUsing (← usingDirective))
      if ← seesAssemblyAttributes then
        return .again (s.add ⟨[], ← attributeSection, []⟩)
      if ← seesKeyword "namespace" then
        let line ← line
        advance
        let inner := joinNames s.name (".".intercalate (← typeName).path)
        if ← sees .semicolon then
          require .fileScopedNamespace line
          advance
          return .again { s with name := inner }
        expect .openBrace
        let contents ← namespaceMembersAt depth inner s.scope true
        return .again (s.add contents)
      if ← accept .semicolon then return .again s
      return .again (s.add ⟨[], [], ← namespaceType s⟩)

/-- Read the contents of a file. -/
def fileContents : Parse Contents :=
  nested fun depth => namespaceMembersAt depth "" [] false

end Parse

/-- The feature that a token needs by itself, given the token after it. -/
def neededFeatures (kind : TokenKind) (next : Option TokenKind) : List Feature :=
  match kind with
  | .str _ interpolated raw =>
    (if raw then [.rawStringLiterals] else []) ++
      (if interpolated then [.interpolatedStrings] else [])
  | .punct .conditionalAccess => [.nullPropagatingOperator]
  | .ident "default" false =>
    if next = some (.punct .openParen) ∨ next = some (.punct .colon) then []
    else [.defaultLiteral]
  | _ => []

/-- Check that the version has the features that tokens need by themselves. -/
def checkTokens (version : LanguageVersion) : List Token → Except Diagnostic Unit
  | [] => .ok ()
  | t :: ts =>
    match (neededFeatures t.kind (ts.head?.map (·.kind))).find? (!version.supports ·) with
    | some feature => .error ⟨t.line, .unavailable feature version⟩
    | none => checkTokens version ts

/-- The comment text by which a tool marks the files that it writes. -/
def generatedMark : String := "<auto-generated"

/-- Read a source file; a fault comes without the name of the file. -/
def parseSource
    (file source : String) (version : LanguageVersion) :
    Except Diagnostic CompilationUnit := do
  let lexed ← tokenize source
  checkTokens version lexed.tokens
  let endLine := (lexed.tokens.getLast?.map (·.line)).getD 1
  let (contents, _) ← Parse.fileContents ⟨version, endLine⟩ lexed.tokens
  return {
    file
    isGenerated := Text.occursIn generatedMark.toList lexed.leadingComments
    usings := contents.usings
    assemblyAttributes := contents.assemblyAttributes
    types := contents.types }

end CSharp
end ContentModels

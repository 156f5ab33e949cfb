import ContentModels.CSharp.Parse.TypeName

/-!
# Reading parts of members

Modifiers, parameters, bodies and names: the parts of a member that hold no other
declaration.
-/

namespace ContentModels
namespace CSharp
namespace Parse

/-- The words that may stand in front of a declaration. -/
def modifierWords : List String :=
  ["public", "private", "protected", "internal", "static", "abstract", "sealed", "partial",
    "readonly", "unsafe", "new", "virtual", "override", "extern", "async", "volatile", "const",
    "fixed", "file", "required", "ref"]

/-- The modifiers that are names when a mark that follows a name comes next. -/
def contextualModifiers : List String :=
  ["partial", "async", "file", "required"]

/-- Split off the modifiers in front of a declaration. -/
def splitModifiers : List Token → List String × List Token
  | [] => ([], [])
  | t :: ts =>
    match t.kind.keyword? with
    | none => ([], t :: ts)
    | some word =>
      let isName := contextualModifiers.contains word &&
        ts.head?.any (Token.isOneOf [.openParen, .assign, .semicolon])
      if modifierWords.contains word && !isName then
        let (words, rest) := splitModifiers ts
        (word :: words, rest)
      else ([], t :: ts)

/-- Read the modifiers in front of a declaration. -/
def modifiers : Parse (List String) :=
  fun _ ts => .ok (splitModifiers ts)

/-- The words that may stand in front of a parameter. -/
def parameterModifiers : List String :=
  ["this", "ref", "out", "in", "params", "scoped", "readonly"]

/-- Read one parameter; a variable argument list is none. -/
def parameter : Parse (Option Parameter) := do
  let _ ← attributeSections
  let words ← keywords parameterModifiers
  if ← seesKeyword "__arglist" then
    advance
    return none
  let type ← typeName
  let name ← ident
  if ← accept .assign then skipExpression listedExpressionEnds
  return some ⟨type, name, words⟩

/-- Read the parameters between parentheses. -/
def parameters : Parse (List Parameter) := do
  expect .openParen
  if ← accept .closeParen then return []
  loop [] fun read => do
    let read := read ++ (← parameter).toList
    if ← accept .comma then return .again read
    expect .closeParen
    return .done read

/-- Drop an expression after an arrow that needs a feature, and the semicolon after it. -/
def skipArrowBody (feature : Feature) : Parse Unit := do
  require feature (← line)
  advance
  skipExpression expressionEnds
  expect .semicolon

/-- Drop a body: a block, an expression after an arrow, or a semicolon. -/
def skipBody (arrow : Feature) : Parse Unit := do
  if ← sees .openBrace then skipGroup
  else if ← sees .arrow then skipArrowBody arrow
  else expect .semicolon

/-- Drop one accessor of a property. -/
def skipAccessor : Parse Unit := do
  let _ ← attributeSections
  let _ ← keywords ["private", "protected", "internal", "readonly"]
  let line ← line
  match (← peek).bind TokenKind.keyword? with
  | some "get" | some "set" | some "add" | some "remove" => pure ()
  | some "init" => require .initOnlySetters line
  | _ => fail .accessorExpected
  advance
  skipBody .expressionBodiedAccessor

/-- Drop what follows the name of a property: an expression, or accessors and perhaps an initialiser. -/
def skipPropertyBody : Parse Unit := do
  if ← sees .arrow then
    skipArrowBody .expressionBodiedProperty
  else
    expect .openBrace
    loop () fun _ => do
      if (← peek).isNone then fail (.expected .closeBrace)
      if ← accept .closeBrace then return .done ()
      skipAccessor
      return .again ()
    if ← sees .assign then
      require .autoPropertyInitializer (← line)
      advance
      skipExpression expressionEnds
      expect .semicolon

/-- Drop an operator declaration from its operator on. -/
def skipOperator : Parse Unit := do
  dropUntil [.openParen] (.expected .openParen)
  let _ ← parameters
  skipBody .expressionBodiedMethod

/-- Read type arguments that a dot follows. -/
def qualifierArguments : Parse Bool := do
  let read ← attempt do
    let _ ← typeArguments
    if !(← sees .dot) then fail (.expected .dot)
  return read.isSome

/-- Read the name of a member: the last segment, after the interface it belongs to. -/
def memberName : Parse String := do
  let first ← ident
  loop first fun name => do
    if (← sees .less) && (← sees .greater 1) then return .done name
    if ((← sees .dot) || (← sees .doubleColon)) && (← seesIdent 1) then
      advance
      return .again (← ident)
    if ← sees .less then
      if ← qualifierArguments then return .again name
    return .done name

/-- Drop the constraints on type parameters, up to one of some marks. -/
def skipConstraints (marks : List Punct) (fault : Fault) : Parse Unit := do
  if ← seesKeyword "where" then dropUntil marks fault

/-- The chained constructor call in front of a constructor's body. -/
def skipConstructorChain : Parse Unit := do
  if ← accept .colon then
    if !((← seesKeyword "base") || (← seesKeyword "this")) then fail .chainKeywordExpected
    advance
    if !(← sees .openParen) then fail (.expected .openParen)
    skipGroup

/-- Read the names of the fields that one declaration declares, with their initialisers. -/
def fieldNames (first : String) : Parse (List String) :=
  loop [first] fun names => do
    if ← accept .assign then skipExpression listedExpressionEnds
    if ← accept .comma then
      return .again (names ++ [← ident])
    return .done names

/-- Read what follows the type of a field, a method or a property: its names and kinds. -/
def namedMembers (type : TypeName) : Parse (List (String × MemberKind)) := do
  let name ← memberName
  let _ ← typeParameters
  if ← sees .openParen then
    let parameters ← parameters
    skipConstraints [.openBrace, .semicolon, .arrow] (.expected .semicolon)
    skipBody .expressionBodiedMethod
    return [(name, .method type parameters)]
  if (← sees .openBrace) || (← sees .arrow) then
    skipPropertyBody
    return [(name, .property type)]
  if ← sees .openBracket then skipGroup
  else if !((← sees .assign) || (← sees .comma) || (← sees .semicolon)) then
    fail (.expected .semicolon)
  let names ← fieldNames name
  expect .semicolon
  return names.map (·, .field type)

/-- Read the names and kinds of the members that the next declaration in a type declares. -/
def memberKinds (typeName : String) : Parse (List (String × MemberKind)) := do
  if ← seesKeyword "event" then
    advance
    let _ ← Parse.typeName
    let name ← ident
    if ← sees .openBrace then skipGroup else skipStatement
    return [(name, .event)]
  if (← seesKeyword "implicit") || (← seesKeyword "explicit") then
    advance
    skipOperator
    return [("operator", .operator)]
  if ← accept .tilde then
    let name ← ident
    let _ ← parameters
    skipBody .expressionBodiedConstructor
    return [(name, .destructor)]
  if ((← peek).bind TokenKind.ident? == some typeName) && (← sees .openParen 1) then
    advance
    let parameters ← parameters
    skipConstructorChain
    skipBody .expressionBodiedConstructor
    return [(typeName, .constructor parameters)]
  if !((← sees .openParen) || (← seesIdent)) then
    fail (.invalidMember (((← peek).map TokenKind.describe).getD ""))
  let type ← Parse.typeName
  if ← seesKeyword "operator" then
    skipOperator
    return [("operator", .operator)]
  if (← seesKeyword "this") && (← sees .openBracket 1) then
    advance
    skipGroup
    skipPropertyBody
    return [("this", .indexer)]
  namedMembers type

/-- Read the next members of a type, after the attributes and modifiers in front of them. -/
def members
    (typeName : String) (attributes : List AttributeUse) (modifiers : List String) :
    Parse (List Member) := do
  let line ← line
  let kinds ← memberKinds typeName
  return kinds.map fun (name, kind) => ⟨name, kind, attributes, modifiers, line⟩

end Parse
end CSharp
end ContentModels

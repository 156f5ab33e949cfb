import ContentModels.CSharp.Declaration
import ContentModels.CSharp.Parse.Group
import ContentModels.Text.Quoted

/-!
# Reading type names and attributes

A type name may have type arguments, a type argument may have attributes, and an
attribute may name types, so their readers call each other.  Their first argument
bounds how deep they nest; the number of tokens is a bound, since a name inside
another one has fewer tokens.
-/

namespace ContentModels
namespace CSharp

/-- How a token is written inside the text of a type name or an expression. -/
def TokenKind.text : TokenKind → String
  | .ident text _ => text
  | .number text => text
  | .str value _ _ => Text.Quoted.encode value
  | .character value => "'" ++ value ++ "'"
  | .punct p => p.text

/-- The texts of tokens; a word after a word has a blank in front. -/
def renderings (afterWord : Bool) : List Token → List String
  | [] => []
  | t :: ts =>
    (if t.kind.isWord && afterWord then " " ++ t.kind.text else t.kind.text) ::
      renderings t.kind.isWord ts

/-- The text of tokens, without blanks except one between two words. -/
def render (ts : List Token) : String :=
  String.join (renderings false ts)

/--
The tokens after the suffixes of a type: question marks, stars and ranks.  The flag
says that a rank is open.
-/
def dropTypeSuffixes (endLine : Nat) : Bool → List Token → Except Diagnostic (List Token)
  | false, [] => .ok []
  | true, [] => .error ⟨endLine, .expected .closeBracket⟩
  | false, t :: ts =>
    match t.kind with
    | .punct .question | .punct .star => dropTypeSuffixes endLine false ts
    | .punct .openBracket =>
      if ts.head?.any (Token.isOneOf [.closeBracket, .comma]) then
        dropTypeSuffixes endLine true ts
      else .ok (t :: ts)
    | _ => .ok (t :: ts)
  | true, t :: ts =>
    match t.kind with
    | .punct .comma => dropTypeSuffixes endLine true ts
    | .punct .closeBracket => dropTypeSuffixes endLine false ts
    | _ => .error ⟨t.line, .expected .closeBracket⟩

namespace Parse

/-- Drop the suffixes of a type. -/
def typeSuffixes : Parse Unit :=
  fun ctx ts => (dropTypeSuffixes ctx.endLine false ts).map ((), ·)

/-- Read with a reader, and answer also with the tokens it has read. -/
def withTokens {α : Type} (p : Parse α) : Parse (α × List Token) := do
  let before ← tokens
  let a ← p
  let after ← tokens
  return (a, before.take (before.length - after.length))

/-- Whether an attribute argument ends after `n` tokens. -/
def argumentEnds (n : Nat) : Parse Bool := do
  return (← sees .comma n) || (← sees .closeParen n)

/-- Read the mark that starts a name at the global namespace. -/
def globalMark : Parse Bool := do
  if (← seesKeyword "global") && (← sees .doubleColon 1) then
    advance 2
    return true
  return false

/-- Read the name and the mark in front of a named attribute argument. -/
def argumentName : Parse (Option String) := do
  if (← seesIdent) && ((← sees .assign 1) || (← sees .colon 1)) then
    let name ← ident
    advance
    return some name
  return none

/-- A string literal without holes that is a whole attribute argument. -/
def literalArgument : Parse (Option String) := do
  match ← peek with
  | some (.str value false _) =>
    if ← argumentEnds 1 then
      advance
      return some value
    return none
  | _ => return none

mutual

/-- Read a type name nested at most that deep. -/
def typeNameAt : Nat → Parse TypeName
  | 0 => fail .identifierExpected
  | depth + 1 => do
    let ((path, arity, fromGlobal), read) ← withTokens do
      if ← sees .openParen then
        skipGroup
        typeSuffixes
        return (["ValueTuple"], 0, false)
      let fromGlobal ← globalMark
      let (path, arity) ← loop [] fun path => do
        let path := path ++ [← ident]
        let arity ← if ← sees .less then typeArgumentsAt depth else pure 0
        if ((← sees .dot) || (← sees .doubleColon)) && (← seesIdent 1) then
          advance
          return .again path
        return .done (path, arity)
      typeSuffixes
      return (path, arity, fromGlobal)
    return ⟨render read, path, arity, fromGlobal⟩

/-- Read type arguments or type parameters between angle brackets, and count them. -/
def typeArgumentsAt : Nat → Parse Nat
  | 0 => fail .identifierExpected
  | depth + 1 => do
    expect .less
    loop 1 fun arity => do
      if ← accept .comma then return .again (arity + 1)
      if ← accept .greater then return .done arity
      if (← seesKeyword "in") || (← seesKeyword "out") then advance
      if ← sees .openBracket then
        let _ ← attributeSectionAt depth
      let _ ← typeNameAt depth
      if (← sees .comma) || (← sees .greater) then return .again arity
      fail (.expected .greater)

/-- Read the attributes between square brackets. -/
def attributeSectionAt : Nat → Parse (List AttributeUse)
  | 0 => fail .identifierExpected
  | depth + 1 => do
    expect .openBracket
    if (← seesIdent) && (← sees .colon 1) then advance 2
    let uses ← loop [] fun uses => do
      let line ← line
      let name ← typeNameAt depth
      let arguments ← if ← sees .openParen then attributeArgumentsAt depth else pure []
      let uses := uses ++ [⟨name, arguments, line⟩]
      if ← accept .comma then
        if ← sees .closeBracket then return .done uses
        return .again uses
      return .done uses
    expect .closeBracket
    return uses

/-- Read the arguments of an attribute between parentheses. -/
def attributeArgumentsAt : Nat → Parse (List AttributeArgument)
  | 0 => fail .identifierExpected
  | depth + 1 => do
    expect .openParen
    if ← accept .closeParen then return []
    loop [] fun arguments => do
      let name ← argumentName
      let value ← attributeValueAt depth
      let arguments := arguments ++ [⟨name, value⟩]
      if ← accept .comma then return .again arguments
      expect .closeParen
      return .done arguments

/--
Read the value of an attribute argument.  A type or name operator that is not the
whole argument is passed over, and the text of the value starts after it.
-/
def attributeValueAt : Nat → Parse AttributeValue
  | 0 => fail .identifierExpected
  | depth + 1 => do
    if let some value ← literalArgument then return .str value
    if (← seesKeyword "typeof") && (← sees .openParen 1) then
      advance 2
      let type ← typeNameAt depth
      expect .closeParen
      if ← argumentEnds 0 then return .typeOf type
    if (← seesKeyword "nameof") && (← sees .openParen 1) then
      advance 2
      let target ← typeNameAt depth
      expect .closeParen
      if ← argumentEnds 0 then return .str target.simpleName
    let (_, read) ← withTokens (skipExpression listedExpressionEnds)
    return .expr (render read)

end

/-- Run a reader whose argument bounds its nesting, with the bound that the tokens give. -/
def nested {α : Type} (p : Nat → Parse α) : Parse α :=
  fun ctx ts => p (ts.length + 1) ctx ts

/-- Read a type name. -/
def typeName : Parse TypeName :=
  nested typeNameAt

/-- Read type arguments or type parameters between angle brackets, and count them. -/
def typeArguments : Parse Nat :=
  nested typeArgumentsAt

/-- Read type parameters if they come next, and count them. -/
def typeParameters : Parse Nat := do
  if ← sees .less then typeArguments else return 0

/-- Read the attributes between square brackets. -/
def attributeSection : Parse (List AttributeUse) :=
  nested attributeSectionAt

/-- Read all attribute sections that come next. -/
def attributeSections : Parse (List AttributeUse) :=
  loop [] fun uses => do
    if ← sees .openBracket then
      return .again (uses ++ (← attributeSection))
    return .done uses

end Parse

end CSharp
end ContentModels

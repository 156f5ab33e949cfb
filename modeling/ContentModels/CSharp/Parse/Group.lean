import ContentModels.CSharp.Parse

/-!
# Bracketed groups and skipped tokens

Bodies, initialisers and expressions are not read, only passed over.  A stack
holds the marks that have to close the groups that are open, innermost first; a
closing mark must be the innermost one.
-/

namespace ContentModels
namespace CSharp

/-- The closing marks of the open groups after one more token. -/
def nest (stack : List Punct) (t : Token) : Except Diagnostic (List Punct) :=
  match t.kind with
  | .punct p =>
    match p.closer? with
    | some closer => .ok (closer :: stack)
    | none =>
      if p.isCloser then
        match stack with
        | [] => .error ⟨t.line, .unexpectedClosing p⟩
        | closer :: outer =>
          if closer = p then .ok outer else .error ⟨t.line, .expected closer⟩
      else if stack.isEmpty then .error ⟨t.line, .expected .openBrace⟩
      else .ok stack
  | _ => if stack.isEmpty then .error ⟨t.line, .expected .openBrace⟩ else .ok stack

/-- The tokens after the groups that are open, or that the next token opens. -/
def closeGroups (endLine : Nat) : List Punct → List Token → Except Diagnostic (List Token)
  | stack, [] => .error ⟨endLine, .expected (stack.head?.getD .closeBrace)⟩
  | stack, t :: ts =>
    match nest stack t with
    | .error d => .error d
    | .ok [] => .ok ts
    | .ok (closer :: outer) => closeGroups endLine (closer :: outer) ts

/-- Whether a token opens a group. -/
def Token.opensGroup (t : Token) : Bool :=
  match t.kind with
  | .punct p => p.closer?.isSome
  | _ => false

/-- Whether a token is one of some marks. -/
def Token.isOneOf (marks : List Punct) (t : Token) : Bool :=
  match t.kind with
  | .punct p => marks.contains p
  | _ => false

/-- The tokens from the first of some marks on that stands outside all groups. -/
def dropToMark (marks : List Punct) (endLine : Nat) :
    List Punct → List Token → Except Diagnostic (List Token)
  | [], [] => .error ⟨endLine, .expected .semicolon⟩
  | closer :: _, [] => .error ⟨endLine, .expected closer⟩
  | [], t :: ts =>
    if t.opensGroup then
      match nest [] t with
      | .error d => .error d
      | .ok stack => dropToMark marks endLine stack ts
    else if t.isOneOf marks then .ok (t :: ts)
    else dropToMark marks endLine [] ts
  | closer :: outer, t :: ts =>
    match nest (closer :: outer) t with
    | .error d => .error d
    | .ok stack => dropToMark marks endLine stack ts

namespace Parse

/-- Drop the group that opens at the next token. -/
def skipGroup : Parse Unit :=
  fun ctx ts => (closeGroups ctx.endLine [] ts).map ((), ·)

/-- Drop the tokens in front of the first of some marks outside all groups. -/
def skipTo (marks : List Punct) : Parse Unit :=
  fun ctx ts => (dropToMark marks ctx.endLine [] ts).map ((), ·)

/-- The marks that end an expression wherever it stands. -/
def expressionEnds : List Punct :=
  [.semicolon, .closeParen, .closeBracket, .closeBrace]

/-- The marks that end an expression in a list. -/
def listedExpressionEnds : List Punct :=
  .comma :: expressionEnds

/-- Drop an expression, of at least one token, up to one of the marks that end it. -/
def skipExpression (ends : List Punct) : Parse Unit := do
  let before ← tokens
  skipTo ends
  let after ← tokens
  if after.length = before.length then fail .invalidExpression

/-- Drop the tokens up to a semicolon, and the semicolon. -/
def skipStatement : Parse Unit := do
  skipTo [.semicolon]
  advance

end Parse

end CSharp
end ContentModels

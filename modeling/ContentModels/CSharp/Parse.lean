import ContentModels.CSharp.Diagnostic
import ContentModels.CSharp.Token

/-!
# Readers of token lists

A reader takes the tokens that are left and answers with a value and the tokens
left after it, or with a diagnostic.  A fault is reported on the line of the next
token, or, when no token is left, on the line of the last token of the file.
-/

namespace ContentModels
namespace CSharp

/-- What readers know besides the tokens. -/
structure ParseContext where
  version : LanguageVersion
  /-- The line of the last token of the file. -/
  endLine : Nat

/-- A reader of a value of type `α`. -/
def Parse (α : Type) :=
  ParseContext → List Token → Except Diagnostic (α × List Token)

namespace Parse

variable {α β σ : Type}

instance : Monad Parse where
  pure a := fun _ ts => .ok (a, ts)
  bind p f := fun ctx ts =>
    match p ctx ts with
    | .error d => .error d
    | .ok (a, rest) => f a ctx rest

theorem pure_apply
    (a : α) (ctx : ParseContext) (ts : List Token) :
    (pure a : Parse α) ctx ts = .ok (a, ts) := by
  rfl

theorem bind_apply
    (p : Parse α) (f : α → Parse β) (ctx : ParseContext) (ts : List Token) :
    (p >>= f) ctx ts =
      match p ctx ts with
      | .error d => .error d
      | .ok (a, rest) => f a ctx rest := by
  rfl

instance : LawfulMonad Parse :=
  LawfulMonad.mk' Parse
    (fun p => by
      funext ctx ts
      change (match p ctx ts with
        | .error d => Except.error d
        | .ok (a, rest) => .ok (a, rest)) = p ctx ts
      cases p ctx ts <;> rfl)
    (fun _ _ => rfl)
    (fun p f g => by
      funext ctx ts
      rw [bind_apply, bind_apply, bind_apply]
      cases p ctx ts <;> rfl)

/-- The tokens that are left. -/
def tokens : Parse (List Token) :=
  fun _ ts => .ok (ts, ts)

/-- The line on which a fault would be reported. -/
def line : Parse Nat :=
  fun ctx ts => .ok ((ts.head?.map (·.line)).getD ctx.endLine, ts)

/-- Fail on a line. -/
def failAt (line : Nat) (fault : Fault) : Parse α :=
  fun _ _ => .error ⟨line, fault⟩

/-- Fail on the line of the next token. -/
def fail (fault : Fault) : Parse α := do
  failAt (← line) fault

/-- The kind of the token after `n` others. -/
def peek (n : Nat := 0) : Parse (Option TokenKind) :=
  fun _ ts => .ok (ts[n]?.map (·.kind), ts)

/-- Drop `n` tokens. -/
def advance (n : Nat := 1) : Parse Unit :=
  fun _ ts => .ok ((), ts.drop n)

/-- Whether the token after `n` others is a mark. -/
def sees (p : Punct) (n : Nat := 0) : Parse Bool := do
  return (← peek n) == some (.punct p)

/-- Whether the token after `n` others is a keyword. -/
def seesKeyword (word : String) (n : Nat := 0) : Parse Bool := do
  return (← peek n).bind TokenKind.keyword? == some word

/-- Whether the token after `n` others is an identifier. -/
def seesIdent (n : Nat := 0) : Parse Bool := do
  return ((← peek n).bind TokenKind.ident?).isSome

/-- Read a mark if it comes next. -/
def accept (p : Punct) : Parse Bool := do
  if ← sees p then
    advance
    return true
  return false

/-- Read a mark. -/
def expect (p : Punct) : Parse Unit := do
  if ← sees p then advance else fail (.expected p)

/-- Read an identifier. -/
def ident : Parse String := do
  match (← peek).bind TokenKind.ident? with
  | some text =>
    advance
    return text
  | none => fail .identifierExpected

/-- Fail on a line unless the version has a feature. -/
def require (feature : Feature) (line : Nat) : Parse Unit :=
  fun ctx ts =>
    if ctx.version.supports feature then .ok ((), ts)
    else .error ⟨line, .unavailable feature ctx.version⟩

/-- Read the keywords of a list as long as they come next. -/
def keywords (allowed : List String) : Parse (List String) :=
  fun _ ts =>
    let isAllowed (t : Token) : Bool := t.kind.keyword?.any allowed.contains
    .ok ((ts.takeWhile isAllowed).filterMap (·.kind.keyword?), ts.dropWhile isAllowed)

/-- Drop tokens until one of some marks comes next; a fault if none does. -/
def dropUntil (marks : List Punct) (fault : Fault) : Parse Unit :=
  fun ctx ts =>
    let rest := ts.dropWhile fun t =>
      match t.kind with
      | .punct p => !marks.contains p
      | _ => true
    if rest.isEmpty then .error ⟨ctx.endLine, fault⟩ else .ok ((), rest)

/-- Run a reader; when it fails, nothing is read. -/
def attempt (p : Parse α) : Parse (Option α) :=
  fun ctx ts =>
    match p ctx ts with
    | .error _ => .ok (none, ts)
    | .ok (a, rest) => .ok (some a, rest)

/-- What a round of a loop decides. -/
inductive Round (σ β : Type) where
  | again (state : σ)
  | done (result : β)

/-- Repeat a round at most `n` times. -/
def rounds (step : σ → Parse (Round σ β)) : Nat → σ → Parse β
  | 0, _ => fail .invalidExpression
  | n + 1, s => do
    match ← step s with
    | .again s => rounds step n s
    | .done b => return b

/--
Repeat a round until it is done.  A round that asks for another one has read a
token, so the number of tokens bounds the number of rounds.
-/
def loop (init : σ) (step : σ → Parse (Round σ β)) : Parse β :=
  fun ctx ts => rounds step (ts.length + 1) init ctx ts

end Parse

end CSharp
end ContentModels

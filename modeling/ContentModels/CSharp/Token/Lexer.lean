import ContentModels.CSharp.Token.Literal
import ContentModels.Text.Numeric

/-!
# From text to tokens

Blanks, comments and directive lines are dropped.  What stands at the head of the
text decides what is read next, and each reading takes at least one character.
The comments in front of the first token are kept, since they say whether a tool
has written the file.
-/

namespace ContentModels
namespace CSharp

/-- What is read at the head of a text. -/
inductive Piece where
  | blank
  | comment (text : List Char)
  | token (kind : TokenKind)

namespace Piece

/-- A character that starts an identifier. -/
def isIdentStart (c : Char) : Bool :=
  c == '_' || Text.isAlphabetic c

/-- A character that continues an identifier. -/
def isIdentPart (c : Char) : Bool :=
  c == '_' || Text.isAlphanumeric c

/-- A character between tokens. -/
def isSpace (c : Char) : Bool :=
  Text.isBlank c || c == '\ufeff'

/-- Whether the list starts with an ASCII digit. -/
def startsWithDigit : List Char → Bool
  | [] => false
  | c :: _ => c.isDigit

/--
The number of characters of a number: letters, digits and underscores, a point in
front of a digit, and a sign after the exponent letter of a number that is not
hexadecimal.
-/
def numberLength (hex : Bool) : Bool → List Char → Nat
  | _, [] => 0
  | afterExponent, c :: cs =>
    if c.isAlphanum || c == '_' || (afterExponent && !hex && (c == '+' || c == '-')) then
      numberLength hex (c == 'e' || c == 'E') cs + 1
    else if c == '.' && startsWithDigit cs then numberLength hex false cs + 1
    else 0

/-- Whether a number is hexadecimal. -/
def isHexadecimal : List Char → Bool
  | '0' :: x :: _ => x == 'x' || x == 'X'
  | _ => false

/-- The text and length of a block comment after its opening mark. -/
def readBlockComment : List Char → Option (List Char × Nat)
  | [] => none
  | c :: cs =>
    match c, cs with
    | '*', '/' :: _ => some ([], 2)
    | _, _ => (readBlockComment cs).map fun (text, n) => (c :: text, n + 1)

/-- The characters up to the end of the line. -/
def restOfLine (cs : List Char) : List Char :=
  cs.takeWhile (· != '\n')

/-- The identifier that starts the list and its length. -/
def readIdent (verbatim : Bool) (cs : List Char) : Literal.Reading Piece :=
  let word := cs.takeWhile isIdentPart
  .ok (.token (.ident (String.ofList word) verbatim), word.length)

/-- The operator or punctuation mark that starts the list. -/
def readPunct (c : Char) (cs : List Char) : Literal.Reading Piece :=
  let double := match cs with
    | [] => none
    | d :: _ => Punct.ofChars? c d
  match double with
  | some p =>
    if p = .conditionalAccess ∧ startsWithDigit (cs.drop 1) then
      .ok (.token (.punct .question), 1)
    else .ok (.token (.punct p), 2)
  | none =>
    match Punct.ofChar? c with
    | some p => .ok (.token (.punct p), 1)
    | none => .error (.unexpectedCharacter c)

/-- Read a token at the head of a text that starts neither a blank, a comment nor a directive. -/
def readToken (c : Char) (cs : List Char) : Literal.Reading Piece :=
  match Literal.string? (c :: cs) with
  | some r => r.map fun (kind, n) => (.token kind, n)
  | none =>
    if c = '\'' then (Literal.character cs).map fun (kind, n) => (.token kind, n)
    else if c = '@' ∧ (cs.head?.any isIdentStart) then
      (readIdent true cs).map fun (piece, n) => (piece, n + 1)
    else if isIdentStart c then readIdent false (c :: cs)
    else if c.isDigit || (c == '.' && startsWithDigit cs) then
      let n := numberLength (isHexadecimal (c :: cs)) false (c :: cs)
      .ok (.token (.number (String.ofList ((c :: cs).take n))), n)
    else readPunct c cs

/-- Read what stands at the head of a text; `fresh` says that only blanks precede it on its line. -/
@[irreducible] def read (fresh : Bool) (c : Char) (cs : List Char) : Literal.Reading Piece :=
  if isSpace c then .ok (.blank, 1)
  else if c = '/' ∧ cs.head? = some '/' then
    let line := restOfLine (c :: cs)
    .ok (.comment line, line.length)
  else if c = '/' ∧ cs.head? = some '*' then
    match readBlockComment (cs.drop 1) with
    | some (text, n) => .ok (.comment text, n + 2)
    | none => .error .unterminatedComment
  else if c = '#' ∧ fresh then .ok (.blank, (restOfLine (c :: cs)).length)
  else readToken c cs

end Piece

/-- A place in a text: its line, and whether only blanks precede it on that line. -/
structure Position where
  line : Nat
  fresh : Bool
deriving DecidableEq, Repr

namespace Position

/-- The place where a text starts. -/
def start : Position := ⟨1, true⟩

/-- The place after one character. -/
def next (p : Position) (c : Char) : Position :=
  if c = '\n' then ⟨p.line + 1, true⟩
  else if c = ' ' ∨ c = '\t' ∨ c = '\r' then p
  else ⟨p.line, false⟩

/-- The place after some characters. -/
def after (p : Position) (cs : List Char) : Position :=
  cs.foldl next p

@[simp] theorem after_nil
    (p : Position) :
    p.after [] = p := by
  rfl

@[simp] theorem after_cons
    (p : Position) (c : Char) (cs : List Char) :
    p.after (c :: cs) = (p.next c).after cs := by
  rfl

theorem after_append
    (p : Position) (cs ds : List Char) :
    p.after (cs ++ ds) = (p.after cs).after ds := by
  simp [after]

end Position

/-- The tokens of a text, and the comments in front of the first one, each with a line feed. -/
structure Lexed where
  tokens : List Token
  leadingComments : List Char
deriving DecidableEq, Repr

namespace Lexed

/-- Put a piece read on a line in front of what follows it. -/
def push (line : Nat) (piece : Piece) (rest : Lexed) : Lexed :=
  match piece with
  | .blank => rest
  | .comment text =>
    { rest with leadingComments := text ++ '\n' :: rest.leadingComments }
  | .token kind => ⟨⟨kind, line⟩ :: rest.tokens, []⟩

end Lexed

/-- The tokens of the characters from a place on. -/
def tokenizeFrom (p : Position) : List Char → Except Diagnostic Lexed
  | [] => .ok ⟨[], []⟩
  | c :: cs =>
    match Piece.read p.fresh c cs with
    | .error fault => .error ⟨p.line, fault⟩
    | .ok (piece, n) =>
      (tokenizeFrom (p.after ((c :: cs).take n)) (cs.drop (n - 1))).map (Lexed.push p.line piece)
termination_by cs => cs.length
decreasing_by
  all_goals
    simp only [List.length_drop, List.length_cons]
    omega

/-- The tokens of a source text. -/
def tokenize (source : String) : Except Diagnostic Lexed :=
  tokenizeFrom .start source.toList

end CSharp
end ContentModels

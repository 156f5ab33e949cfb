/-!
# Characters and positions in YAML text

The layout of YAML text depends on columns, so readers carry the position of the rest
that they still have to read.
-/

namespace ContentModels
namespace Yaml

/-- A character that may occur in a document. -/
def isAllowed (c : Char) : Bool :=
  let n := c.toNat
  c == '\t' || c == '\n' || c == '\r' || (0x20 ≤ n && n ≤ 0x7e) || n == 0x85 ||
    (0xa0 ≤ n && n ≤ 0xfffd) || 0x10000 ≤ n

/-- A character that ends a line. -/
def isBreak (c : Char) : Bool :=
  c == '\n' || c == '\r' || c == '\u0085' || c == '\u2028' || c == '\u2029'

/-- What the end of a line stands for: the separators for themselves, all others for a line feed. -/
def breakText (c : Char) : Char :=
  if c == '\u2028' || c == '\u2029' then c else '\n'

/-- A blank within a line. -/
def isBlank (c : Char) : Bool :=
  c == ' ' || c == '\t'

/-- Whether a word ends in front of a text. -/
def endsWord : List Char → Bool
  | [] => true
  | c :: _ => isBlank c || isBreak c

/-- Whether a text starts with the mark of the start of a document. -/
def startsDocument : List Char → Bool
  | '-' :: '-' :: '-' :: cs => endsWord cs
  | _ => false

/-- Whether a text starts with the mark of the end of a document. -/
def endsDocument : List Char → Bool
  | '.' :: '.' :: '.' :: cs => endsWord cs
  | _ => false

/-- A character of a name. -/
def isNameChar (c : Char) : Bool :=
  c.isAlphanum || c == '_' || c == '-'

/-- A place in a text. -/
structure Position where
  /-- The number of characters before. -/
  index : Nat
  line : Nat
  column : Nat
deriving DecidableEq, Repr, Inhabited

namespace Position

/-- The start of a text. -/
def start : Position := ⟨0, 0, 0⟩

/-- The place after some characters of a line. -/
def advance (p : Position) (n : Nat) : Position :=
  ⟨p.index + n, p.line, p.column + n⟩

/-- The place after one character of a line. -/
def next (p : Position) : Position :=
  p.advance 1

/-- The place after a line end of some characters. -/
def nextLine (p : Position) (n : Nat) : Position :=
  ⟨p.index + n, p.line + 1, 0⟩

end Position

/-- Skip what precedes the end of the line. -/
def skipLine (p : Position) (cs : List Char) : Position × List Char :=
  let line := cs.takeWhile (!isBreak ·)
  (p.advance line.length, cs.drop line.length)

/-- The end of a line at the head of a text, if there is one, and what it stands for. -/
def readBreak (p : Position) : List Char → List Char × Position × List Char
  | '\r' :: '\n' :: cs => (['\n'], p.nextLine 2, cs)
  | [] => ([], p, [])
  | c :: cs => if isBreak c then ([breakText c], p.nextLine 1, cs) else ([], p, c :: cs)

/-- Skip blanks within a line. -/
def skipBlanks (p : Position) (cs : List Char) : Position × List Char :=
  let blanks := cs.takeWhile isBlank
  (p.advance blanks.length, cs.drop blanks.length)

end Yaml
end ContentModels

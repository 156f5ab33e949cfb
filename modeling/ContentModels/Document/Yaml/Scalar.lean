import ContentModels.Document.Yaml.Position
import ContentModels.Text.Hex

/-!
# YAML scalars

Unquoted and quoted scalars may go on over several lines.  Between words, blanks count
as they are, a single line end counts as a blank, and of several line ends all but the
first count.  Block scalars keep their lines or, if they are folded, join those that are
not indented further.
-/

namespace ContentModels
namespace Yaml

/-- A scalar that has been read. -/
structure Scanned where
  text : List Char
  /-- Whether line ends follow the last word. -/
  endsLine : Bool
  position : Position
  rest : List Char

/-- What stands between two words of a scalar. -/
inductive Gap where
  | nothing
  /-- Blanks, the last one first. -/
  | blanks (reversed : List Char)
  /-- A line end, unless it is escaped, and further line ends, the last one first. -/
  | breaks (first : Option Char) (reversed : List Char)

namespace Gap

/-- What a gap counts as. -/
def text : Gap → List Char
  | nothing => []
  | blanks reversed => reversed.reverse
  | breaks (some '\n') [] => [' ']
  | breaks (some '\n') reversed => reversed.reverse
  | breaks first reversed => first.toList ++ reversed.reverse

/-- Whether a gap holds line ends. -/
def endsLine : Gap → Bool
  | breaks _ _ => true
  | _ => false

/-- Whether there is a gap. -/
def isNothing : Gap → Bool
  | nothing => true
  | _ => false

/-- A gap and one more blank. -/
def addBlank (g : Gap) (c : Char) : Gap :=
  match g with
  | nothing => blanks [c]
  | blanks reversed => blanks (c :: reversed)
  | g => g

/-- A gap and one more line end. -/
def addBreak (g : Gap) (c : Char) : Gap :=
  match g with
  | breaks first reversed => breaks first (c :: reversed)
  | _ => breaks (some c) []

end Gap

/-! ### Unquoted scalars -/

/-- A character that has a meaning of its own within brackets. -/
def isFlowMark (c : Char) : Bool :=
  c == ',' || c == '[' || c == ']' || c == '\x7b' || c == '\x7d'

/-- Whether a text starts with a character that has a meaning of its own within brackets. -/
def startsWithFlowMark : List Char → Bool
  | [] => false
  | c :: _ => isFlowMark c

/-- Whether an unquoted scalar ends in front of a text, because of what precedes it. -/
def endsAfterGap (inFlow : Bool) (level : Nat) (gap : Gap) (p : Position) (cs : List Char) : Bool :=
  !gap.isNothing &&
    ((gap.endsLine && !inFlow && p.column < level) ||
      (p.column == 0 && (startsDocument cs || endsDocument cs)) || cs.head? == some '#')

/-- Whether an unquoted scalar ends in front of a text, because of a mark. -/
def endsAtMark (inFlow : Bool) : List Char → Bool
  | ':' :: cs => endsWord cs
  | c :: _ => inFlow && isFlowMark c
  | [] => true

/--
Read an unquoted scalar.  `reversed` holds what is read, the last character first, and
`level` is the number of columns in front of all lines but the first.
-/
def plainFrom (inFlow : Bool) (level : Nat) (reversed : List Char) (gap : Gap) (p : Position) :
    List Char → Option Scanned
  | [] => some ⟨reversed.reverse, gap.endsLine, p, []⟩
  | '\r' :: '\n' :: cs => plainFrom inFlow level reversed (gap.addBreak '\n') (p.nextLine 2) cs
  | c :: cs =>
    if isBreak c then
      plainFrom inFlow level reversed (gap.addBreak (breakText c)) (p.nextLine 1) cs
    else if isBlank c then
      if c == '\t' && gap.endsLine && p.column < level then none
      else plainFrom inFlow level reversed (gap.addBlank c) p.next cs
    else if endsAfterGap inFlow level gap p (c :: cs) then
      some ⟨reversed.reverse, gap.endsLine, p, c :: cs⟩
    else if inFlow && c == ':' && (startsWithFlowMark cs || cs.head? == some '?') then none
    else if endsAtMark inFlow (c :: cs) then
      some ⟨reversed.reverse, gap.endsLine, p, c :: cs⟩
    else plainFrom inFlow level (c :: (gap.text.reverse ++ reversed)) .nothing p.next cs

/-- Whether a text starts an unquoted scalar. -/
def startsPlain (inFlow : Bool) : List Char → Bool
  | [] => false
  | '-' :: cs => !endsWord cs
  | c :: cs =>
    if c == '?' || c == ':' then !inFlow && !endsWord cs
    else !(isBlank c || isBreak c || "-?:,[]\x7b\x7d#&*!|>'\"%@".toList.contains c || c == Char.ofNat 0x60)

/-! ### Quoted scalars -/

/-- The character of an escape without digits. -/
def simpleEscape? : Char → Option Char
  | '0' => some (Char.ofNat 0)
  | 'a' => some (Char.ofNat 7)
  | 'b' => some (Char.ofNat 8)
  | 't' | '\t' => some '\t'
  | 'n' => some '\n'
  | 'v' => some (Char.ofNat 11)
  | 'f' => some (Char.ofNat 12)
  | 'r' => some '\r'
  | 'e' => some (Char.ofNat 27)
  | ' ' => some ' '
  | '"' => some '"'
  | '/' => some '/'
  | '\\' => some '\\'
  | 'N' => some '\u0085'
  | '_' => some '\u00a0'
  | 'L' => some '\u2028'
  | 'P' => some '\u2029'
  | _ => none

/-- The number of digits after the mark of an escape. -/
def escapeDigits : Char → Nat
  | 'x' => 2
  | 'u' => 4
  | 'U' => 8
  | _ => 0

/-- The character with a number in hexadecimal digits. -/
def numbered? (digits : List Char) : Option Char := do
  let n ← digits.foldlM (fun n c => (Text.hexValue? c).map (16 * n + ·)) 0
  if n.isValidChar then some (Char.ofNat n) else none

/-- The character of an escape after its backslash, and the number of characters of the escape. -/
def escape? : List Char → Option (Char × Nat)
  | [] => none
  | c :: cs =>
    match escapeDigits c with
    | 0 => (simpleEscape? c).map (·, 1)
    | n =>
      if cs.length < n then none
      else (numbered? (cs.take n)).map (·, n + 1)

/-- Read the rest of a scalar in single quotes. -/
def singleFrom (reversed : List Char) (gap : Gap) (p : Position) : List Char → Option Scanned
  | [] => none
  | '\r' :: '\n' :: cs => singleFrom reversed (gap.addBreak '\n') (p.nextLine 2) cs
  | '\'' :: '\'' :: cs =>
    singleFrom ('\'' :: (gap.text.reverse ++ reversed)) .nothing (p.advance 2) cs
  | c :: cs =>
    if isBreak c then singleFrom reversed (gap.addBreak (breakText c)) (p.nextLine 1) cs
    else if isBlank c then singleFrom reversed (gap.addBlank c) p.next cs
    else if p.column == 0 && (startsDocument (c :: cs) || endsDocument (c :: cs)) then none
    else if c == '\'' then some ⟨reversed.reverse ++ gap.text, false, p.next, cs⟩
    else singleFrom (c :: (gap.text.reverse ++ reversed)) .nothing p.next cs

/-- Read the rest of a scalar in double quotes. -/
def doubleFrom (reversed : List Char) (gap : Gap) (p : Position) : List Char → Option Scanned
  | [] => none
  | '\r' :: '\n' :: cs => doubleFrom reversed (gap.addBreak '\n') (p.nextLine 2) cs
  | '\\' :: '\r' :: '\n' :: cs =>
    doubleFrom (gap.text.reverse ++ reversed) (.breaks none []) (p.next.nextLine 2) cs
  | c :: cs =>
    if isBreak c then doubleFrom reversed (gap.addBreak (breakText c)) (p.nextLine 1) cs
    else if isBlank c then doubleFrom reversed (gap.addBlank c) p.next cs
    else if p.column == 0 && (startsDocument (c :: cs) || endsDocument (c :: cs)) then none
    else if c == '"' then some ⟨reversed.reverse ++ gap.text, false, p.next, cs⟩
    else if c == '\\' then
      if cs.head?.any isBreak then
        doubleFrom (gap.text.reverse ++ reversed) (.breaks none []) (p.next.nextLine 1) (cs.drop 1)
      else
        match escape? cs with
        | none => none
        | some (e, n) =>
          doubleFrom (e :: (gap.text.reverse ++ reversed)) .nothing (p.advance (n + 1)) (cs.drop n)
    else doubleFrom (c :: (gap.text.reverse ++ reversed)) .nothing p.next cs
termination_by cs => cs.length
decreasing_by
  all_goals
    simp only [List.length_drop, List.length_cons]
    omega

/-! ### Block scalars -/

/-- What becomes of the line ends at the end of a block scalar. -/
inductive Chomping where
  | strip
  | clip
  | keep
deriving DecidableEq, Repr

/-- What is said after the mark of a block scalar. -/
structure BlockHeader where
  chomping : Chomping
  /-- The number of columns by which lines are indented, if it is given. -/
  indentation : Option Nat

/-- The chomping that a character asks for. -/
def chomping? : Char → Option Chomping
  | '+' => some .keep
  | '-' => some .strip
  | _ => none

/-- Read a header, in characters; none if the indentation is zero. -/
def blockHeader? : List Char → Option (BlockHeader × Nat)
  | [] => some (⟨.clip, none⟩, 0)
  | c :: cs =>
    let digit (d : Char) : Option Nat := if d == '0' then none else some (d.toNat - 0x30)
    match chomping? c with
    | some chomping =>
      match cs with
      | d :: _ =>
        if d.isDigit then (digit d).map fun n => (⟨chomping, some n⟩, 2)
        else some (⟨chomping, none⟩, 1)
      | [] => some (⟨chomping, none⟩, 1)
    | none =>
      if c.isDigit then
        (digit c).map fun n =>
          match cs.head?.bind chomping? with
          | some chomping => (⟨chomping, some n⟩, 2)
          | none => (⟨.clip, some n⟩, 1)
      else some (⟨.clip, none⟩, 0)

/-- Blank lines in front of a line of a block scalar. -/
structure BlankLines where
  /-- The largest column that is reached. -/
  widest : Nat
  breaks : List Char
  position : Position
  rest : List Char

/--
Skip blank lines and the indentation of the line after them, which goes up to a limit if
there is one.  A tab in the indentation is refused.
-/
def blankLinesFrom (limit : Option Nat) (widest : Nat) (reversed : List Char) (p : Position) :
    List Char → Option BlankLines
  | [] => some ⟨max widest p.column, reversed.reverse, p, []⟩
  | '\r' :: '\n' :: cs =>
    blankLinesFrom limit (max widest p.column) ('\n' :: reversed) (p.nextLine 2) cs
  | c :: cs =>
    let inside := limit.all (p.column < ·)
    if c == ' ' && inside then blankLinesFrom limit widest reversed p.next cs
    else if c == '\t' && inside then none
    else if isBreak c then
      blankLinesFrom limit (max widest p.column) (breakText c :: reversed) (p.nextLine 1) cs
    else some ⟨max widest p.column, reversed.reverse, p, c :: cs⟩

/-- The lines of a block scalar read so far. -/
structure BlockText where
  /-- What is read, the last piece first. -/
  pieces : List (List Char)
  /-- The end of the last line. -/
  lineEnd : List Char
  /-- Whether the last line starts with a blank. -/
  indented : Bool
  /-- The ends of the blank lines after it. -/
  blankLines : List Char

namespace BlockText

/-- What stands between the last line and the next one. -/
def joint (b : BlockText) (literal nextIndented : Bool) : List Char :=
  if !literal && b.lineEnd == ['\n'] && !b.indented && !nextIndented then
    if b.blankLines.isEmpty then [' '] else b.blankLines
  else b.lineEnd ++ b.blankLines

/-- The whole text. -/
def text (b : BlockText) (chomping : Chomping) : List Char :=
  let ending := match chomping with
    | .strip => []
    | .clip => b.lineEnd
    | .keep => b.lineEnd ++ b.blankLines
  (ending :: b.pieces).reverse.flatten

end BlockText

/-- Read at most `n` lines that are indented by a number of columns. -/
def blockLines (literal : Bool) (indentation : Nat) :
    Nat → BlockText → Position → List Char → Option (BlockText × Position × List Char)
  | 0, _, _, _ => none
  | n + 1, b, p, cs =>
    if p.column != indentation || cs.isEmpty then some (b, p, cs)
    else do
      let indented := cs.head?.any isBlank
      let line := cs.takeWhile (!isBreak ·)
      let (lineEnd, p, rest) := readBreak (p.advance line.length) (cs.drop line.length)
      let blank ← blankLinesFrom (some indentation) 0 [] p rest
      blockLines literal indentation n
        ⟨line :: b.joint literal indented :: b.pieces, lineEnd, indented, blank.breaks⟩
        blank.position blank.rest

/--
Read a block scalar after its mark.  `level` is the number of columns that lines have to
be indented by at least; a given indentation counts from the column before.
-/
def blockFrom (literal : Bool) (level : Nat) (p : Position) (cs : List Char) : Option Scanned := do
  let (header, n) ← blockHeader? cs
  let (p, rest) := skipBlanks (p.advance n) (cs.drop n)
  let (p, rest) := if rest.head? == some '#' then skipLine p rest else (p, rest)
  if !rest.head?.all isBreak then none
  let (_, p, rest) := readBreak p rest
  let given := header.indentation.map (level - 1 + ·)
  let blank ← blankLinesFrom given 0 [] p rest
  let indentation := given.getD (max blank.widest (max level 1))
  let (b, p, rest) ← blockLines literal indentation (rest.length + 1)
    ⟨[], [], false, blank.breaks⟩ blank.position blank.rest
  return ⟨b.text header.chomping, false, p, rest⟩

end Yaml
end ContentModels

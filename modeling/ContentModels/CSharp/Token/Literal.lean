import ContentModels.CSharp.Diagnostic
import ContentModels.CSharp.Token
import ContentModels.Text.Blank

/-!
# String and character literals

Reading of the literal that starts a list of characters.  A reader returns the
value of the literal and the number of characters it takes.

A string literal may be verbatim (a quote is written twice and nothing else is
escaped), interpolated (braces open holes, whose text is kept as it stands, and a
brace is written twice), or raw (between runs of at least three quotes, with the
blanks at both ends dropped).
-/

namespace ContentModels
namespace CSharp
namespace Literal

/-- A value of type `α` and the number of characters it was read from, or the fault met. -/
abbrev Reading (α : Type) := Except Fault (α × Nat)

/-- Put a character, read from `size` characters, in front of what was read after it. -/
def push (c : Char) (size : Nat) (r : Reading (List Char)) : Reading (List Char) :=
  r.map fun (value, n) => (c :: value, n + size)

/-- The character that follows a backslash, decoded. -/
def decodeEscape (c : Char) : Char :=
  if c = 'n' then '\n'
  else if c = 't' then '\t'
  else if c = 'r' then '\r'
  else if c = '0' then Char.ofNat 0
  else c

/-- The rest of a character literal after its opening quote. -/
def readCharacter : List Char → Reading (List Char)
  | [] => .error .characterTooLong
  | c :: cs =>
    if c = '\n' then .error .characterTooLong
    else if c = '\\' then
      match cs with
      | [] => .error .newlineInConstant
      | e :: cs => push (decodeEscape e) 2 (readCharacter cs)
    else if c = '\'' then .ok ([], 1)
    else push c 1 (readCharacter cs)

/-- The forms of a string literal that is not raw. -/
structure Form where
  interpolated : Bool
  verbatim : Bool
deriving DecidableEq, Repr

/-- Where a reader stands inside a string literal. -/
inductive Place where
  /-- In the literal itself. -/
  | text
  /-- In a hole, inside that many further braces. -/
  | hole (depth : Nat)
  /-- In a plain string inside a hole. -/
  | quoted (depth : Nat)
deriving DecidableEq, Repr

/-- The rest of a string literal after its opening quote. -/
def readString (form : Form) : Place → List Char → Reading (List Char)
  | .text, [] => .error .unterminatedString
  | .hole _, [] => .error .missingHoleEnd
  | .quoted _, [] => .error .unterminatedString
  | .text, c :: cs =>
    if c = '"' then
      match form.verbatim, cs with
      | true, '"' :: cs => push '"' 2 (readString form .text cs)
      | _, _ => .ok ([], 1)
    else if c = '\n' ∧ form.verbatim = false then .error .newlineInConstant
    else if c = '\\' ∧ form.verbatim = false then
      match cs with
      | [] => .error .newlineInConstant
      | e :: cs => push (decodeEscape e) 2 (readString form .text cs)
    else if c = '\x7b' ∧ form.interpolated = true then
      match cs with
      | '\x7b' :: cs => push '\x7b' 2 (readString form .text cs)
      | cs => push '\x7b' 1 (readString form (.hole 0) cs)
    else if c = '\x7d' ∧ form.interpolated = true then
      match cs with
      | '\x7d' :: cs => push '\x7d' 2 (readString form .text cs)
      | cs => push '\x7d' 1 (readString form .text cs)
    else push c 1 (readString form .text cs)
  | .hole depth, c :: cs =>
    if c = '\x7b' then push c 1 (readString form (.hole (depth + 1)) cs)
    else if c = '\x7d' then
      match depth with
      | 0 => push c 1 (readString form .text cs)
      | depth + 1 => push c 1 (readString form (.hole depth) cs)
    else if c = '"' then push c 1 (readString form (.quoted depth) cs)
    else push c 1 (readString form (.hole depth) cs)
  | .quoted depth, c :: cs =>
    if c = '\\' then
      match cs with
      | [] => .error .unterminatedString
      | e :: cs => push c 1 (push e 1 (readString form (.quoted depth) cs))
    else if c = '"' then push c 1 (readString form (.hole depth) cs)
    else push c 1 (readString form (.quoted depth) cs)

/-- The rest of a raw string literal after its opening quotes, up to the first equal run of quotes. -/
def readRaw (quotes : List Char) : List Char → Reading (List Char)
  | [] => .error .unterminatedRawString
  | c :: cs =>
    if quotes.isPrefixOf (c :: cs) then .ok ([], quotes.length)
    else push c 1 (readRaw quotes cs)

/--
The marks in front of the opening quote of a string literal, and their number: any
number of dollar signs and at most one at sign.
-/
def readMarks : Form → List Char → Option (Form × Nat)
  | _, [] => none
  | form, c :: cs =>
    if c = '"' then some (form, 0)
    else if c = '$' then
      (readMarks { form with interpolated := true } cs).map fun (f, n) => (f, n + 1)
    else if c = '@' ∧ form.verbatim = false then
      (readMarks { form with verbatim := true } cs).map fun (f, n) => (f, n + 1)
    else none

/-- The string literal of a form whose opening quote starts the list. -/
def readQuoted (form : Form) (cs : List Char) : Reading TokenKind :=
  let quotes := cs.takeWhile (· == '"')
  if 3 ≤ quotes.length ∧ form.verbatim = false then
    (readRaw quotes (cs.drop quotes.length)).map fun (value, n) =>
      (.str (String.ofList (Text.trimChars value)) form.interpolated true, n + quotes.length)
  else
    (readString form .text (cs.drop 1)).map fun (value, n) =>
      (.str (String.ofList value) form.interpolated false, n + 1)

/-- The string literal that starts the list, when one does. -/
def string? (cs : List Char) : Option (Reading TokenKind) :=
  (readMarks ⟨false, false⟩ cs).map fun (form, marks) =>
    (readQuoted form (cs.drop marks)).map fun (kind, n) => (kind, n + marks)

/-- The character literal whose opening quote stands before the list. -/
def character (cs : List Char) : Reading TokenKind :=
  match readCharacter cs with
  | .error fault => .error fault
  | .ok ([], _) => .error .emptyCharacter
  | .ok (value, n) => .ok (.character (String.ofList value), n + 1)

end Literal
end CSharp
end ContentModels

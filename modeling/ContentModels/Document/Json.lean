import ContentModels.Document
import ContentModels.Failure
import ContentModels.Text.Hex

/-!
# JSON

Reading of JSON text, and writing with an indentation of two spaces.
-/

namespace ContentModels
namespace Json

/-- A blank of the format. -/
def isSpace (c : Char) : Bool :=
  c == ' ' || c == '\n' || c == '\t' || c == '\r'

/-- Drop blanks. -/
def skipSpace (cs : List Char) : List Char :=
  cs.dropWhile isSpace

/-! ### Texts -/

/-- The code unit of four hexadecimal digits. -/
def codeUnit : List Char → Option (Nat × List Char)
  | a :: b :: c :: d :: cs => do
    let a ← Text.hexValue? a
    let b ← Text.hexValue? b
    let c ← Text.hexValue? c
    let d ← Text.hexValue? d
    return (((a * 16 + b) * 16 + c) * 16 + d, cs)
  | _ => none

/-- The first half of a pair of code units. -/
def isHighHalf (n : Nat) : Bool := 0xd800 ≤ n && n < 0xdc00

/-- The second half of a pair of code units. -/
def isLowHalf (n : Nat) : Bool := 0xdc00 ≤ n && n < 0xe000

/-- The character of an escape by code unit, after its mark; none if the code units form none. -/
def unicodeEscape (cs : List Char) : Option (Option Char × List Char) := do
  let (n, rest) ← codeUnit cs
  if isHighHalf n then
    match rest with
    | '\\' :: 'u' :: rest' =>
      let (m, rest'') ← codeUnit rest'
      if isLowHalf m then
        return (some (Char.ofNat (0x10000 + (n - 0xd800) * 0x400 + (m - 0xdc00))), rest'')
      return (none, rest'')
    | _ => return (none, rest)
  else if isLowHalf n then return (none, rest)
  else return (some (Char.ofNat n), rest)

/-- The character of an escape after the backslash. -/
def escape : List Char → Option (Option Char × List Char)
  | '"' :: cs => some (some '"', cs)
  | '\\' :: cs => some (some '\\', cs)
  | '/' :: cs => some (some '/', cs)
  | 'b' :: cs => some (some (Char.ofNat 8), cs)
  | 'f' :: cs => some (some (Char.ofNat 12), cs)
  | 'n' :: cs => some (some '\n', cs)
  | 'r' :: cs => some (some '\r', cs)
  | 't' :: cs => some (some '\t', cs)
  | 'u' :: cs => unicodeEscape cs
  | _ => none

/-- The rest of a text after its opening quote, in at most `n` characters and escapes. -/
def textRest : Nat → List Char → Option (Option (List Char) × List Char)
  | 0, _ => none
  | _, [] => none
  | n + 1, c :: cs =>
    if c = '"' then some (some [], cs)
    else if c = '\\' then do
      let (e, cs) ← escape cs
      let (s, rest) ← textRest n cs
      return ((do return (← e) :: (← s)), rest)
    else if c.toNat < 0x20 then none
    else do
      let (s, rest) ← textRest n cs
      return (s.map (c :: ·), rest)

/-- A text after its opening quote. -/
def text (cs : List Char) : Option (Node × List Char) :=
  (textRest (cs.length + 1) cs).map fun (s, rest) =>
    (match s with
      | some s => .text (String.ofList s)
      | none => .brokenText, rest)

/-! ### Numbers -/

/-- The digits at the head of a text, at least one. -/
def digits (cs : List Char) : Option (List Char × List Char) :=
  let ds := cs.takeWhile Char.isDigit
  if ds.isEmpty then none else some (ds, cs.dropWhile Char.isDigit)

/-- The fraction of a number, if it has one; whether it has one. -/
def fraction : List Char → Option (Bool × List Char)
  | '.' :: cs => (digits cs).map fun (_, rest) => (true, rest)
  | cs => some (false, cs)

/-- The exponent of a number, if it has one; whether it has one. -/
def exponent : List Char → Option (Bool × List Char)
  | c :: cs =>
    if c = 'e' ∨ c = 'E' then
      let unsigned := match cs with
        | '+' :: r => r
        | '-' :: r => r
        | r => r
      (digits unsigned).map fun (_, rest) => (true, rest)
    else some (false, c :: cs)
  | [] => some (false, [])

/-- A number without its sign. -/
def unsignedNumber (negative : Bool) (cs : List Char) : Option (Node × List Char) := do
  let (whole, rest) ← digits cs
  if whole.length ≠ 1 && whole.head? == some '0' then none
  else
    let (hasFraction, rest) ← fraction rest
    let (hasExponent, rest) ← exponent rest
    let n : Nat := whole.foldl (fun n c => 10 * n + (c.toNat - 0x30)) 0
    if hasFraction || hasExponent || (negative && n == 0) then return (.real, rest)
    return (.integer (if negative then -(n : Int) else (n : Int)), rest)

/-- A number. -/
def number : List Char → Option (Node × List Char)
  | '-' :: cs => unsignedNumber true cs
  | cs => unsignedNumber false cs

/-! ### Values -/

/-- Read a word. -/
def word (w : String) (value : Node) (cs : List Char) : Option (Node × List Char) :=
  if w.toList.isPrefixOf cs then some (value, cs.drop w.length) else none

/-- At most `n` items separated by commas, up to a closing mark. -/
def items {α : Type} (item : List Char → Option (α × List Char)) (closing : Char) :
    Nat → List Char → Option (List α × List Char)
  | 0, _ => none
  | n + 1, cs => do
    let (a, rest) ← item cs
    match skipSpace rest with
    | [] => none
    | c :: rest =>
      if c = closing then return ([a], rest)
      else if c = ',' then
        let (as, rest) ← items item closing n rest
        return (a :: as, rest)
      else none

/-- At most `limit` items up to a closing mark, or none at all. -/
def group {α : Type}
    (limit : Nat) (item : List Char → Option (α × List Char)) (closing : Char)
    (cs : List Char) :
    Option (List α × List Char) :=
  match skipSpace cs with
  | [] => none
  | c :: rest => if c = closing then some ([], rest) else items item closing limit cs

/-- An entry of an object. -/
def entry (value : List Char → Option (Node × List Char)) (cs : List Char) :
    Option ((Node × Node) × List Char) :=
  match skipSpace cs with
  | '"' :: cs => do
    let (key, rest) ← text cs
    match skipSpace rest with
    | ':' :: rest =>
      let (v, rest) ← value rest
      return ((key, v), rest)
    | _ => none
  | _ => none

/-- A value in which lists and objects hold at most `limit` items and nest at most that deep. -/
def value (limit : Nat) : Nat → List Char → Option (Node × List Char)
  | depth, cs =>
    match skipSpace cs with
    | [] => none
    | c :: rest =>
      if c = '"' then text rest
      else if c = '[' then
        match depth with
        | 0 => none
        | depth + 1 => (group limit (value limit depth) ']' rest).map fun (l, r) => (.list l true, r)
      else if c = '\x7b' then
        match depth with
        | 0 => none
        | depth + 1 =>
          (group limit (entry (value limit depth)) '\x7d' rest).map fun (l, r) => (.object l, r)
      else if c = 'n' then word "null" .null (c :: rest)
      else if c = 't' then word "true" (.bool true) (c :: rest)
      else if c = 'f' then word "false" (.bool false) (c :: rest)
      else number (c :: rest)

/-- The value of a whole document; its number of characters bounds how much is in it. -/
def parse (source : String) : Outcome Node :=
  match value source.length source.length source.toList with
  | some (node, rest) =>
    if (skipSpace rest).isEmpty then .ok node else .error .malformedDocument
  | none => .error .malformedDocument

/-! ### Writing -/

/-- A hexadecimal digit. -/
def hexDigit (n : Nat) : Char :=
  Nat.digitChar n

/-- The written form of a character inside a text. -/
def encodeChar (c : Char) : List Char :=
  if c = '"' then ['\\', '"']
  else if c = '\\' then ['\\', '\\']
  else if c = '\n' then ['\\', 'n']
  else if c = '\r' then ['\\', 'r']
  else if c = '\t' then ['\\', 't']
  else if c.toNat = 8 then ['\\', 'b']
  else if c.toNat = 12 then ['\\', 'f']
  else if c.toNat < 0x20 then
    ['\\', 'u', '0', '0', hexDigit (c.toNat / 16), hexDigit (c.toNat % 16)]
  else [c]

/-- The written form of a text. -/
def encodeText (s : String) : String :=
  String.ofList ('"' :: s.toList.flatMap encodeChar ++ ['"'])

/-- A line break and the indentation of a depth. -/
def lineBreak (depth : Nat) : String :=
  String.ofList ('\n' :: List.replicate (2 * depth) ' ')

mutual

/-- The written form of a value at a depth. -/
def write (depth : Nat) : Node → String
  | .null => "null"
  | .bool b => if b then "true" else "false"
  | .integer i => toString i
  | .real => "0.0"
  | .text s => encodeText s
  | .brokenText => encodeText ""
  | .plain s => encodeText s
  | .tagged _ v => write depth v
  | .list [] _ => "[]"
  | .list (v :: vs) _ =>
    "[" ++ lineBreak (depth + 1) ++ write (depth + 1) v ++ writeItems (depth + 1) vs ++
      lineBreak depth ++ "]"
  | .object [] => "\x7b\x7d"
  | .object ((k, v) :: es) =>
    "\x7b" ++ lineBreak (depth + 1) ++ write (depth + 1) k ++ ": " ++ write (depth + 1) v ++
      writeEntries (depth + 1) es ++ lineBreak depth ++ "\x7d"

/-- Further items of a list. -/
def writeItems (depth : Nat) : List Node → String
  | [] => ""
  | v :: vs => "," ++ lineBreak depth ++ write depth v ++ writeItems depth vs

/-- Further entries of an object. -/
def writeEntries (depth : Nat) : List (Node × Node) → String
  | [] => ""
  | (k, v) :: es =>
    "," ++ lineBreak depth ++ write depth k ++ ": " ++ write depth v ++ writeEntries depth es

end

/-- The written form of a document. -/
def pretty (n : Node) : String :=
  write 0 n

end Json
end ContentModels

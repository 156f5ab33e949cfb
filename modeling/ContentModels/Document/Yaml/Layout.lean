import ContentModels.Document.Yaml.Token

/-!
# The layout of YAML text

Blocks start where text is indented further than before and end where it is indented
less.  That a scalar or a bracket is a key only shows at the colon behind it, so its
place is kept until then: a key is in one line and at most 1024 characters in front of
its colon.  What such a colon adds in front of its key is filed in the slot of the
key's first token.
-/

namespace ContentModels
namespace Yaml

/-- A place that a key may start at. -/
structure Candidate where
  /-- The slot of the first token. -/
  slot : Nat
  position : Position
  /-- Whether nothing but a key can stand there. -/
  required : Bool
deriving DecidableEq, Repr

/-- What has been read of a document. -/
structure Layout where
  position : Position
  rest : List Char
  /-- The tokens read, each with those that are implied in front of it. -/
  slots : Array (List Token)
  /-- The least column at which a further block can start within the current one. -/
  level : Nat
  /-- The levels of the enclosing blocks. -/
  levels : List Nat
  /-- Where the next colon may find its key. -/
  key : Option Candidate
  /-- The same for the enclosing brackets and, at the end, for blocks. -/
  outerKeys : List (Option Candidate)
  /-- Whether a key may start here. -/
  keyAllowed : Bool

namespace Layout

/-- The layout of a text of which nothing has been read. -/
def ofText (text : List Char) : Layout where
  position := .start
  rest := text
  slots := #[]
  level := 0
  levels := []
  key := none
  outerKeys := []
  keyAllowed := true

/-- Whether the text is within brackets. -/
def inFlow (l : Layout) : Bool :=
  !l.outerKeys.isEmpty

/-- Add a token. -/
def push (l : Layout) (t : Token) : Layout :=
  { l with slots := l.slots.push [t] }

/-- Go on from a place. -/
def goOn (l : Layout) (p : Position) (cs : List Char) : Layout :=
  { l with position := p, rest := cs }

/-- Skip characters of a line. -/
def skip (l : Layout) (n : Nat) : Layout :=
  l.goOn (l.position.advance n) (l.rest.drop n)

/-- Say whether a key may start after what has just been read. -/
def allowKey (l : Layout) (allowed : Bool) : Layout :=
  { l with keyAllowed := allowed }

/-! ### Keys -/

/-- Whether a key that starts at a place can no longer end at another one. -/
def isStale (p : Position) (c : Candidate) : Bool :=
  c.position.line < p.line || c.position.index + 1024 < p.index

/-- Forget a candidate that is stale; none if it had to be a key. -/
def dropStale (p : Position) : Option Candidate → Option (Option Candidate)
  | none => some none
  | some c => if isStale p c then (if c.required then none else some none) else some (some c)

/-- Forget all stale candidates. -/
def dropStaleKeys (l : Layout) : Option Layout := do
  let key ← dropStale l.position l.key
  let outerKeys ← l.outerKeys.mapM (dropStale l.position)
  return { l with key, outerKeys }

/-- Forget the current candidate; none if it had to be a key. -/
def dropKey (l : Layout) : Option Layout :=
  if l.key.any (·.required) then none else some { l with key := none }

/-- Keep the place of the next token, if a key may start there. -/
def saveKey (l : Layout) : Option Layout :=
  if l.keyAllowed then do
    let l ← l.dropKey
    return { l with
      key := some {
        slot := l.slots.size
        position := l.position
        required := !l.inFlow && l.level == l.position.column + 1 } }
  else some l

/-! ### Blocks -/

/-- Whether a block starts at a column. -/
def opensBlock (l : Layout) (column : Nat) : Bool :=
  !l.inFlow && l.level ≤ column

/-- Start a block at a column. -/
def openBlock (l : Layout) (column : Nat) : Layout :=
  { l with level := column + 1, levels := l.level :: l.levels }

/-- Start a block here, if one starts. -/
def openBlockHere (l : Layout) (start : Token) : Layout :=
  if l.opensBlock l.position.column then (l.push start).openBlock l.position.column else l

/-- End the blocks that start behind a level. -/
def closeTo (level : Nat) (l : Layout) : List Nat → Layout
  | [] => l
  | outer :: levels =>
    if l.level ≤ level then l
    else closeTo level { l.push .blockEnd with level := outer, levels } levels

/-- End the blocks that start behind a level; brackets hold no blocks. -/
def closeBlocks (l : Layout) (level : Nat) : Layout :=
  if l.inFlow then l else closeTo level l l.levels

/-! ### What stands at the head of the text -/

/--
Skip blanks, comments and line ends; whether a key may start after them.  A byte order mark
at the start of a line is skipped too, and takes a column.
-/
def skipGap (inFlow : Bool) (inComment keyAllowed : Bool) (p : Position) :
    List Char → Bool × Position × List Char
  | [] => (keyAllowed, p, [])
  | '\r' :: '\n' :: cs => skipGap inFlow false (keyAllowed || !inFlow) (p.nextLine 2) cs
  | c :: cs =>
    if isBreak c then skipGap inFlow false (keyAllowed || !inFlow) (p.nextLine 1) cs
    else if inComment || c == ' ' || (c == '\t' && (inFlow || !keyAllowed)) ||
        (c == '\ufeff' && p.column == 0) then
      skipGap inFlow inComment keyAllowed p.next cs
    else if c == '#' then skipGap inFlow true keyAllowed p.next cs
    else (keyAllowed, p, c :: cs)

/-- Go on to the next token, and end the blocks that end in front of it. -/
def seek (l : Layout) : Option Layout := do
  let (keyAllowed, p, cs) := skipGap l.inFlow false l.keyAllowed l.position l.rest
  let l ← dropStaleKeys { l with keyAllowed, position := p, rest := cs }
  return l.closeBlocks (l.position.column + 1)

/-- Read the mark of a document. -/
def document (l : Layout) (t : Token) : Option Layout := do
  let l ← (l.closeBlocks 0).dropKey
  return (l.push t).allowKey false |>.skip 3

/-- Read a directive. -/
def directive (l : Layout) : Option Layout := do
  let l ← (l.closeBlocks 0).dropKey
  let r ← readDirective l.position.next (l.rest.drop 1)
  return (l.push r.value).allowKey false |>.goOn r.position r.rest

/-- Read an opening bracket. -/
def opening (l : Layout) (t : Token) : Option Layout := do
  let l ← l.saveKey
  return ({ l.push t with key := none, outerKeys := l.key :: l.outerKeys }.allowKey true).skip 1

/-- Read a closing bracket. -/
def closing (l : Layout) (t : Token) : Option Layout := do
  let l ← l.dropKey
  let l := match l.outerKeys with
    | [] => l
    | key :: outerKeys => { l with key, outerKeys }
  return ((l.push t).allowKey false).skip 1

/-- Read a comma. -/
def comma (l : Layout) : Option Layout := do
  let l ← l.dropKey
  return ((l.push .flowEntry).allowKey true).skip 1

/-- Read the mark of an entry of a sequence. -/
def dash (l : Layout) : Option Layout := do
  if !l.inFlow && !l.keyAllowed then none
  let l ← (l.openBlockHere .sequenceStart).dropKey
  return ((l.push .blockEntry).allowKey true).skip 1

/-- Read the mark of a key. -/
def question (l : Layout) : Option Layout := do
  if !l.inFlow && !l.keyAllowed then none
  let l ← (l.openBlockHere .mappingStart).dropKey
  return ((l.push .key).allowKey !l.inFlow).skip 1

/-- Read the mark of a value. -/
def colon (l : Layout) : Option Layout := do
  match l.key with
  | some c =>
    let column := c.position.column
    let implied := (if l.opensBlock column then [.mappingStart] else []) ++ [.key]
    let l := { l with slots := l.slots.modify c.slot (implied ++ ·), key := none }
    let l := if l.opensBlock column then l.openBlock column else l
    return ((l.push .value).allowKey false).skip 1
  | none =>
    if !l.inFlow && !l.keyAllowed then none
    let l := l.openBlockHere .mappingStart
    return ((l.push .value).allowKey !l.inFlow).skip 1

/-- Read a name after a mark. -/
def name (l : Layout) (token : String → Token) : Option Layout := do
  let l ← l.saveKey
  let r ← readName l.position.next (l.rest.drop 1)
  return ((l.push (token r.value)).allowKey false).goOn r.position r.rest

/-- Read a tag. -/
def tag (l : Layout) : Option Layout := do
  let l ← l.saveKey
  let r ← readTag l.inFlow l.position.next (l.rest.drop 1)
  return ((l.push (.tag r.value.1 r.value.2)).allowKey false).goOn r.position r.rest

/-- Read a block scalar. -/
def block (l : Layout) (literal : Bool) : Option Layout := do
  let l ← l.dropKey
  let s ← blockFrom literal l.level l.position.next (l.rest.drop 1)
  let text := String.ofList s.text
  return ((l.push (if literal then .lines text else .text text)).allowKey true).goOn
    s.position s.rest

/-- Read a quoted scalar. -/
def quoted (l : Layout) (double : Bool) : Option Layout := do
  let l ← l.saveKey
  let read := if double then doubleFrom else singleFrom
  let s ← read [] .nothing l.position.next (l.rest.drop 1)
  return ((l.push (.text (String.ofList s.text))).allowKey false).goOn s.position s.rest

/-- Read an unquoted scalar. -/
def plain (l : Layout) : Option Layout := do
  let l ← l.saveKey
  let s ← plainFrom l.inFlow l.level [] .nothing l.position l.rest
  return ((l.push (.plain (String.ofList s.text))).allowKey s.endsLine).goOn s.position s.rest

/-- Read the token at the head of the text. -/
def token (l : Layout) (c : Char) (cs : List Char) : Option Layout :=
  if l.position.column == 0 && c == '%' then l.directive
  else if l.position.column == 0 && startsDocument (c :: cs) then l.document .documentStart
  else if l.position.column == 0 && endsDocument (c :: cs) then l.document .documentEnd
  else if c == '[' then l.opening .flowSequenceStart
  else if c == '\x7b' then l.opening .flowMappingStart
  else if c == ']' then l.closing .flowSequenceEnd
  else if c == '\x7d' then l.closing .flowMappingEnd
  else if c == ',' then l.comma
  else if c == '-' && endsWord cs then l.dash
  else if c == '?' && (l.inFlow || endsWord cs) then l.question
  else if c == ':' && (l.inFlow || endsWord cs) then l.colon
  else if c == '*' then l.name .aliasOf
  else if c == '&' then l.name .anchor
  else if c == '!' then l.tag
  else if c == '|' && !l.inFlow then l.block true
  else if c == '>' && !l.inFlow then l.block false
  else if c == '\'' then l.quoted false
  else if c == '"' then l.quoted true
  else if startsPlain l.inFlow (c :: cs) then l.plain
  else none

/-- Read at most `n` tokens. -/
def readTokens : Nat → Layout → Option Layout
  | 0, _ => none
  | n + 1, l => do
    let l ← l.seek
    match l.rest with
    | [] => (l.closeBlocks 0).dropKey
    | c :: cs => readTokens n (← l.token c cs)

end Layout

/-- The tokens of a text, each of which takes at least one character. -/
def tokens? (cs : List Char) : Option (List Token) :=
  (Layout.readTokens (cs.length + 1) (.ofText cs)).map fun l => l.slots.toList.flatten

end Yaml
end ContentModels

import ContentModels.Document.Yaml.Layout
import ContentModels.Document.Yaml.Tree
import ContentModels.Failure

/-!
# YAML

A text holds at most one document.  Lists are never read as records.
-/

namespace ContentModels
namespace Yaml

/-- What is left to read, and what has been named. -/
structure Remaining where
  tokens : List Token
  /-- The names of anchors with their numbers, the last one first. -/
  anchors : List (String × Nat)
  /-- What the handles of tags stand for. -/
  handles : List (String × String)

/-- A reader of tokens. -/
abbrev Read := StateT Remaining Option

namespace Read

/-- The next token. -/
def peek : Read (Option Token) :=
  return (← get).tokens.head?

/-- Drop the next token. -/
def skip : Read Unit :=
  modify fun r => { r with tokens := r.tokens.drop 1 }

/-- Drop the next token if it is a certain one. -/
def accept (t : Token) : Read Bool := do
  if (← peek) == some t then
    skip
    return true
  return false

/-- Drop the next token, which is a certain one. -/
def expect (t : Token) : Read Unit := do
  if !(← accept t) then failure

/-- Whether the next token is none of some. -/
def startsNode (ends : List Token) : Read Bool := do
  match ← peek with
  | none => return false
  | some t => return !ends.contains t

/-- A node that is not there. -/
def absent : Tree := .plain ""

/-- What a tag stands for. -/
def tagMeaning (handle rest : String) : Read String := do
  if handle.isEmpty then return rest
  match (← get).handles.lookup handle with
  | some meaning => return meaning ++ rest
  | none => failure

/-- The anchor and the tag in front of a node. -/
def properties : Read (Option String × Option String) := do
  match ← peek with
  | some (.anchor name) =>
    skip
    match ← peek with
    | some (.tag handle rest) =>
      skip
      return (some name, some (← tagMeaning handle rest))
    | _ => return (some name, none)
  | some (.tag handle rest) =>
    skip
    match ← peek with
    | some (.anchor name) =>
      skip
      return (some name, some (← tagMeaning handle rest))
    | _ => return (none, some (← tagMeaning handle rest))
  | _ => return (none, none)

/-- A node with a tag. -/
def withTag (tag : Option String) (t : Tree) : Tree :=
  match tag with
  | some tag => if tag.isEmpty then t else .tagged tag t
  | none => t

/--
The number of an anchor is the number of names before it; so is that of a name that is
used again, which therefore may share it with a later one.
-/
def declare (name : String) : Read Nat := do
  let number := (← get).anchors.length
  modify fun r =>
    { r with anchors := (name, number) :: r.anchors.filter (·.1 != name) }
  return number

/-- Read a scalar with a tag; the tag that names no kind means nothing in front of it. -/
def scalar (tag : Option String) (t : Tree) : Read Tree := do
  skip
  return if tag = some "!" then t else withTag tag t

/-- Read a node behind its anchor. -/
def behindAnchor (anchor : Option String) (read : Read Tree) : Read Tree := do
  match anchor with
  | none => read
  | some name =>
    let number ← declare name
    return .anchored number (← read)

/-- The tokens that end the value of an entry of a block mapping. -/
def mappingEnds : List Token := [.key, .value, .blockEnd]

/-- The tokens that end a key within braces. -/
def flowKeyEnds : List Token := [.value, .flowEntry, .flowMappingEnd]

/-- The tokens that end a key within brackets. -/
def pairEnds : List Token := [.value, .flowEntry, .flowSequenceEnd]

mutual

/--
Read a node.  Blocks only stand outside of brackets, and a sequence that is not indented
further than its key only stands behind a key.
-/
def node : Nat → Bool → Bool → Read Tree
  | 0, _, _ => failure
  | n + 1, blocks, bareSequence => do
    if let some (.aliasOf a) ← peek then
      skip
      match (← get).anchors.lookup a with
      | some number => return .aliasOf number
      | none => failure
    let (anchor, tag) ← properties
    behindAnchor anchor do
      let next ← peek
      if bareSequence && next == some .blockEntry then
        return withTag tag (.list (← bareEntries n))
      match next with
      | some (.plain s) => scalar tag (.plain s)
      | some (.text s) => scalar tag (.text s)
      | some (.lines s) => scalar tag (.lines s)
      | some .flowSequenceStart =>
        skip
        return withTag tag (.list (← flowItems n true))
      | some .flowMappingStart =>
        skip
        return withTag tag (.object (← flowEntries n true))
      | some .sequenceStart =>
        if !blocks then failure
        skip
        return withTag tag (.list (← blockItems n))
      | some .mappingStart =>
        if !blocks then failure
        skip
        return withTag tag (.object (← blockEntries n))
      | _ =>
        if anchor.isNone && tag.isNone then failure
        return withTag tag absent

/-- Read the entries of a block sequence. -/
def blockItems : Nat → Read (List Tree)
  | 0 => failure
  | n + 1 => do
    if ← accept .blockEntry then
      let item ← if ← startsNode [.blockEntry, .blockEnd] then node n true false
        else pure absent
      return item :: (← blockItems n)
    expect .blockEnd
    return []

/-- Read the entries of a sequence that is not indented. -/
def bareEntries : Nat → Read (List Tree)
  | 0 => failure
  | n + 1 => do
    if ← accept .blockEntry then
      let item ← if ← startsNode (.blockEntry :: mappingEnds) then node n true false
        else pure absent
      return item :: (← bareEntries n)
    return []

/-- Read the entries of a block mapping. -/
def blockEntries : Nat → Read (List (Tree × Tree))
  | 0 => failure
  | n + 1 => do
    match ← peek with
    | some .blockEnd =>
      skip
      return []
    | some .key =>
      skip
      let key ← if ← startsNode mappingEnds then node n true true else pure absent
      let value ← blockValue n
      return (key, value) :: (← blockEntries n)
    | _ => failure

/-- Read the value of an entry of a block mapping. -/
def blockValue : Nat → Read Tree
  | 0 => failure
  | n + 1 => do
    if ← accept .value then
      if ← startsNode mappingEnds then return ← node n true true
    return absent

/-- Read the items within brackets. -/
def flowItems : Nat → Bool → Read (List Tree)
  | 0, _ => failure
  | n + 1, first => do
    if ← accept .flowSequenceEnd then return []
    if !first then
      expect .flowEntry
      if ← accept .flowSequenceEnd then return []
    let item ← if ← accept .key then
        let key ← if ← startsNode pairEnds then node n false false
          else do
            skip
            pure absent
        pure (.object [(key, ← flowValue n pairEnds)])
      else node n false false
    return item :: (← flowItems n false)

/-- Read the entries within braces. -/
def flowEntries : Nat → Bool → Read (List (Tree × Tree))
  | 0, _ => failure
  | n + 1, first => do
    if ← accept .flowMappingEnd then return []
    if !first then
      expect .flowEntry
      if ← accept .flowMappingEnd then return []
    let entry ← if ← accept .key then
        let key ← if ← startsNode flowKeyEnds then node n false false else pure absent
        pure (key, ← flowValue n flowKeyEnds)
      else pure (← node n false false, absent)
    return entry :: (← flowEntries n false)

/-- Read the value behind a key within brackets or braces. -/
def flowValue : Nat → List Token → Read Tree
  | 0, _ => failure
  | n + 1, ends => do
    if ← accept .value then
      if ← startsNode (ends.erase .value) then return ← node n false false
    return absent

end

/-- Read directives; whether one of them names the version. -/
def directives (versioned : Bool) : List Token → Option (List (String × String) × List Token)
  | .version major minor :: ts =>
    if versioned || major != 1 || (minor != 1 && minor != 2) then none
    else directives true ts
  | .tagHandle handle meaning :: ts => do
    let (handles, ts) ← directives versioned ts
    if (handles.lookup handle).isSome then none
    return ((handle, meaning) :: handles, ts)
  | ts => some ([], ts)

/-- The handles that need no directive. -/
def standardHandles : List (String × String) :=
  [("!", "!"), ("!!", "tag:yaml.org,2002:")]

/-- Read the one document that tokens hold, if they hold any. -/
def document (tokens : List Token) : Option Tree := do
  let (handles, ts) ← directives false tokens
  let explicit := ts.head? == some .documentStart
  if !explicit && ts.length != tokens.length then none
  if ts.isEmpty then return absent
  let body := if explicit then ts.drop 1 else ts
  let start : Remaining := ⟨body, [], handles ++ standardHandles⟩
  let ends := fun t : Token => t == .documentEnd || t == .documentStart ||
    t matches .version _ _ || t matches .tagHandle _ _
  let (n, r) ←
    if explicit && body.head?.all ends then some (absent, start)
    else (node (4 * (body.length + 1)) true false).run start
  if r.tokens.all (· == .documentEnd) then some n else none

end Read

/-- The tree of a text. -/
def tree? (text : String) : Option Tree :=
  let cs := text.toList
  if cs.all isAllowed then (tokens? cs).bind Read.document else none

/-- Read what a text holds of a shape. -/
def parse (shape : Shape) (text : String) : Outcome Node :=
  match (tree? text).bind (Tree.read? shape) with
  | some n => .ok n
  | none => .error .malformedDocument

end Yaml
end ContentModels

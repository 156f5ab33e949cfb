import ContentModels.Document.Yaml.Scalar

/-!
# YAML tokens

Tokens are the marks of a document, its scalars, and the starts and ends of blocks that
the layout implies.
-/

namespace ContentModels
namespace Yaml

/-- A token of a document. -/
inductive Token where
  | version (major minor : Nat)
  /-- What a handle of tags stands for. -/
  | tagHandle (handle meaning : String)
  | documentStart
  | documentEnd
  | sequenceStart
  | mappingStart
  | blockEnd
  | flowSequenceStart
  | flowSequenceEnd
  | flowMappingStart
  | flowMappingEnd
  | blockEntry
  | flowEntry
  | key
  | value
  | aliasOf (name : String)
  | anchor (name : String)
  | tag (handle rest : String)
  /-- A scalar without quotes in one or more lines. -/
  | plain (text : String)
  /-- A quoted scalar, or a block scalar with folded lines. -/
  | text (text : String)
  /-- A block scalar that keeps its lines. -/
  | lines (text : String)
deriving DecidableEq, Repr

/-- What has been read of a text, and where the rest starts. -/
structure Reading (α : Type) where
  value : α
  position : Position
  rest : List Char

/-! ### Names and tags -/

/-- The name of an anchor or alias after its mark. -/
def readName (p : Position) (cs : List Char) : Option (Reading String) :=
  let name := cs.takeWhile isNameChar
  let rest := cs.drop name.length
  if !name.isEmpty && (endsWord rest || rest.head?.any ("?:,]\x7d%@".toList.contains ·) ||
      rest.head? == some (Char.ofNat 0x60)) then
    some ⟨String.ofList name, p.advance name.length, rest⟩
  else none

/-- A character of a tag. -/
def isTagChar (verbatim : Bool) (c : Char) : Bool :=
  isNameChar c || ";/?:@&=+$.!~*'()%".toList.contains c ||
    (verbatim && (c == ',' || c == '[' || c == ']'))

/-- The bytes of percent escapes at the head of a text. -/
def percentBytes : List Char → Option (List UInt8)
  | '%' :: a :: b :: cs => do
    let high ← Text.hexValue? a
    let low ← Text.hexValue? b
    return (16 * high + low).toUInt8 :: (← percentBytes cs)
  | '%' :: _ => none
  | _ => some []

/-- The text of a tag without percent escapes. -/
def unescapeTag : Nat → List Char → Option (List Char)
  | 0, _ => none
  | _, [] => some []
  | n + 1, c :: cs =>
    if c == '%' then do
      let bytes ← percentBytes (c :: cs)
      let decoded ← String.fromUTF8? ⟨bytes.toArray⟩
      return decoded.toList ++ (← unescapeTag n ((c :: cs).drop (3 * bytes.length)))
    else (unescapeTag n cs).map (c :: ·)

/-- The characters of a tag at the head of a text. -/
def readTagText (verbatim : Bool) (p : Position) (cs : List Char) : Option (Reading String) := do
  let raw := cs.takeWhile (isTagChar verbatim)
  let text ← unescapeTag (raw.length + 1) raw
  return ⟨String.ofList text, p.advance raw.length, cs.drop raw.length⟩

/-- The handle of a tag after its first mark: name characters and, perhaps, a second mark. -/
def tagHandleLength (cs : List Char) : Nat × Bool :=
  let name := cs.takeWhile isNameChar
  if (cs.drop name.length).head? == some '!' then (name.length + 1, true)
  else (name.length, false)

/-- A tag after its first mark, with the handle by which it is abbreviated. -/
def readTag (inFlow : Bool) (p : Position) (cs : List Char) :
    Option (Reading (String × String)) := do
  let read ← match cs with
    | '<' :: cs => do
      let r ← readTagText true p.next cs
      if r.value.isEmpty || r.rest.head? != some '>' then none
      pure ⟨("", r.value), r.position.next, r.rest.drop 1⟩
    | cs =>
      match tagHandleLength cs with
      | (n, true) => do
        let r ← readTagText false (p.advance n) (cs.drop n)
        if r.value.isEmpty then none
        pure ⟨("!" ++ String.ofList (cs.take n), r.value), r.position, r.rest⟩
      | _ => do
        let r ← readTagText false p cs
        let value := if r.value.isEmpty then ("", "!") else ("!", r.value)
        pure ⟨value, r.position, r.rest⟩
  if endsWord read.rest || (inFlow && read.rest.head? == some ',') then some read else none

/-! ### Directives -/

/-- A number of at most nine digits. -/
def readNumber (p : Position) (cs : List Char) : Option (Reading Nat) :=
  let digits := cs.takeWhile Char.isDigit
  if digits.isEmpty || 9 < digits.length then none
  else
    some ⟨digits.foldl (fun n c => 10 * n + (c.toNat - 0x30)) 0, p.advance digits.length,
      cs.drop digits.length⟩

/-- Skip blanks, which have to be there. -/
def skipSomeBlanks (p : Position) (cs : List Char) : Option (Position × List Char) :=
  if cs.head?.any isBlank then some (skipBlanks p cs) else none

/-- The version of the format. -/
def readVersion (p : Position) (cs : List Char) : Option (Reading Token) := do
  let (p, cs) := skipBlanks p cs
  let major ← readNumber p cs
  if major.rest.head? != some '.' then none
  let minor ← readNumber major.position.next (major.rest.drop 1)
  return ⟨.version major.value minor.value, minor.position, minor.rest⟩

/-- What a handle stands for. -/
def readTagDirective (p : Position) (cs : List Char) : Option (Reading Token) := do
  let (p, cs) := skipBlanks p cs
  if cs.head? != some '!' then none
  let (n, closed) := tagHandleLength (cs.drop 1)
  if !closed && n != 0 then none
  let handle := String.ofList (cs.take (n + 1))
  let (p, cs) ← skipSomeBlanks (p.advance (n + 1)) (cs.drop (n + 1))
  let meaning ← readTagText true p cs
  if meaning.value.isEmpty || !endsWord meaning.rest then none
  return ⟨.tagHandle handle meaning.value, meaning.position, meaning.rest⟩

/-- A directive after its mark, and the rest of its line. -/
def readDirective (p : Position) (cs : List Char) : Option (Reading Token) := do
  let name := cs.takeWhile isNameChar
  let rest := cs.drop name.length
  if !endsWord rest then none
  let p := p.advance name.length
  let read ← match String.ofList name with
    | "YAML" => readVersion p rest
    | "TAG" => readTagDirective p rest
    | _ => none
  let (p, cs) := skipBlanks read.position read.rest
  let (p, cs) := if cs.head? == some '#' then skipLine p cs else (p, cs)
  if !cs.head?.all isBreak then none
  let (_, p, cs) := readBreak p cs
  return ⟨read.value, p, cs⟩

end Yaml
end ContentModels

/-!
# Documents

The values that a JSON or YAML document holds, and what can be read from a value.
Entries of an object keep their order and may repeat a key; which of them counts is
up to the reader.

In YAML an unquoted scalar has no type of its own: the same characters can be read
as a text, a number or nothing, so it is kept as written.
-/

namespace ContentModels

/-- A value in a document. -/
inductive Node where
  | null
  | bool (value : Bool)
  | integer (value : Int)
  /-- A number with a fraction or an exponent, or beyond all integers in use. -/
  | real
  | text (value : String)
  /-- A text literal that names characters that do not exist. -/
  | brokenText
  /-- An unquoted scalar as written. -/
  | plain (written : String)
  /-- A value with a tag in front. -/
  | tagged (tag : String) (value : Node)
  /-- A list; whether it can stand for a record with its fields in order. -/
  | list (items : List Node) (positional : Bool)
  | object (entries : List (Node × Node))
deriving Inhabited

namespace Node

/-! ### Scalars -/

/-- The value behind all tags. -/
def untagged : Node → Node
  | .tagged _ value => untagged value
  | value => value

/-- A text. -/
def asText? (n : Node) : Option String :=
  match n.untagged with
  | .text s => some s
  | .plain s => some s
  | _ => none

/-- Whether a value is the absence of one. -/
def isNull : Node → Bool
  | .null => true
  | .plain s => ["", "~", "null", "Null", "NULL"].contains s
  | _ => false

/-- The digits of a number in a base, as a value. -/
def digitsValue? (base : Nat) (digits : List Char) : Option Nat :=
  if digits.isEmpty then none
  else digits.foldlM (fun n c => do
    let d ←
      if c.isDigit then some (c.toNat - 0x30)
      else if 'a' ≤ c && c ≤ 'f' then some (c.toNat - 0x57)
      else if 'A' ≤ c && c ≤ 'F' then some (c.toNat - 0x37)
      else none
    if d < base then some (base * n + d) else none) 0

/-- An unsigned number in the base that its mark names. -/
def basedDigits? : List Char → Option Nat
  | '0' :: 'x' :: cs => digitsValue? 16 cs
  | '0' :: 'o' :: cs => digitsValue? 8 cs
  | '0' :: 'b' :: cs => digitsValue? 2 cs
  | _ => none

/-- Whether digits start with a zero that is not the whole number. -/
def hasLeadingZero : List Char → Bool
  | '0' :: c :: cs => (c :: cs).all Char.isDigit
  | _ => false

/-- The integer that an unquoted scalar is: with a base mark, or decimal without leading zeros. -/
def plainInteger? (written : String) : Option Int :=
  let cs := written.toList
  let (negative, digits) := match cs with
    | '-' :: r => (true, r)
    | '+' :: r => (false, r)
    | r => (false, r)
  let value := (basedDigits? digits).or
    (if hasLeadingZero digits then none else digitsValue? 10 digits)
  value.map fun n => if negative then -(n : Int) else (n : Int)

/-- An integer between bounds. -/
def asInteger? (low high : Int) (n : Node) : Option Int :=
  let value := match n.untagged with
    | .integer i => some i
    | .plain s => plainInteger? s
    | _ => none
  value.filter fun i => low ≤ i && i ≤ high

/-- An integer of 64 bits with a sign. -/
def asId? : Node → Option Int :=
  asInteger? (-0x8000000000000000) 0x7fffffffffffffff

/-- A count. -/
def asCount? (n : Node) : Option Nat :=
  (n.asInteger? 0 0xffffffffffffffff).map Int.toNat

/-! ### Choices, lists and objects -/

/--
A choice between names: a text, an object with nothing under the name, or the name
as a tag.
-/
def choice? : Node → Option String
  | .object [(key, .null)] => key.asText?
  | .tagged tag value =>
    match tag.toList with
    | '!' :: name => if value.isNull then some (String.ofList name) else none
    | _ => value.asText?
  | n => n.asText?

/-- One of some values, chosen by name. -/
def asOneOf? {α : Type} (values : List α) (name : α → String) (n : Node) : Option α := do
  let s ← n.choice?
  values.find? fun v => name v == s

/-- The tag of values that are absent. -/
def nullTag : String := "tag:yaml.org,2002:null"

/-- A value that may be absent; what is tagged as absent has to say so. -/
def asOption? {α : Type} (read : Node → Option α) (n : Node) : Option (Option α) :=
  match n with
  | .tagged tag (.plain s) =>
    if tag = nullTag then (if (Node.plain s).isNull && !s.isEmpty then some none else none)
    else (read n).map some
  | n => if n.isNull then some none else (read n).map some

/-- The items of a list. -/
def asList? {α : Type} (read : Node → Option α) (n : Node) : Option (List α) :=
  match n.untagged with
  | .list items _ => items.mapM read
  | .plain "" => some []
  | _ => none

/-- The entries of an object whose keys are texts. -/
def asEntries? (n : Node) : Option (List (String × Node)) :=
  match n.untagged with
  | .object entries => entries.mapM fun e => e.1.asText?.map (·, e.2)
  | .plain "" => some []
  | _ => none

/-- The fields of a record: known keys of an object, each at most once, or a list of values in order. -/
def asRecord? (known : List String) (n : Node) : Option (List (String × Node)) :=
  match n.untagged with
  | .list items true => if items.length ≤ known.length then some (known.zip items) else none
  | n => do
    let fields := (← n.asEntries?).filter fun e => known.contains e.1
    if (fields.map (·.1)).eraseDups.length = fields.length then some fields else none

end Node

/-- The fields of a record. -/
abbrev Fields := List (String × Node)

namespace Fields

/-- Read a field that has to be there. -/
def required {α : Type} (fields : Fields) (key : String) (read : Node → Option α) : Option α :=
  (fields.lookup key).bind read

/-- Read a field, which has a value when it is not there. -/
def optional {α : Type}
    (fields : Fields) (key : String) (missing : α) (read : Node → Option α) : Option α :=
  match fields.lookup key with
  | none => some missing
  | some n => read n

end Fields
end ContentModels

import ContentModels.Document
import ContentModels.Document.Shape

/-!
# YAML trees

A tree is a document as written, before aliases are replaced by what they stand for.
Anchors have numbers, and an alias stands for the last tree whose anchor has its number.
So an alias may stand for a tree around it or behind it, and a document may have no end;
but a reader only looks at what has the shape of its values, and aliases are followed
just there.
-/

namespace ContentModels
namespace Yaml

/-- A document as written. -/
inductive Tree where
  /-- A scalar without quotes. -/
  | plain (text : String)
  /-- A quoted scalar, or a block scalar with folded lines. -/
  | text (text : String)
  /-- A block scalar that keeps its lines. -/
  | lines (text : String)
  | list (items : List Tree)
  | object (entries : List (Tree × Tree))
  | tagged (tag : String) (value : Tree)
  | anchored (number : Nat) (value : Tree)
  | aliasOf (number : Nat)
deriving Inhabited

namespace Tree

/-! ### Anchors and parts -/

mutual

/-- The trees with anchors and the numbers of these, in the order in which they start. -/
def anchors : Tree → List (Nat × Tree)
  | .plain _ | .text _ | .lines _ | .aliasOf _ => []
  | .list items => anchorsOfItems items
  | .object entries => anchorsOfEntries entries
  | .tagged _ value => anchors value
  | .anchored number value => (number, value) :: anchors value

/-- The trees with anchors in a list. -/
def anchorsOfItems : List Tree → List (Nat × Tree)
  | [] => []
  | t :: ts => anchors t ++ anchorsOfItems ts

/-- The trees with anchors in the entries of an object. -/
def anchorsOfEntries : List (Tree × Tree) → List (Nat × Tree)
  | [] => []
  | (key, value) :: es => anchors key ++ (anchors value ++ anchorsOfEntries es)

end

/-- The tree that each number stands for. -/
def targets (t : Tree) : Array Tree :=
  let anchors := t.anchors
  let count := anchors.foldl (fun n a => max n (a.1 + 1)) 0
  anchors.foldl (fun ts a => ts.setIfInBounds a.1 a.2) (Array.replicate count (.plain ""))

mutual

/-- The number of parts of a document: its scalars and aliases, and the two ends of all else. -/
def size : Tree → Nat
  | .plain _ | .text _ | .lines _ | .aliasOf _ => 1
  | .list items => 2 + sizeOfItems items
  | .object entries => 2 + sizeOfEntries entries
  | .tagged _ value | .anchored _ value => size value

/-- The number of parts of the items of a list. -/
def sizeOfItems : List Tree → Nat
  | [] => 0
  | t :: ts => size t + sizeOfItems ts

/-- The number of parts of the entries of an object. -/
def sizeOfEntries : List (Tree × Tree) → Nat
  | [] => 0
  | (key, value) :: es => size key + size value + sizeOfEntries es

end

/-! ### What a reader sees -/

/-- Whether a tree is an alias. -/
def isAlias : Tree → Bool
  | .aliasOf _ => true
  | _ => false

/-- What is behind an alias or an anchor. -/
def behind (targets : Array Tree) : Tree → Tree
  | .aliasOf number => targets[number]?.getD (.plain "")
  | .anchored _ value => value
  | t => t

/-- What is behind a tag. -/
def untagged : Tree → Tree
  | .tagged _ value => value
  | t => t

/-- The tag of integers. -/
def integerTag : String := "tag:yaml.org,2002:int"

/--
A value without what it holds.  Lines that are tagged as an integer are read like a scalar
without quotes; no alias is left in what is behind one.
-/
def top : Tree → Node
  | .plain s => .plain s
  | .text s | .lines s => .text s
  | .list _ => .list [] false
  | .object _ => .object []
  | .tagged tag (.lines s) =>
    .tagged tag (if tag = integerTag && !s.isEmpty then .plain s else .text s)
  | .tagged tag value => .tagged tag (top value)
  | .anchored _ value => top value
  | .aliasOf _ => .null

/-- The key of an entry. -/
def keyNode (targets : Array Tree) (t : Tree) : Node :=
  (t.behind targets).top

/-- The field that a key names. -/
def fieldText (targets : Array Tree) (key : Tree) : String :=
  (key.keyNode targets).asText?.getD ""

/-- What a reader of a shape sees of a tree. -/
def toNode (targets : Array Tree) : Shape → Tree → Node
  | .skipped, _ => .null
  | .value, t => (t.behind targets).top
  | .list items, t =>
    let t := t.behind targets
    match t.untagged with
    | .list ts => .list (ts.map (toNode targets items)) false
    | _ => t.top
  | .table values, t =>
    let t := t.behind targets
    match t.untagged with
    | .object es => .object (es.map fun e => (e.1.keyNode targets, toNode targets values e.2))
    | _ => t.top
  | .record field, t =>
    let t := t.behind targets
    match t.untagged with
    | .object es =>
      .object (es.map fun e =>
        (e.1.keyNode targets, toNode targets (field (e.1.fieldText targets)) e.2))
    | _ => t.top

/-- How often a reader of a shape follows an alias. -/
def aliasesFollowed (targets : Array Tree) : Shape → Tree → Nat
  | .skipped, _ => 0
  | .value, t => t.isAlias.toNat
  | .list items, t =>
    t.isAlias.toNat + match (t.behind targets).untagged with
      | .list ts => (ts.map (aliasesFollowed targets items)).sum
      | _ => 0
  | .table values, t =>
    t.isAlias.toNat + match (t.behind targets).untagged with
      | .object es =>
        (es.map fun e => e.1.isAlias.toNat + aliasesFollowed targets values e.2).sum
      | _ => 0
  | .record field, t =>
    t.isAlias.toNat + match (t.behind targets).untagged with
      | .object es =>
        (es.map fun e => e.1.isAlias.toNat +
          aliasesFollowed targets (field (e.1.fieldText targets)) e.2).sum
      | _ => 0

/--
What a reader of a shape sees of a document; none if it follows aliases more than a hundred
times as often as the document has parts.
-/
def read? (shape : Shape) (t : Tree) : Option Node :=
  let targets := t.targets
  if 100 * t.size < aliasesFollowed targets shape t then none
  else some (toNode targets shape t)

end Tree
end Yaml
end ContentModels

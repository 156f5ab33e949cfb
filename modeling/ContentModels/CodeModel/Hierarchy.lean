import ContentModels.CodeModel
import ContentModels.Schema.Links

/-!
# The hierarchy of models

An ignored content type takes its descendants with it, so the parent of a type that
takes part takes part as well.  A type mixes in its compositions, ancestors aside.
What is mixed in is a mixin, and so is everything that a mixin descends from.
-/

namespace ContentModels
namespace Hierarchy

open Schema (LinkedType)

/-- Whether the type at a position or one of its ancestors is ignored. -/
def isDropped (isIgnored : String → Bool) (types : List LinkedType) (i : Nat) : Bool :=
  (i :: Schema.ancestors types i).any fun j =>
    types[j]?.any fun t => isIgnored t.type.aliasName

/-- The positions of the types that take part. -/
def kept (isIgnored : String → Bool) (types : List LinkedType) : List Nat :=
  (List.range types.length).filter fun i => !isDropped isIgnored types i

/-- A type at a position, with its links among the positions of the types that take part. -/
def place (types : List LinkedType) (positions : List Nat) (i : Nat) (t : LinkedType) :
    Participant where
  type := t.type
  parent := t.parent.bind (positions.idxOf? ·)
  mixins :=
    (t.compositions.filter fun c => !(Schema.ancestors types i).contains c).filterMap
      (positions.idxOf? ·)
  isMixin := false

/-- The position of the parent of the participant at a position. -/
def parentAt (ps : List Participant) (i : Nat) : Option Nat :=
  ps[i]?.bind (·.parent)

/-- The positions of all ancestors of a participant. -/
def ancestors (ps : List Participant) (i : Nat) : List Nat :=
  Walk.chain (parentAt ps) ps.length i

/-- The positions of the mixins. -/
def mixinPositions (ps : List Participant) : List Nat :=
  (ps.flatMap (·.mixins)).eraseDups.flatMap fun m => m :: ancestors ps m

/-- The types that take part, with mixins marked. -/
def participants (isIgnored : String → Bool) (types : List LinkedType) : List Participant :=
  let positions := kept isIgnored types
  let placed := positions.filterMap fun i => types[i]?.map (place types positions i)
  let mixins := mixinPositions placed
  placed.zipIdx.map fun x => { x.1 with isMixin := mixins.contains x.2 }

/-- The types left out. -/
def dropped (isIgnored : String → Bool) (types : List LinkedType) : List ContentType :=
  (types.zipIdx.filter fun x => isDropped isIgnored types x.2).map (·.1.type)

/-- What a participant leads to: its parent and its mixins. -/
def linksOf (p : Participant) : List Nat :=
  p.parent.toList ++ p.mixins

/-- What the participant at a position leads to. -/
def links (ps : List Participant) (i : Nat) : List Nat :=
  ((ps[i]?).map linksOf).getD []

/-- The number of links between participants. -/
def linkCount (ps : List Participant) : Nat :=
  (ps.flatMap linksOf).length

/-- The positions that a participant reaches through parents and mixins, its own among them. -/
def covered (ps : List Participant) (i : Nat) : List Nat :=
  Walk.nodes (links ps) (linkCount ps) i

/-- The positions whose properties a participant introduces: what it reaches and its parent does not. -/
def introduced (ps : List Participant) (i : Nat) : List Nat :=
  let own := covered ps i
  let inherited := ((parentAt ps i).map (covered ps)).getD []
  (List.range ps.length).filter fun j => own.contains j && !inherited.contains j && j != i

end Hierarchy
end ContentModels

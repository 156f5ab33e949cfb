import ContentModels.Failure
import ContentModels.Walk

/-!
# Links between content types

A schema refers to parents and compositions by id.  Linking replaces each id by the
position of its content type in the schema.  It fails on ids that no type has and on
types that reach themselves through their parents, so parents form a forest.
-/

namespace ContentModels
namespace Schema

/-- A content type whose links are positions in the schema. -/
structure LinkedType where
  type : ContentType
  parent : Option Nat
  /-- Without repetitions, and without the type itself. -/
  compositions : List Nat
deriving DecidableEq, Repr, Inhabited

/-- The position of the content type with an id. -/
def position? (types : List ContentType) (id : Int) : Option Nat :=
  types.findIdx? fun t => t.id == id

/-- The position of the parent of a content type. -/
def linkParent (types : List ContentType) (t : ContentType) : Outcome (Option Nat) :=
  match t.parent? with
  | none => .ok none
  | some id =>
    match position? types id with
    | some p => .ok (some p)
    | none => .error (.configuration (.unknownParent t.aliasName id))

/-- The position of a composition of a content type. -/
def linkComposition (types : List ContentType) (t : ContentType) (id : Int) : Outcome Nat :=
  match position? types id with
  | some p => .ok p
  | none => .error (.configuration (.unknownComposition t.aliasName id))

/-- Link one content type. -/
def linkType (types : List ContentType) (t : ContentType) : Outcome LinkedType := do
  let parent ← linkParent types t
  let compositions ← (t.compositionIds.filter (· != t.id)).mapM (linkComposition types t)
  return { type := t, parent, compositions := compositions.eraseDups }

/-- The position of the parent of the type at a position. -/
def parentAt (types : List LinkedType) (i : Nat) : Option Nat :=
  types[i]?.bind (·.parent)

/-- The positions of the parent of a type, of its parent, and so on. -/
def ancestors (types : List LinkedType) (i : Nat) : List Nat :=
  Walk.chain (parentAt types) types.length i

/-- Whether the parents of a type never end: they then fill the longest chain that is looked at. -/
def isCyclic (types : List LinkedType) (i : Nat) : Bool :=
  (ancestors types i).length == types.length

/-- Link the content types of a schema. -/
def link (types : List ContentType) : Outcome (List LinkedType) := do
  let linked ← types.mapM (linkType types)
  match linked.zipIdx.find? fun x => isCyclic linked x.2 with
  | some x => .error (.configuration (.inheritanceCycle x.1.type.aliasName))
  | none => .ok linked

end Schema
end ContentModels

/-!
# Schema

The content types that a content management system describes: their aliases,
properties, parents and compositions.
-/

namespace ContentModels

/-- What a content type describes. -/
inductive ContentKind where
  | content
  | media
  | member
  | element
deriving DecidableEq, Repr, Inhabited

namespace ContentKind

/-- The name of a kind. -/
def name : ContentKind → String
  | .content => "Content"
  | .media => "Media"
  | .member => "Member"
  | .element => "Element"

/-- All kinds. -/
def all : List ContentKind :=
  [.content, .media, .member, .element]

end ContentKind

/-- By what the values of a type vary. -/
inductive Variations where
  | nothing
  | culture
  | segment
  | cultureAndSegment
deriving DecidableEq, Repr, Inhabited

namespace Variations

/-- The name of a choice. -/
def name : Variations → String
  | .nothing => "Nothing"
  | .culture => "Culture"
  | .segment => "Segment"
  | .cultureAndSegment => "CultureAndSegment"

/-- All choices. -/
def all : List Variations :=
  [.nothing, .culture, .segment, .cultureAndSegment]

end Variations

/-- A property of a content type. -/
structure PropertyType where
  aliasName : String
  editorAlias : String
  name : String
  description : Option String
  variations : Variations
  /-- The type of its values, which may refer to content types by placeholders. -/
  valueType : Option String
deriving DecidableEq, Repr, Inhabited

/-- A content type. -/
structure ContentType where
  id : Int
  aliasName : String
  parentId : Option Int
  kind : ContentKind
  name : String
  description : Option String
  variations : Variations
  properties : List PropertyType
  compositionIds : List Int
deriving DecidableEq, Repr, Inhabited

namespace ContentType

/-- The id of the parent: only positive ids are ids of parents. -/
def parent? (t : ContentType) : Option Int :=
  t.parentId.filter (0 < ·)

end ContentType

end ContentModels

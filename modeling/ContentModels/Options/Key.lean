import ContentModels.Text.Lowercase

/-!
# Keys of content types

Options name a content type either by its alias in the schema or by the name of
the class generated for it.
-/

namespace ContentModels

/-- What names a content type. -/
inductive TypeKey where
  | typeAlias (value : String)
  | className (value : String)
deriving DecidableEq, Repr

namespace TypeKey

/-- The name itself. -/
def value : TypeKey → String
  | .typeAlias v => v
  | .className v => v

/-- The form under which options are filed, the same for all letter cases. -/
def folded (k : TypeKey) : String :=
  Text.lowercase k.value

/-- Whether the name is an alias. -/
def isAlias : TypeKey → Bool
  | .typeAlias _ => true
  | .className _ => false

/-- How a key is shown in messages. -/
def display : TypeKey → String
  | .typeAlias v => "alias '" ++ v ++ "'"
  | .className v => "CLR name '" ++ v ++ "'"

end TypeKey

end ContentModels

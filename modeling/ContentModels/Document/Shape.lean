/-!
# Shapes of documents

A shape says how far a document is read: which values are lists, which of their fields
records have, and what is skipped.
-/

namespace ContentModels

/-- How far a value of a document is read. -/
inductive Shape where
  /-- A value that is not looked at. -/
  | skipped
  /-- A value that is looked at without what it may hold. -/
  | value
  | list (items : Shape)
  /-- An object with keys of any kind. -/
  | table (values : Shape)
  /-- An object whose fields have shapes of their own. -/
  | record (field : String → Shape)
deriving Inhabited

namespace Shape

/-- A record of which some fields are read; those without a shape are values. -/
def ofFields (known : List String) (shapes : List (String × Shape)) : Shape :=
  .record fun key =>
    if known.contains key then (shapes.lookup key).getD .value else .skipped

end Shape
end ContentModels

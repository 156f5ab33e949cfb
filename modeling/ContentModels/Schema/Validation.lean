import ContentModels.Failure
import ContentModels.Text.Blank

/-!
# Validity of a schema

No alias is blank, no id occurs twice, and neither do, letter case aside, two
aliases of content types or two aliases of properties of one content type.  The
first type that breaks a rule is reported, with the rule that it breaks first.
-/

namespace ContentModels
namespace Schema

/-- Check that the aliases of properties differ from those before them. -/
def checkProperties (type : String) (before : List PropertyType) :
    List PropertyType → Outcome Unit
  | [] => .ok ()
  | p :: ps =>
    match before.find? fun q => Text.agreeIgnoringCase q.aliasName p.aliasName with
    | some q => .error (.configuration (.duplicateProperty type q.aliasName p.aliasName))
    | none => checkProperties type (before ++ [p]) ps

/-- Check one content type against those before it. -/
def checkType (before : List ContentType) (t : ContentType) : Outcome Unit := do
  if Text.isBlankText t.aliasName then
    throw (.configuration (.emptyAlias t.id))
  if let some s := before.find? fun s => s.id == t.id then
    throw (.configuration (.duplicateId t.id s.aliasName t.aliasName))
  if let some s := before.find? fun s => Text.agreeIgnoringCase s.aliasName t.aliasName then
    throw (.configuration (.duplicateAlias s.kind s.aliasName t.kind t.aliasName))
  checkProperties t.aliasName [] t.properties

/-- Check content types against those before them and each other. -/
def checkTypes (before : List ContentType) : List ContentType → Outcome Unit
  | [] => .ok ()
  | t :: ts => do
    checkType before t
    checkTypes (before ++ [t]) ts

/-- Check a schema. -/
def validate (types : List ContentType) : Outcome Unit :=
  checkTypes [] types

end Schema
end ContentModels

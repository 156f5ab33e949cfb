import ContentModels.Keyed
import ContentModels.Text.Blank
import ContentModels.Text.Lowercase

/-!
# Value types

The type of a property's values may refer to the class generated for a content type
by a placeholder that holds the alias.  Placeholders are replaced from left to
right, and nothing else is changed.
-/

namespace ContentModels
namespace ValueType

/-- The type of values for which the schema names none. -/
def unspecified : String := "object"

/-- How a placeholder starts. -/
def opening : List Char := "\x7bmodel:".toList

/-- The alias in the placeholder that starts the list, and the length of the placeholder. -/
def placeholder? (cs : List Char) : Option (List Char × Nat) :=
  if opening.isPrefixOf cs then
    let body := cs.drop opening.length
    let aliasName := body.takeWhile (· != '\x7d')
    if aliasName.isEmpty || aliasName.length = body.length then none
    else some (aliasName, opening.length + aliasName.length + 1)
  else none

/-- What stands for the alias in a placeholder. -/
def nameOf (names : Keyed String) (fallback : String) (aliasName : List Char) : String :=
  (names.get? (Text.lowercase (String.ofList (Text.trimChars aliasName)))).getD fallback

/-- Replace every placeholder in a list of characters. -/
def replace (names : Keyed String) (fallback : String) : List Char → List Char
  | [] => []
  | c :: cs =>
    match placeholder? (c :: cs) with
    | some (aliasName, n) => (nameOf names fallback aliasName).toList ++ replace names fallback (cs.drop (n - 1))
    | none => c :: replace names fallback cs
termination_by cs => cs.length
decreasing_by
  all_goals
    simp only [List.length_drop, List.length_cons]
    omega

/--
The type of a property's values.  `names` holds the class names of content types
under their aliases in lower case; `fallback` stands for every other alias.
-/
def resolve (names : Keyed String) (fallback : String) (valueType : Option String) : String :=
  let trimmed := Text.trimChars (valueType.getD "").toList
  if trimmed.isEmpty then unspecified else String.ofList (replace names fallback trimmed)

end ValueType
end ContentModels

/-!
# Occurrences of one text in another
-/

namespace ContentModels
namespace Text

/-- Whether a list of characters occurs in another one. -/
def occursIn (part : List Char) : List Char → Bool
  | [] => part.isEmpty
  | c :: cs => part.isPrefixOf (c :: cs) || occursIn part cs

/-- Replace every occurrence of a part, from left to right. -/
def replaceAll (part new : List Char) : List Char → List Char
  | [] => []
  | c :: cs =>
    if part.isPrefixOf (c :: cs) then new ++ replaceAll part new (cs.drop (part.length - 1))
    else c :: replaceAll part new cs
termination_by cs => cs.length
decreasing_by
  all_goals
    simp only [List.length_drop, List.length_cons]
    omega

end Text
end ContentModels

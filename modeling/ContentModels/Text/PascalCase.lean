import ContentModels.Text.LetterCase
import ContentModels.Text.Numeric

/-!
# Pascal case

A text is divided into words, and each word gets a capital first letter and small
further letters.  Words end at every character that is neither letter nor number,
in front of a capital that follows a small letter, and in front of the last of
several capitals that a small letter follows.
-/

namespace ContentModels
namespace Text
namespace PascalCase

/-- What the last cased letter of the word read so far was. -/
inductive Case where
  | none
  | lower
  | upper
deriving DecidableEq, Repr

/-- The case after one more letter. -/
def Case.next (m : Case) (c : Char) : Case :=
  if isLowercase c then .lower else if isUppercase c then .upper else m

/-- The words of a run of letters and numbers, of which `word` is already read. -/
def splitRun (m : Case) (word : List Char) : List Char → List (List Char)
  | [] => []
  | [c] => [word ++ [c]]
  | c :: d :: cs =>
    if m.next c = .lower ∧ isUppercase d then
      (word ++ [c]) :: splitRun .none [] (d :: cs)
    else if m = .upper ∧ isUppercase c ∧ isLowercase d then
      word :: splitRun .none [c] (d :: cs)
    else splitRun (m.next c) (word ++ [c]) (d :: cs)

/-- The runs of letters and numbers; `run` is already read. -/
def runs (run : List Char) : List Char → List (List Char)
  | [] => [run]
  | c :: cs => if isAlphanumeric c then runs (run ++ [c]) cs else run :: runs [] cs

/-- The words of a list of characters. -/
def words (cs : List Char) : List (List Char) :=
  (runs [] cs).flatMap (splitRun .none [])

/-- Lower case of the further letters of a word; only the last sigma of a word is final. -/
def lowerRest : List Char → List Char
  | [] => []
  | [c] => if c = 'Σ' then ['ς'] else lowerChar c
  | c :: cs => lowerChar c ++ lowerRest cs

/-- A word with a capital first letter. -/
def capitalize : List Char → List Char
  | [] => []
  | c :: cs => upperChar c ++ lowerRest cs

end PascalCase

/-- The pascal case of a list of characters. -/
def pascalCase (cs : List Char) : List Char :=
  (PascalCase.words cs).flatMap PascalCase.capitalize

end Text
end ContentModels

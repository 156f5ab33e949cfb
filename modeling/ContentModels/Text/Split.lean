/-!
# Parts of a text between separators
-/

namespace ContentModels
namespace Text

/-- The parts between separators; `part` is already read. -/
def splitFrom (separator : Char) (part : List Char) : List Char → List (List Char)
  | [] => [part]
  | c :: cs =>
    if c = separator then part :: splitFrom separator [] cs
    else splitFrom separator (part ++ [c]) cs

/-- The parts of a text between separators, empty ones included. -/
def split (separator : Char) (s : String) : List String :=
  (splitFrom separator [] s.toList).map String.ofList

theorem splitFrom_append
    {separator : Char} {cs : List Char} (h : separator ∉ cs) (part rest : List Char) :
    splitFrom separator part (cs ++ rest) = splitFrom separator (part ++ cs) rest := by
  induction cs generalizing part with
  | nil => simp
  | cons c cs ih =>
    rw [List.mem_cons, not_or] at h
    rw [List.cons_append, splitFrom, if_neg (Ne.symm h.1), ih h.2]
    simp

theorem splitFrom_append_separator
    (separator : Char) (part cs rest : List Char) :
    splitFrom separator part (cs ++ separator :: rest) =
      splitFrom separator part cs ++ splitFrom separator [] rest := by
  induction cs generalizing part with
  | nil => simp [splitFrom]
  | cons c cs ih =>
    rw [List.cons_append, splitFrom, splitFrom]
    split
    · rw [ih, List.cons_append]
    · exact ih _

theorem splitFrom_ne_nil
    (separator : Char) (part cs : List Char) :
    splitFrom separator part cs ≠ [] := by
  induction cs generalizing part with
  | nil => exact List.cons_ne_nil _ _
  | cons c cs ih =>
    rw [splitFrom]
    split
    · exact List.cons_ne_nil _ _
    · exact ih _

theorem split_ne_nil
    (separator : Char) (s : String) :
    split separator s ≠ [] :=
  fun h => splitFrom_ne_nil separator [] s.toList (List.map_eq_nil_iff.1 h)

/-- No part holds a separator. -/
theorem not_mem_of_mem_splitFrom
    {separator : Char} {part cs s : List Char} (hpart : separator ∉ part)
    (h : s ∈ splitFrom separator part cs) :
    separator ∉ s := by
  induction cs generalizing part with
  | nil =>
    obtain rfl := List.mem_singleton.1 h
    exact hpart
  | cons c cs ih =>
    rw [splitFrom] at h
    split at h
    · rcases List.mem_cons.1 h with rfl | h
      · exact hpart
      · exact ih List.not_mem_nil h
    · rename_i hc
      refine ih ?_ h
      rw [List.mem_append, List.mem_singleton, not_or]
      exact ⟨hpart, Ne.symm hc⟩

theorem not_mem_of_mem_split
    {separator : Char} {s t : String} (h : s ∈ split separator t) :
    separator ∉ s.toList := by
  obtain ⟨cs, hcs, rfl⟩ := List.mem_map.1 h
  rw [String.toList_ofList]
  exact not_mem_of_mem_splitFrom List.not_mem_nil hcs

theorem split_of_not_mem
    {separator : Char} {s : String} (h : separator ∉ s.toList) :
    split separator s = [s] := by
  have hsplit := splitFrom_append h [] []
  rw [List.append_nil, List.nil_append, splitFrom] at hsplit
  rw [split, hsplit, List.map_cons, List.map_nil, String.ofList_toList]

theorem split_append
    (separator : Char) (s t : String) :
    split separator (s ++ String.singleton separator ++ t) =
      split separator s ++ split separator t := by
  unfold split
  rw [String.toList_append, String.toList_append, String.toList_singleton, List.append_assoc,
    List.singleton_append, splitFrom_append_separator, List.map_append]

/-- What follows the last separator. -/
def afterLast (separator : Char) (cs : List Char) : List Char :=
  (cs.reverse.takeWhile (· != separator)).reverse

/-- What precedes the first separator. -/
def beforeFirst (separator : Char) (cs : List Char) : List Char :=
  cs.takeWhile (· != separator)

/-- The last segment of a dotted name. -/
def lastSegment (name : String) : String :=
  String.ofList (afterLast '.' name.toList)

end Text
end ContentModels

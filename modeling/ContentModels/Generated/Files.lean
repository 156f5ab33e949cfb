import ContentModels.CSharp.Parse.Unit
import ContentModels.Generated.Types

/-!
# Generated files

The models of a pass get a file each, or one file together.  Every file starts with the
mark of a tool, by which it is known as generated when it is read again.
-/

namespace ContentModels
namespace Generated

/-- The version of the generated code. -/
def version : String := "0.1.0"

/-- How the name of a generated file ends. -/
def suffix : String := ".generated.cs"

/-- The name of the file for a class. -/
def fileName (className : String) : String :=
  className ++ suffix

/-- The name of the file for all classes. -/
def singleFileName : String :=
  fileName "models"

/-- A line across a comment. -/
def rule : String :=
  "//------------------------------------------------------------------------------"

/-- What every file starts with. -/
def header : List String :=
  [rule, "// " ++ CSharp.generatedMark ++ ">", "//   This code was generated by a tool.", "//",
    "//    Umbraco.ModelsBuilder v" ++ version, "//",
    "//   Changes to this file will be lost if the code is regenerated.",
    "// </auto-generated>", rule, ""]

namespace Layout

/-- A file with lines in a namespace. -/
def file (l : Layout) (modelsNamespace : String) (body : List String) : String :=
  textOf
    (header ++ l.usings.map (fun name => "using " ++ name ++ ";") ++
      ["", "namespace " ++ modelsNamespace, "\x7b"] ++ body ++ ["\x7d"])

end Layout

/-- Set the text of a class: in the place of the one that it has, or else after all others. -/
def setText (texts : List (String × String)) (x : String × String) : List (String × String) :=
  if texts.any (·.1 == x.1) then texts.map fun y => if y.1 == x.1 then x else y
  else texts ++ [x]

/-- Texts by the names of classes, in order; of two for one class the later one is kept. -/
def byClass (xs : List (String × String)) : List (String × String) :=
  xs.foldl setText []

theorem of_mem_setText
    {texts : List (String × String)} {x y : String × String}
    (h : y ∈ setText texts x) :
    y ∈ texts ∨ y = x := by
  unfold setText at h
  split at h
  · obtain ⟨z, hz, rfl⟩ := List.mem_map.1 h
    split
    · exact .inr rfl
    · exact .inl hz
  · simpa using h

/-- No text comes from elsewhere. -/
theorem of_mem_foldl_setText
    {texts xs : List (String × String)} {y : String × String}
    (h : y ∈ xs.foldl setText texts) :
    y ∈ texts ∨ y ∈ xs := by
  induction xs generalizing texts with
  | nil => exact .inl h
  | cons x xs ih =>
    rcases ih h with h | h
    · rcases of_mem_setText h with h | rfl
      · exact .inl h
      · exact .inr List.mem_cons_self
    · exact .inr (List.mem_cons_of_mem _ h)

theorem of_mem_byClass
    {xs : List (String × String)} {y : String × String}
    (h : y ∈ byClass xs) :
    y ∈ xs :=
  (of_mem_foldl_setText h).resolve_left List.not_mem_nil

/-- Texts of classes with different names come after those that are there. -/
theorem foldl_setText_eq
    {texts xs : List (String × String)}
    (h : ((texts ++ xs).map (·.1)).Nodup) :
    xs.foldl setText texts = texts ++ xs := by
  induction xs generalizing texts with
  | nil => exact (List.append_nil texts).symm
  | cons x xs ih =>
    have hfresh : texts.any (·.1 == x.1) = false := by
      rw [List.any_eq_false]
      intro y hy heq
      rw [List.map_append, List.nodup_append] at h
      exact h.2.2 y.1 (List.mem_map_of_mem hy) x.1 (by simp) (by simpa using heq)
    have hset : setText texts x = texts ++ [x] := by
      unfold setText
      rw [hfresh]
      rfl
    rw [List.foldl_cons, hset, ih (by simpa using h), List.append_assoc]
    rfl

/-- Texts of classes with different names are all kept, in order. -/
theorem byClass_eq_self
    {xs : List (String × String)}
    (h : (xs.map (·.1)).Nodup) :
    byClass xs = xs :=
  foldl_setText_eq h

/-- The texts of the classes of a code model, each by the name of the class, in order. -/
def texts (settings : Settings) (m : CodeModel) : Outcome (List (String × String)) := do
  let l ← Layout.ofSettings settings m.usingNamespaces
  return byClass (m.models.map fun x => (x.name, l.file m.modelsNamespace (l.types m.models x)))

/-- The text of all classes of a code model. -/
def singleText (settings : Settings) (m : CodeModel) : Outcome String := do
  let l ← Layout.ofSettings settings m.usingNamespaces
  return l.file m.modelsNamespace (blocks (m.models.map (l.types m.models)))

end Generated
end ContentModels

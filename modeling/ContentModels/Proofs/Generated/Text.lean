import ContentModels.CSharp.Compilation
import ContentModels.Generated.Files
import ContentModels.Proofs.Lexing.Lines

/-!
# The text of generated code

A generated file is a list of lines, and its text is read line by line.  It starts with
two comment lines of which the second holds the mark of a tool, so that whatever stands
in the rest, a file that is lexed at all is known as generated.
-/

namespace ContentModels

namespace Text

theorem occursIn_of_infix
    {part cs : List Char}
    (h : part <:+: cs) :
    occursIn part cs = true := by
  obtain ⟨before, after, rfl⟩ := h
  induction before with
  | nil =>
    cases hp : part ++ after with
    | nil =>
      obtain ⟨rfl, -⟩ := List.append_eq_nil_iff.1 hp
      simp [hp, occursIn]
    | cons c cs =>
      have hpre : part.isPrefixOf (c :: cs) = true :=
        List.isPrefixOf_iff_prefix.2 ⟨after, hp⟩
      simp [hp, occursIn, hpre]
  | cons c before ih =>
    rw [List.cons_append, List.cons_append, occursIn, ih, Bool.or_true]

end Text

namespace Generated

open CSharp

theorem toList_textOf
    (lines : List String) :
    (textOf lines).toList = lines.flatMap fun line => line.toList ++ ['\n'] := by
  unfold textOf
  rw [String.toList_join, List.flatMap_map]
  simp

theorem toList_textOf_cons
    (line : String) (lines : List String) :
    (textOf (line :: lines)).toList = line.toList ++ '\n' :: (textOf lines).toList := by
  rw [toList_textOf, toList_textOf]
  simp

theorem toList_textOf_append
    (lines more : List String) :
    (textOf (lines ++ more)).toList = (textOf lines).toList ++ (textOf more).toList := by
  rw [toList_textOf, toList_textOf, toList_textOf, List.flatMap_append]

/-- A text that starts with the header of generated files is known by it. -/
theorem leadingComments_header
    {lines : List String} {lexed : Lexed}
    (h : tokenize (textOf (header ++ lines)) = .ok lexed) :
    Text.occursIn generatedMark.toList lexed.leadingComments = true := by
  obtain ⟨more, hmore⟩ :
      ∃ more, header ++ lines = rule :: ("// " ++ generatedMark ++ ">") :: more :=
    ⟨_, rfl⟩
  have hrule : rule.toList = '/' :: '/' :: List.replicate 78 '-' := by
    simp [rule]
  have hmark : ("// " ++ generatedMark ++ ">").toList =
      '/' :: '/' :: ' ' :: (generatedMark.toList ++ ['>']) := by
    simp
  have hdash : '\n' ∉ List.replicate 78 '-' := by
    simp
  have hline : '\n' ∉ ' ' :: (generatedMark.toList ++ ['>']) := by
    simp [generatedMark]
  unfold tokenize at h
  rw [hmore, toList_textOf_cons, toList_textOf_cons, hrule, hmark] at h
  simp only [List.cons_append] at h
  rw [tokenizeFrom_comment hdash] at h
  have hsecond := tokenizeFrom_comment hline ⟨2, true⟩ (textOf more).toList
  rw [List.cons_append] at hsecond
  rw [show Position.start.line + 1 = 2 from rfl, hsecond] at h
  cases hr : tokenizeFrom ⟨2 + 1, true⟩ (textOf more).toList with
  | error d => rw [hr] at h; cases h
  | ok rest =>
    rw [hr] at h
    cases h
    refine Text.occursIn_of_infix ?_
    refine ⟨'/' :: '/' :: List.replicate 78 '-' ++ '\n' :: '/' :: '/' :: [' '],
      '>' :: '\n' :: rest.leadingComments, ?_⟩
    simp [Lexed.push]

/-- What is read from a generated file is known as generated. -/
theorem isGenerated_file
    {l : Layout} {modelsNamespace file : String} {body : List String}
    {version : LanguageVersion} {unit : CompilationUnit}
    (h : parseUnit file (l.file modelsNamespace body) version = .ok unit) :
    unit.isGenerated = true := by
  unfold parseUnit at h
  split at h
  · rename_i u hu
    cases h
    unfold parseSource at hu
    cases hl : tokenize (l.file modelsNamespace body) with
    | error d => rw [hl] at hu; cases hu
    | ok lexed =>
      have hmark : Text.occursIn generatedMark.toList lexed.leadingComments = true := by
        unfold Layout.file at hl
        rw [List.append_assoc, List.append_assoc, List.append_assoc] at hl
        exact leadingComments_header hl
      rw [hl] at hu
      simp only [bind, Except.bind] at hu
      cases hc : checkTokens version lexed.tokens with
      | error d => rw [hc] at hu; cases hu
      | ok _ =>
        rw [hc] at hu
        simp only at hu
        split at hu
        · cases hu
        · cases hu
          exact hmark
  · cases h

end Generated
end ContentModels

import ContentModels.Proofs.DisplayText.Notes
import ContentModels.Proofs.Generated.TypeTexts
import ContentModels.Proofs.Parsing.Files

/-!
# Lines of generated code

Generated code is read line by line: what a line is read as does not depend on the lines
around it.  So the tokens of a piece of code are those of its lines, and notes and blank
lines have none.
-/

namespace ContentModels
namespace Generated

open CSharp CSharp.Parse

/-- Lines that are read as tokens which need no feature of the language. -/
structure LinesRead (lines : List String) (ks : List TokenKind) : Prop where
  reads : ReadsAs (textOf lines).toList (some ks)
  features : needNothing ks = true
  /-- Nothing reaches over the end of a line. -/
  closed : ∀ line ∈ lines, Closed (line.toList ++ ['\n'])

namespace LinesRead

variable {lines more : List String} {ks js : List TokenKind}

theorem nil : LinesRead [] [] := by
  refine ⟨?_, rfl, nofun⟩
  rw [toList_textOf]
  exact ReadsAs.nil

theorem append
    (h : LinesRead lines ks) (h' : LinesRead more js) :
    LinesRead (lines ++ more) (ks ++ js) := by
  refine ⟨?_, needNothing_append h.features h'.features, fun line hline => ?_⟩
  · rw [toList_textOf_append]
    exact h.reads.append h'.reads
  · exact (List.mem_append.1 hline).elim (h.closed line) (h'.closed line)

theorem line
    {line : String}
    (h : ReadsAs (line.toList ++ ['\n']) (some ks)) (hfeatures : needNothing ks = true) :
    LinesRead [line] ks := by
  refine ⟨?_, hfeatures, fun x hx => ?_⟩
  · rw [toList_textOf]
    simpa using h
  · exact List.mem_singleton.1 hx ▸ h.closed

theorem notes
    (h : ∀ line ∈ lines, isNote line = true) :
    LinesRead lines [] :=
  ⟨readsAs_notes h, rfl, fun line hline => (readsAs_note (h line hline)).closed⟩

theorem blank : LinesRead [""] [] :=
  .line (readsAs_line (by simp)) rfl

/-- A line that is a comment has no tokens. -/
theorem comment
    {line : String} {n : Nat} {rest : List Char}
    (hline : line.toList = List.replicate n '\t' ++ '/' :: '/' :: rest) (hrest : '\n' ∉ rest) :
    LinesRead [line] [] := by
  refine .line ?_ rfl
  rw [hline, List.append_assoc]
  exact (readsAs_comment hrest).tabs n

/-- The directives around the members that every class has. -/
theorem directive
    {line : String}
    (h : line ∈ ["#pragma warning disable 0109 // new is redundant",
      "#pragma warning restore 0109"]) :
    LinesRead [line] [] := by
  refine .line (readsAs_line ?_) rfl
  simp only [List.mem_cons, List.not_mem_nil, or_false] at h
  rcases h with rfl | rfl <;> decide +kernel

end LinesRead

/-! ## Texts as lexemes -/

namespace Lexeme

theorem allKinds_append
    (xs ys : List Lexeme) :
    allKinds (xs ++ ys) = (allKinds xs).bind fun ks => (allKinds ys).map (ks ++ ·) := by
  induction xs with
  | nil => cases h : allKinds ys <;> simp [allKinds, h]
  | cons x xs ih =>
    rw [List.cons_append, allKinds, allKinds, ih]
    cases x.kinds <;> cases allKinds xs <;> cases allKinds ys <;> simp

/-- A lexeme that is delimited whatever stands behind it does not count. -/
theorem chain_cons_of_fits
    {x : Lexeme}
    (h : ∀ y, x.fits y = true) (hend : x.fitsEnd = true) (ys : List Lexeme) :
    chain (x :: ys) = chain ys := by
  cases ys with
  | nil => exact hend
  | cons y ys => rw [chain, h y, Bool.true_and]

@[simp] theorem chain_tab
    (ys : List Lexeme) :
    chain (.tab :: ys) = chain ys :=
  chain_cons_of_fits (fun _ => rfl) rfl ys

@[simp] theorem chain_blank
    (ys : List Lexeme) :
    chain (.blank :: ys) = chain ys :=
  chain_cons_of_fits (fun _ => rfl) rfl ys

@[simp] theorem chain_arrow
    (ys : List Lexeme) :
    chain (.arrow :: ys) = chain ys :=
  chain_cons_of_fits (fun _ => rfl) rfl ys

/-- A lexeme that is delimited by the next one does not count. -/
theorem chain_of_fits
    {x y : Lexeme}
    (h : x.fits y = true) (ys : List Lexeme) :
    chain (x :: y :: ys) = chain (y :: ys) := by
  rw [chain, h, Bool.true_and]

@[simp] theorem chain_cons_blank
    (x : Lexeme) (ys : List Lexeme) :
    chain (x :: .blank :: ys) = (x.fits .blank && chain ys) := by
  rw [chain, chain_blank]

end Lexeme

/-- A text that consists of lexemes, which are read as some tokens. -/
structure IsLexed (text : String) (xs : List Lexeme) (ks : List TokenKind) : Prop where
  text : text.toList = xs.flatMap Lexeme.text
  valid : ∀ x ∈ xs, x.Valid
  kinds : Lexeme.allKinds xs = some ks

theorem IsLexed.append
    {s t : String} {xs ys : List Lexeme} {ks js : List TokenKind}
    (h : IsLexed s xs ks) (h' : IsLexed t ys js) :
    IsLexed (s ++ t) (xs ++ ys) (ks ++ js) := by
  refine ⟨?_, ?_, ?_⟩
  · rw [String.toList_append, h.text, h'.text, List.flatMap_append]
  · intro x hx
    exact (List.mem_append.1 hx).elim (h.valid x) (h'.valid x)
  · rw [Lexeme.allKinds_append, h.kinds, h'.kinds]
    rfl

/-- A line, or the rest of one, that is read as tokens which need no feature. -/
structure LineRead (text : String) (ks : List TokenKind) : Prop where
  lexemes : ∃ xs, IsLexed text xs ks ∧ Lexeme.chain xs = true
  features : needNothing ks = true

/-- The beginning of a line that is read as tokens whatever stands behind it. -/
structure FrontRead (text : String) (ks : List TokenKind) : Prop where
  lexemes : ∃ xs, IsLexed text xs ks ∧ ∀ ys, Lexeme.chain (xs ++ ys) = Lexeme.chain ys
  features : needNothing ks = true

theorem LineRead.linesRead
    {line : String} {ks : List TokenKind}
    (h : LineRead line ks) :
    LinesRead [line] ks := by
  obtain ⟨xs, hxs, hchain⟩ := h.lexemes
  exact .line (hxs.kinds ▸ readsAs_lexemes hxs.text hxs.valid hchain) h.features

namespace FrontRead

variable {s t : String} {ks js : List TokenKind}

theorem append
    (h : FrontRead s ks) (h' : FrontRead t js) :
    FrontRead (s ++ t) (ks ++ js) := by
  obtain ⟨xs, hxs, hchain⟩ := h.lexemes
  obtain ⟨ys, hys, hchain'⟩ := h'.lexemes
  refine ⟨⟨xs ++ ys, hxs.append hys, fun zs => ?_⟩, needNothing_append h.features h'.features⟩
  rw [List.append_assoc, hchain, hchain']

theorem line
    (h : FrontRead s ks) (h' : LineRead t js) :
    LineRead (s ++ t) (ks ++ js) := by
  obtain ⟨xs, hxs, hchain⟩ := h.lexemes
  obtain ⟨ys, hys, hchain'⟩ := h'.lexemes
  exact ⟨⟨xs ++ ys, hxs.append hys, (hchain ys).trans hchain'⟩,
    needNothing_append h.features h'.features⟩

theorem tab : FrontRead "\t" [] :=
  ⟨⟨[.tab], ⟨rfl, by simp, rfl⟩, fun _ => by simp⟩, rfl⟩

theorem tabs : FrontRead "\t\t" [] :=
  ⟨⟨[.tab, .tab], ⟨rfl, by simp, rfl⟩, fun _ => by simp⟩, rfl⟩

/-- A word with a blank behind it. -/
theorem word
    {w : String}
    (h : isWord w = true) (hdefault : w ≠ "default") :
    FrontRead (w ++ " ") [.ident w false] := by
  refine ⟨⟨[.word w, .blank], ⟨by simp [Lexeme.text], by simp [h], rfl⟩, fun ys => ?_⟩, ?_⟩
  · rw [List.cons_append, List.cons_append, List.nil_append, Lexeme.chain_cons_blank]
    rfl
  · exact needNothing_of_forall (by simp [isFree, hdefault])

/-- Words with a blank behind each. -/
theorem words
    {ws : List String}
    (h : ∀ w ∈ ws, isWord w = true ∧ w ≠ "default") :
    FrontRead (String.join (ws.map (· ++ " "))) (wordKinds ws) := by
  induction ws with
  | nil => exact ⟨⟨[], ⟨rfl, nofun, rfl⟩, fun _ => rfl⟩, rfl⟩
  | cons w ws ih =>
    obtain ⟨hw, hdefault⟩ := h w List.mem_cons_self
    have hws := ih fun x hx => h x (List.mem_cons_of_mem _ hx)
    rw [List.map_cons, String.join_cons]
    exact (word hw hdefault).append hws

end FrontRead

/-! ## Expressions -/

/-- A text that is read as an expression in front of a semicolon. -/
structure ExpressionRead (text : String) (ks : List TokenKind) : Prop where
  lexemes : ∃ xs, IsLexed text xs ks ∧
    ∀ ys, Lexeme.chain (xs ++ .mark .semicolon :: ys) = Lexeme.chain (.mark .semicolon :: ys)
  features : needNothing ks = true
  expression : IsExpression ks

/-- The end of a line with an expression in front of a semicolon. -/
theorem ExpressionRead.line
    {text rest : String} {ks js : List TokenKind} {ys : List Lexeme}
    (h : ExpressionRead text ks) (hrest : IsLexed rest ys js)
    (hchain : Lexeme.chain (.mark .semicolon :: ys) = true) (hjs : needNothing js = true) :
    LineRead (text ++ (";" ++ rest)) (ks ++ .punct .semicolon :: js) := by
  obtain ⟨xs, hxs, hxchain⟩ := h.lexemes
  have hsemicolon : IsLexed ";" [.mark .semicolon] [.punct .semicolon] :=
    ⟨rfl, by simp [Piece.simpleMarks], rfl⟩
  refine ⟨⟨xs ++ .mark .semicolon :: ys, hxs.append (hsemicolon.append hrest), ?_⟩,
    needNothing_append h.features (@needNothing_append [.punct .semicolon] _ rfl hjs)⟩
  rw [hxchain, hchain]

end Generated
end ContentModels

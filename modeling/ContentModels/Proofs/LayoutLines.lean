import ContentModels.Proofs.Generated.Text
import ContentModels.Proofs.Parsing.Directives

/-!
# Files behind blank and comment lines

Lines of blanks and comments in front of a file have no tokens.  So the file is read as it
is without them: what it declares, or the fault that it has, stands as many lines further
down as there are line feeds in front of it, and nothing else changes
(`parseUnit_behind_layout`).  Comments in front of a file also say whether a tool has written
it, which is why the mark of tools must not occur in them.
-/

namespace ContentModels

namespace Text

theorem occursIn_iff_infix
    {part cs : List Char} :
    occursIn part cs = true ↔ part <:+: cs := by
  refine ⟨fun h => ?_, occursIn_of_infix⟩
  induction cs with
  | nil =>
    obtain rfl := List.isEmpty_iff.1 h
    exact List.nil_infix
  | cons c cs ih =>
    rw [occursIn, Bool.or_eq_true] at h
    rcases h with h | h
    · exact (List.isPrefixOf_iff_prefix.1 h).isInfix
    · exact List.infix_cons (ih h)

/-- An occurrence that a line feed parts is an occurrence on one side of it. -/
theorem infix_append_newline
    {part cs ds : List Char}
    (hpart : '\n' ∉ part) :
    part <:+: cs ++ '\n' :: ds ↔ part <:+: cs ∨ part <:+: ds := by
  constructor
  · rintro ⟨before, after, h⟩
    rw [List.append_assoc] at h
    rcases List.append_eq_append_iff.1 h with ⟨x, rfl, hx⟩ | ⟨x, rfl, hx⟩
    · rcases List.append_eq_append_iff.1 hx with ⟨y, rfl, -⟩ | ⟨y, rfl, hy⟩
      · exact .inl ⟨before, y, by simp⟩
      · cases y with
        | nil => exact .inl ⟨before, [], by simp⟩
        | cons c y =>
          obtain ⟨rfl, -⟩ := List.cons.inj hy
          exact absurd (by simp) hpart
    · cases x with
      | nil =>
        cases part with
        | nil => exact .inl (List.nil_infix)
        | cons c part =>
          obtain ⟨rfl, -⟩ := List.cons.inj hx
          exact absurd (by simp) hpart
      | cons c x =>
        obtain ⟨-, rfl⟩ := List.cons.inj hx
        exact .inr ⟨x, after, by simp⟩
  · rintro (h | h)
    · exact h.trans (List.infix_append' [] cs ('\n' :: ds))
    · exact h.trans ⟨cs ++ ['\n'], [], by simp⟩

end Text

/-- A failure some lines further down, if it is one of a source text. -/
def Failure.moved (n : Nat) : Failure → Failure
  | .compilation file d => .compilation file (d.moved n)
  | f => f

namespace CSharp

open Parse

/-! ## Blanks and comments -/

/-- Blanks and comments, of which the last may be a comment up to the end of its line. -/
inductive Layout : List Char → Prop where
  | nil : Layout []
  | blank {c : Char} {cs : List Char} (hc : Piece.isSpace c = true) (h : Layout cs) :
    Layout (c :: cs)
  | lineComment {text cs : List Char} (htext : '\n' ∉ text) (h : Layout cs) :
    Layout ('/' :: '/' :: (text ++ '\n' :: cs))
  | blockComment {text cs : List Char} (htext : ¬ ['*', '/'] <:+: text) (h : Layout cs) :
    Layout ('/' :: '*' :: (text ++ '*' :: '/' :: cs))

/-- Whole lines of blanks and comments. -/
structure LayoutLines (w : String) : Prop where
  layout : Layout w.toList
  ends : ∀ c ∈ w.toList.getLast?, c = '\n'

/-- A block comment ends at its first closing mark. -/
theorem readBlockComment_of_closed
    {text : List Char} (htext : ¬ ['*', '/'] <:+: text) (ds : List Char) :
    Piece.readBlockComment (text ++ '*' :: '/' :: ds) = some (text, text.length + 2) := by
  induction text with
  | nil => rfl
  | cons c text ih =>
    have hrest : ¬ ['*', '/'] <:+: text := fun h => htext (h.trans (List.infix_cons (List.infix_refl _)))
    rw [List.cons_append, Piece.readBlockComment, ih hrest]
    · rfl
    · intro rest hc hcs
      refine htext ?_
      cases text with
      | nil => exact absurd (List.cons.inj hcs).1 (by decide)
      | cons e text =>
        obtain ⟨rfl, -⟩ := List.cons.inj hcs
        exact ⟨[], text, by rw [hc]; rfl⟩

/-- A block comment is read as a comment, and what follows it stands behind it. -/
theorem tokenizeFrom_blockComment
    {text : List Char} (htext : ¬ ['*', '/'] <:+: text) (p : Position) (ds : List Char) :
    tokenizeFrom p ('/' :: '*' :: (text ++ '*' :: '/' :: ds)) =
      (tokenizeFrom (p.after ('/' :: '*' :: (text ++ ['*', '/']))) ds).map
        (Lexed.push p.line (.comment text)) := by
  have hread : Piece.read p.fresh '/' ('*' :: (text ++ '*' :: '/' :: ds)) =
      .ok (.comment text, text.length + 4) := by
    unfold Piece.read
    rw [if_neg (by decide), if_neg (by simp), if_pos (by simp)]
    simp only [List.drop_succ_cons, List.drop_zero, readBlockComment_of_closed htext ds]
  have hsplit : '/' :: '*' :: (text ++ '*' :: '/' :: ds) =
      ('/' :: '*' :: (text ++ ['*', '/'])) ++ ds := by
    simp
  rw [tokenizeFrom_cons, hread]
  simp only
  rw [hsplit, List.take_left' (by simp)]
  congr 2
  rw [show text.length + 4 - 1 = (text ++ ['*', '/']).length + 1 by simp, List.drop_succ_cons,
    show text ++ '*' :: '/' :: ds = (text ++ ['*', '/']) ++ ds by simp, List.drop_left]

/-- Blanks and comments have no tokens; a mark that does not occur in them is not in their comments. -/
theorem Layout.exists_comments
    {cs : List Char} (h : Layout cs) :
    ∃ comments : List Char,
      (∀ p ds, tokenizeFrom p (cs ++ ds) =
        (tokenizeFrom (p.after cs) ds).map (Lexed.append ⟨[], comments⟩)) ∧
      ∀ mark, '\n' ∉ mark → ¬ mark <:+: cs → ∀ ds, mark <:+: comments ++ ds ↔ mark <:+: ds := by
  induction h with
  | nil =>
    refine ⟨[], fun p ds => ?_, fun mark _ _ ds => .rfl⟩
    rw [List.nil_append, Position.after_nil]
    cases tokenizeFrom p ds <;> rfl
  | @blank c cs hc _ ih =>
    obtain ⟨comments, htokens, hmark⟩ := ih
    refine ⟨comments, fun p ds => ?_, fun mark hline hnot =>
      hmark mark hline fun h => hnot (h.trans (List.infix_cons (List.infix_refl _)))⟩
    rw [List.cons_append, tokenizeFrom_blank hc, htokens, Position.after_cons]
  | @lineComment text cs htext _ ih =>
    obtain ⟨comments, htokens, hmark⟩ := ih
    refine ⟨'/' :: '/' :: text ++ '\n' :: comments, fun p ds => ?_, fun mark hline hnot ds => ?_⟩
    · have hpos : p.after ('/' :: '/' :: (text ++ '\n' :: cs)) =
          Position.after ⟨p.line + 1, true⟩ cs := by
        have hmem : '\n' ∉ '/' :: '/' :: text := by simpa using htext
        have hnext : (p.after ('/' :: '/' :: text)).next '\n' = ⟨p.line + 1, true⟩ := by
          rw [Position.next, if_pos rfl, Position.after_line hmem]
        rw [← hnext, ← Position.after_cons, ← Position.after_append]
        rfl
      rw [show '/' :: '/' :: (text ++ '\n' :: cs) ++ ds = '/' :: '/' :: (text ++ '\n' :: (cs ++ ds))
        by simp, tokenizeFrom_comment htext, htokens, hpos]
      cases tokenizeFrom (Position.after ⟨p.line + 1, true⟩ cs) ds with
      | error d => rfl
      | ok l => simp [Except.map, Lexed.append, Lexed.push]
    · have htext' : ¬ mark <:+: '/' :: '/' :: text := fun h =>
        hnot (h.trans ⟨[], '\n' :: cs, by simp⟩)
      have hcs : ¬ mark <:+: cs := fun h => hnot (h.trans ⟨'/' :: '/' :: text ++ ['\n'], [], by simp⟩)
      rw [show '/' :: '/' :: text ++ '\n' :: comments ++ ds =
        '/' :: '/' :: text ++ '\n' :: (comments ++ ds) by simp, Text.infix_append_newline hline,
        hmark mark hline hcs ds]
      exact or_iff_right htext'
  | @blockComment text cs htext _ ih =>
    obtain ⟨comments, htokens, hmark⟩ := ih
    refine ⟨text ++ '\n' :: comments, fun p ds => ?_, fun mark hline hnot ds => ?_⟩
    · have hpos : (p.after ('/' :: '*' :: (text ++ ['*', '/']))).after cs =
          p.after ('/' :: '*' :: (text ++ '*' :: '/' :: cs)) := by
        rw [← Position.after_append]
        simp
      rw [show '/' :: '*' :: (text ++ '*' :: '/' :: cs) ++ ds =
        '/' :: '*' :: (text ++ '*' :: '/' :: (cs ++ ds)) by simp,
        tokenizeFrom_blockComment htext, htokens, hpos]
      cases tokenizeFrom (p.after ('/' :: '*' :: (text ++ '*' :: '/' :: cs))) ds with
      | error d => rfl
      | ok l => simp [Except.map, Lexed.append, Lexed.push]
    · have htext' : ¬ mark <:+: text := fun h =>
        hnot (h.trans ⟨['/', '*'], '*' :: '/' :: cs, by simp⟩)
      have hcs : ¬ mark <:+: cs := fun h =>
        hnot (h.trans ⟨'/' :: '*' :: (text ++ ['*', '/']), [], by simp⟩)
      rw [List.append_assoc, List.cons_append, Text.infix_append_newline hline,
        hmark mark hline hcs ds]
      exact or_iff_right htext'

/-- Behind whole lines a text starts as far down as there are line feeds in them. -/
theorem after_of_ends
    {cs : List Char} (h : ∀ c ∈ cs.getLast?, c = '\n') :
    Position.start.after cs = Position.start.moved (cs.count '\n') := by
  rcases List.eq_nil_or_concat' cs with rfl | ⟨front, c, rfl⟩
  · rfl
  · obtain rfl := h c (by simp)
    rw [Position.after_append, Position.after_cons, Position.after_nil, Position.next, if_pos rfl,
      Position.line_after, List.count_append]
    rfl

/-! ## Files -/

/-- A file some lines further down. -/
def CompilationUnit.lowered (n : Nat) (u : CompilationUnit) : CompilationUnit :=
  { u with
    assemblyAttributes := u.assemblyAttributes.map (.moved n)
    types := u.types.map (.moved n []) }

theorem moves_fileContents
    (n : Nat) :
    Moves n (.moved n [] []) fileContents fileContents := by
  unfold fileContents
  exact Moves.nested fun depth => @moves_namespaceMembersAt n [] depth "" [] false

/-- What is read of the tokens of a file some lines further down. -/
theorem fileContents_moved
    (n : Nat) (version : LanguageVersion) (ts : List Token) :
    fileContents ⟨version, endLine (ts.map (.moved n))⟩ (ts.map (.moved n)) =
      movedAnswer n (.moved n [] []) (fileContents ⟨version, endLine ts⟩ ts) := by
  cases ts with
  | nil => rfl
  | cons t ts =>
    have hend : endLine ((t :: ts).map (.moved n)) = endLine (t :: ts) + n :=
      endLine_append [] (List.cons_ne_nil t ts) n
    rw [hend]
    exact moves_fileContents n ⟨version, endLine (t :: ts)⟩ (t :: ts)

/-- What is lexed behind whole lines of blanks and comments. -/
theorem tokenize_behind_layout
    {w : String} (hw : LayoutLines w)
    (hmark : Text.occursIn generatedMark.toList w.toList = false) :
    ∃ comments : List Char,
      (∀ cs, Text.occursIn generatedMark.toList (comments ++ cs) =
        Text.occursIn generatedMark.toList cs) ∧
      ∀ source, tokenize (w ++ source) =
        (((tokenize source).mapError (.moved (w.toList.count '\n'))).map
          (.moved (w.toList.count '\n'))).map (Lexed.append ⟨[], comments⟩) := by
  obtain ⟨comments, htokens, hcomments⟩ := hw.layout.exists_comments
  refine ⟨comments, fun cs => ?_, fun source => ?_⟩
  · have hnot : ¬ generatedMark.toList <:+: w.toList := fun h =>
      Bool.false_ne_true (hmark.symm.trans (Text.occursIn_of_infix h))
    rw [Bool.eq_iff_iff, Text.occursIn_iff_infix, Text.occursIn_iff_infix]
    exact hcomments _ (by decide) hnot cs
  · unfold tokenize
    rw [String.toList_append, htokens, after_of_ends hw.ends, tokenizeFrom_moved]

/--
Whole lines of blanks and comments in front of a file, in which no tool has left its mark, move
what is read of the file, or the fault that it has, by the number of their line feeds.
-/
theorem parseUnit_behind_layout
    {w : String} (hw : LayoutLines w)
    (hmark : Text.occursIn generatedMark.toList w.toList = false)
    (file source : String) (version : LanguageVersion) :
    parseUnit file (w ++ source) version =
      ((parseUnit file source version).mapError (.moved (w.toList.count '\n'))).map
        (.lowered (w.toList.count '\n')) := by
  obtain ⟨comments, hcomments, htokens⟩ := tokenize_behind_layout hw hmark
  generalize w.toList.count '\n' = n at htokens ⊢
  unfold parseUnit parseSource
  rw [htokens source]
  cases tokenize source with
  | error d => rfl
  | ok lexed =>
    have hcontents := fileContents_moved n version lexed.tokens
    simp only [Except.mapError, Except.map, bind, Except.bind, Lexed.append, Lexed.moved,
      List.nil_append, if_true, checkTokens_moved, hcomments]
    cases checkTokens version lexed.tokens with
    | error d => rfl
    | ok _ =>
      unfold endLine at hcontents
      simp only [hcontents]
      cases fileContents ⟨version, (lexed.tokens.getLast?.map (·.line)).getD 1⟩ lexed.tokens with
      | error d => rfl
      | ok x => rfl

/-- Four lines of comments and blanks in front of a class with a field. -/
theorem parseUnit_behind_layout_page :
    LayoutLines "// a\n\t\n/* b\n */\n" ∧
    Text.occursIn generatedMark.toList "// a\n\t\n/* b\n */\n".toList = false ∧
    parseUnit "Page.cs" ("// a\n\t\n/* b\n */\n" ++ "class Page\n{ int x; }") .latest =
      ((parseUnit "Page.cs" "class Page\n{ int x; }" .latest).mapError (.moved 4)).map (.lowered 4) ∧
    (parseUnit "Page.cs" "class Page\n{ int x; }" .latest).isOk = true := by
  have hlayout : Layout ('/' :: '/' :: ([' ', 'a'] ++ '\n' :: '\t' :: '\n' ::
      '/' :: '*' :: ([' ', 'b', '\n', ' '] ++ '*' :: '/' :: ['\n']))) :=
    .lineComment (by decide) (.blank (by decide) (.blank (by decide)
      (.blockComment (by decide) (.blank (by decide) .nil))))
  have hlast : "// a\n\t\n/* b\n */\n".toList.getLast? = some '\n' := rfl
  have hlines : LayoutLines "// a\n\t\n/* b\n */\n" := ⟨hlayout, by rw [hlast]; simp⟩
  have hmark : Text.occursIn generatedMark.toList "// a\n\t\n/* b\n */\n".toList = false := by
    decide
  have hcount : "// a\n\t\n/* b\n */\n".toList.count '\n' = 4 := by decide
  have hbehind := parseUnit_behind_layout hlines hmark "Page.cs" "class Page\n{ int x; }" .latest
  rw [hcount] at hbehind
  exact ⟨hlines, hmark, hbehind, by decide +kernel⟩

end CSharp

end ContentModels

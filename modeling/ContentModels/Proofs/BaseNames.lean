import ContentModels.Proofs.DuplicateTypes
import ContentModels.Proofs.Parsing.NameSegments
import ContentModels.Proofs.WrittenNames

/-!
# Names of base types

The entry of a base list is recorded by what its text shows behind the last dot or colon before
the first angle bracket.  These are the last segment of the name and what stands behind it
exactly if no segment in front of it has type arguments (`displayName_of_typeName`); otherwise
they start at the first segment that has some.
-/

namespace ContentModels
namespace CSharp

/-! ## What a text shows -/

namespace TypeName

variable {cs ds : List Char} {c : Char}

/-- What follows the last dot or colon before the first angle bracket. -/
def shown (cs : List Char) : List Char :=
  afterLastQualifier (cs.takeWhile (· != '<')) ++ cs.dropWhile (· != '<')

theorem afterLastQualifier_append
    (hc : c = '.' ∨ c = ':') (cs ds : List Char) :
    afterLastQualifier (cs ++ c :: ds) = afterLastQualifier ds := by
  have hstop : (c :: cs.reverse).takeWhile (fun c => c != '.' && c != ':') = [] := by
    rcases hc with rfl | rfl <;> rfl
  unfold afterLastQualifier
  rw [List.reverse_append, List.reverse_cons, List.append_assoc, List.singleton_append,
    List.takeWhile_append, hstop, List.append_nil]
  split
  · rename_i hall
    rw [(List.takeWhile_sublist _).eq_of_length hall]
  · rfl

/-- What stands in front of a dot or a colon is not shown. -/
theorem shown_append
    (hc : c = '.' ∨ c = ':') (hcs : '<' ∉ cs) (ds : List Char) :
    shown (cs ++ c :: ds) = shown ds := by
  have hfront : ∀ x ∈ cs ++ [c], (x != '<') = true := by
    intro x hx
    rw [bne_iff_ne]
    rintro rfl
    rcases List.mem_append.1 hx with hx | hx
    · exact hcs hx
    · rcases hc with rfl | rfl <;> simp at hx
  have hsplit : cs ++ c :: ds = (cs ++ [c]) ++ ds := by simp
  unfold shown
  rw [hsplit, List.takeWhile_append_of_pos hfront, List.dropWhile_append_of_pos hfront,
    List.append_assoc, List.singleton_append, afterLastQualifier_append hc]

/-- The mark of the global namespace ends in a colon, so it is not shown anyway. -/
theorem shown_dropGlobalMarks
    (cs : List Char) :
    shown (dropGlobalMarks cs) = shown cs := by
  fun_induction dropGlobalMarks cs with
  | case1 cs hprefix ih =>
    obtain ⟨ds, rfl⟩ := List.isPrefixOf_iff_prefix.1 hprefix
    rw [List.drop_left] at ih
    rw [List.drop_left, ih]
    exact (shown_append (.inr rfl) (by decide) ds : shown ("global:".toList ++ ':' :: ds) = _).symm
  | case2 => rfl

theorem displayName_eq
    (t : TypeName) :
    t.displayName = String.ofList (shown t.text.toList) := by
  rw [← shown_dropGlobalMarks]
  rfl

/-- A text without dots and colons before the first angle bracket is shown as a whole. -/
theorem shown_of_unqualified
    (h : ∀ c ∈ cs.takeWhile (· != '<'), c ≠ '.' ∧ c ≠ ':') :
    shown cs = cs := by
  have hall : ∀ c ∈ (cs.takeWhile (· != '<')).reverse, (c != '.' && c != ':') = true := by
    intro c hc
    simpa using h c (List.mem_reverse.1 hc)
  unfold shown afterLastQualifier
  rw [List.takeWhile_eq_self_iff.2 hall, List.reverse_reverse, List.takeWhile_append_dropWhile]

end TypeName

/-! ## The texts of tokens -/

variable {ts : List Token} {ctx : ParseContext}

/-- Tokens that can stand behind a word without a blank. -/
def StartsWithoutWord (ts : List Token) : Prop :=
  ∀ t ∈ ts.head?, t.kind.isWord = false

theorem startsWithoutWord_of_punct
    {t : Token} {p : Punct} (h : t.kind = .punct p) (ts : List Token) :
    StartsWithoutWord (t :: ts) := by
  rintro _ ⟨⟩
  rw [h]
  rfl

theorem render_word
    (w : String) (b : Bool) (l : Nat) (h : StartsWithoutWord ts) :
    render (⟨.ident w b, l⟩ :: ts) = w ++ render ts := by
  have hflag : renderings true ts = renderings false ts := by
    cases ts with
    | nil => rfl
    | cons t ts => simp [renderings, h t rfl]
  unfold render
  rw [renderings]
  simp [TokenKind.isWord, TokenKind.text, hflag]

theorem render_punct
    {t : Token} {p : Punct} (h : t.kind = .punct p) (ts : List Token) :
    render (t :: ts) = p.text ++ render ts := by
  unfold render
  rw [renderings, h]
  simp [TokenKind.isWord, TokenKind.text]

/-- A mark divides the text of tokens. -/
theorem render_append_punct
    {t : Token} {p : Punct} (h : t.kind = .punct p) (ts us : List Token) :
    render (ts ++ t :: us) = render ts ++ render (t :: us) := by
  have hrenderings : ∀ afterWord, renderings afterWord (ts ++ t :: us) =
      renderings afterWord ts ++ renderings false (t :: us) := by
    induction ts with
    | nil =>
      intro afterWord
      simp [renderings, h, TokenKind.isWord]
    | cons s ts ih =>
      intro afterWord
      rw [List.cons_append, renderings, renderings, ih, List.cons_append]
  unfold render
  rw [hrenderings, String.join_append]

/-! ## What a written name shows -/

/-- A word that nothing in it divides. -/
def IsUndivided (w : String) : Prop :=
  ∀ c ∈ w.toList, c ≠ '.' ∧ c ≠ ':' ∧ c ≠ '<'

instance (w : String) : Decidable (IsUndivided w) :=
  decidable_of_iff (w.toList.all fun c => c != '.' && (c != ':' && c != '<'))
    (by simp [IsUndivided])

theorem TokenKind.WellFormed.isUndivided
    {w : String} {verbatim : Bool} (h : (TokenKind.ident w verbatim).WellFormed) :
    IsUndivided w := by
  intro c hc
  have hpart := h.2 c hc
  refine ⟨?_, ?_, ?_⟩ <;> rintro rfl <;> revert hpart <;> decide

theorem exists_of_isMark
    {marks : List Punct} {k : TokenKind} (h : isMark marks (some k)) :
    ∃ p ∈ marks, k = .punct p := by
  cases k with
  | punct p => exact ⟨p, h, rfl⟩
  | ident | str | character | number => cases h

/-- What stands between segments ends in a dot or a colon. -/
theorem text_of_separators
    {k : TokenKind} (h : isMark separators (some k)) :
    ∃ p, k = .punct p ∧ ∃ cs c, p.text.toList = cs ++ [c] ∧ (c = '.' ∨ c = ':') ∧ '<' ∉ cs := by
  obtain ⟨p, hp, rfl⟩ := exists_of_isMark h
  simp only [separators, List.mem_cons, List.not_mem_nil, or_false] at hp
  rcases hp with rfl | rfl
  · exact ⟨_, rfl, [], '.', rfl, .inl rfl, List.not_mem_nil⟩
  · exact ⟨_, rfl, [':'], ':', rfl, .inr rfl, by decide⟩

/-- Nothing in the suffixes of a type qualifies a name. -/
theorem render_suffixes
    (h : ∀ t ∈ ts, isMark suffixMarks (some t.kind)) :
    StartsWithoutWord ts ∧ ∀ c ∈ (render ts).toList, c ≠ '.' ∧ c ≠ ':' := by
  have htexts : ∀ p ∈ suffixMarks, p.text.toList.all (fun c => c != '.' && c != ':') = true := by
    decide
  induction ts with
  | nil => exact ⟨nofun, nofun⟩
  | cons t ts ih =>
    obtain ⟨ht, hts⟩ := List.forall_mem_cons.1 h
    obtain ⟨p, hp, hk⟩ := exists_of_isMark ht
    refine ⟨startsWithoutWord_of_punct hk ts, ?_⟩
    rw [render_punct hk, String.toList_append]
    refine List.forall_mem_append.2 ⟨fun c hc => ?_, (ih hts).2⟩
    simpa using List.all_eq_true.1 (htexts p hp) c hc

/-- A segment without type arguments is not shown if a dot or a double colon follows it. -/
theorem shown_segment
    {w : String} {b : Bool} {l : Nat} {mark : Token} (hw : IsUndivided w)
    (hmark : isMark separators (some mark.kind)) (ts : List Token) :
    TypeName.shown (render (⟨.ident w b, l⟩ :: mark :: ts)).toList =
      TypeName.shown (render ts).toList := by
  obtain ⟨p, hp, cs, c, htext, hc, hcs⟩ := text_of_separators hmark
  have hfront : '<' ∉ w.toList ++ cs := by
    rw [List.mem_append, not_or]
    exact ⟨fun hmem => (hw _ hmem).2.2 rfl, hcs⟩
  have htext : (render (⟨.ident w b, l⟩ :: mark :: ts)).toList =
      (w.toList ++ cs) ++ c :: (render ts).toList := by
    rw [render_word w b l (startsWithoutWord_of_punct hp ts), render_punct hp,
      String.toList_append, String.toList_append, htext]
    simp
  rw [htext, TypeName.shown_append hc hfront]

namespace Parse

theorem headKind_of_typeArguments
    {arity : Nat} {rest : List Token} (h : typeArguments ctx ts = .ok (arity, rest)) :
    headKind ts = some (.punct .less) := by
  unfold typeArguments nested at h
  rw [typeArgumentsAt_succ, expect_bind] at h
  split at h
  · assumption
  · cases h

end Parse

open Parse

namespace NameSegment

variable {s : NameSegment}

theorem IsRead.headKind_arguments
    (h : s.IsRead ctx) (hne : s.arguments ≠ []) :
    headKind s.arguments = some (.punct .less) := by
  rcases h with ⟨hnone, -⟩ | hread
  · exact absurd hnone hne
  · exact headKind_of_typeArguments hread

/-- Behind the word of a segment no other word follows. -/
theorem IsRead.render_tokens
    (h : s.IsRead ctx) (hts : StartsWithoutWord ts) :
    render (s.tokens ++ ts) = s.word ++ render (s.arguments ++ ts) := by
  refine render_word s.word s.verbatim s.line ?_
  by_cases hne : s.arguments = []
  · rwa [hne]
  · obtain ⟨l, us, heq⟩ := headKind_eq_some.1 (h.headKind_arguments hne)
    rw [heq]
    exact startsWithoutWord_of_punct rfl _

/-- A segment is shown, with all that stands behind it, if it has type arguments. -/
theorem IsRead.shown_generic
    (h : s.IsRead ctx) (hw : IsUndivided s.word) (hne : s.arguments ≠ [])
    (hts : StartsWithoutWord ts) :
    TypeName.shown (render (s.tokens ++ ts)).toList = (render (s.tokens ++ ts)).toList := by
  obtain ⟨l, us, heq⟩ := headKind_eq_some.1 (h.headKind_arguments hne)
  have htext : (render (s.tokens ++ ts)).toList =
      s.word.toList ++ '<' :: (render (us ++ ts)).toList := by
    rw [h.render_tokens hts, heq, List.cons_append, render_punct rfl, String.toList_append,
      String.toList_append]
    rfl
  have hfront : ∀ c ∈ s.word.toList, (c != '<') = true :=
    fun c hc => bne_iff_ne.2 (hw c hc).2.2
  refine TypeName.shown_of_unqualified ?_
  rw [htext, List.takeWhile_append_of_pos hfront, List.takeWhile_cons_of_neg (by simp),
    List.append_nil]
  exact fun c hc => ⟨(hw c hc).1, (hw c hc).2.1⟩

/-- A segment is shown, with all that stands behind it, if only suffixes do. -/
theorem IsRead.shown_plain
    (h : s.IsRead ctx) (hw : IsUndivided s.word) (hnone : s.arguments = [])
    (hts : ∀ t ∈ ts, isMark suffixMarks (some t.kind)) :
    TypeName.shown (render (s.tokens ++ ts)).toList = (render (s.tokens ++ ts)).toList := by
  obtain ⟨hstarts, hchars⟩ := render_suffixes hts
  refine TypeName.shown_of_unqualified fun c hc => ?_
  have hmem := (List.takeWhile_sublist _).subset hc
  rw [h.render_tokens hstarts, hnone, List.nil_append, String.toList_append,
    List.mem_append] at hmem
  exact hmem.elim (fun hmem => ⟨(hw c hmem).1, (hw c hmem).2.1⟩) (hchars c)

end NameSegment

namespace WrittenName

variable {n : WrittenName}

/-- No segment in front of the last one has type arguments. -/
def IsPlainlyQualified (n : WrittenName) : Prop :=
  ∀ q ∈ n.qualifiers, q.arguments = []

/-- The segments in front of the first one with type arguments. -/
def hidden (n : WrittenName) : List Qualifier :=
  n.qualifiers.takeWhile (·.arguments.isEmpty)

/-- The segments from the first one with type arguments on, but for the last one of the name. -/
def visible (n : WrittenName) : List Qualifier :=
  n.qualifiers.dropWhile (·.arguments.isEmpty)

/-- The name from its first segment with type arguments on, or else its last segment. -/
def shownTokens (n : WrittenName) : List Token :=
  n.visible.flatMap Qualifier.tokens ++ n.lastTokens

theorem hidden_append_visible
    (n : WrittenName) :
    n.hidden ++ n.visible = n.qualifiers :=
  List.takeWhile_append_dropWhile

theorem arguments_of_mem_hidden
    {q : Qualifier} (h : q ∈ n.hidden) :
    q.arguments = [] :=
  List.isEmpty_iff.1 (List.mem_takeWhile_imp (p := fun q : Qualifier => q.arguments.isEmpty) h)

theorem arguments_of_visible
    {q : Qualifier} {qs : List Qualifier} (h : n.visible = q :: qs) :
    q.arguments ≠ [] := by
  have hnot := List.head?_dropWhile_not (fun q : Qualifier => q.arguments.isEmpty) n.qualifiers
  unfold visible at h
  rw [h] at hnot
  simpa using hnot

theorem visible_eq_nil_iff :
    n.visible = [] ↔ n.IsPlainlyQualified := by
  unfold visible IsPlainlyQualified
  simp [List.dropWhile_eq_nil_iff]

theorem tokens_eq
    (n : WrittenName) :
    n.tokens = n.start ++ (n.hidden.flatMap Qualifier.tokens ++ n.shownTokens) := by
  unfold tokens shownTokens
  rw [← n.hidden_append_visible, List.flatMap_append, List.append_assoc]

/-- The words of a name are not divided. -/
structure IsWorded (n : WrittenName) : Prop where
  qualifiers : ∀ q ∈ n.qualifiers, IsUndivided q.word
  last : IsUndivided n.last.word

/-- Segments without type arguments are not shown if others follow them. -/
theorem shown_qualifiers
    {qs : List Qualifier} (h : ∀ q ∈ qs, q.arguments = []) (hwords : ∀ q ∈ qs, IsUndivided q.word)
    (hmarks : ∀ q ∈ qs, isMark separators (some q.mark.kind)) (ts : List Token) :
    TypeName.shown (render (qs.flatMap Qualifier.tokens ++ ts)).toList =
      TypeName.shown (render ts).toList := by
  induction qs with
  | nil => rfl
  | cons q qs ih =>
    obtain ⟨hq, hqs⟩ := List.forall_mem_cons.1 h
    obtain ⟨hw, hws⟩ := List.forall_mem_cons.1 hwords
    obtain ⟨hmark, hmarks⟩ := List.forall_mem_cons.1 hmarks
    have htokens : (q :: qs).flatMap Qualifier.tokens ++ ts =
        ⟨.ident q.word q.verbatim, q.line⟩ :: q.mark :: (qs.flatMap Qualifier.tokens ++ ts) := by
      simp [Qualifier.tokens, NameSegment.tokens, hq]
    rw [htokens, shown_segment hw hmark, ih hqs hws hmarks]

theorem IsRead.shown_start
    (h : n.IsRead ctx) (ts : List Token) :
    TypeName.shown (render (n.start ++ ts)).toList = TypeName.shown (render ts).toList := by
  rcases h.start with hnone | hglobal
  · rw [hnone, List.nil_append]
  · obtain ⟨l, us, hstart, hus⟩ := kindsOf_eq_cons.1 hglobal
    obtain ⟨l', vs, rfl, hvs⟩ := kindsOf_eq_cons.1 hus
    obtain rfl := kindsOf_eq_nil.1 hvs
    rw [hstart]
    exact shown_segment (by decide) (by simp [isMark, separators]) ts

/-- Where a name is shown from, all of it is shown. -/
theorem IsRead.shown_shownTokens
    (h : n.IsRead ctx) (hwords : n.IsWorded) :
    TypeName.shown (render n.shownTokens).toList = (render n.shownTokens).toList := by
  unfold shownTokens lastTokens
  cases hvisible : n.visible with
  | nil =>
    rw [List.flatMap_nil, List.nil_append]
    by_cases hnone : n.last.arguments = []
    · exact h.last.shown_plain hwords.last hnone h.suffixes
    · exact h.last.shown_generic hwords.last hnone (render_suffixes h.suffixes).1
  | cons q qs =>
    have hq : q ∈ n.qualifiers := by
      rw [← n.hidden_append_visible, hvisible]
      simp
    obtain ⟨hread, hmark⟩ := h.qualifiers q hq
    obtain ⟨p, hp, -⟩ := text_of_separators hmark
    rw [List.flatMap_cons, Qualifier.tokens, List.append_assoc, List.append_assoc,
      List.singleton_append]
    exact hread.shown_generic (hwords.qualifiers q hq) (arguments_of_visible hvisible)
      (startsWithoutWord_of_punct hp _)

/-- A name is shown from its first segment with type arguments on. -/
theorem IsRead.displayName_eq
    (h : n.IsRead ctx) (hwords : n.IsWorded) :
    n.typeName.displayName = render n.shownTokens := by
  have hmem : ∀ q ∈ n.hidden, q ∈ n.qualifiers := by
    intro q hq
    rw [← n.hidden_append_visible]
    exact List.mem_append_left _ hq
  have htext : n.typeName.text = render n.tokens := rfl
  -- What starts the name and the hidden segments end in marks, with no angle bracket in front.
  rw [TypeName.displayName_eq, htext, n.tokens_eq, h.shown_start,
    shown_qualifiers (fun _ => arguments_of_mem_hidden)
      (fun q hq => hwords.qualifiers q (hmem q hq)) (fun q hq => (h.qualifiers q (hmem q hq)).2),
    h.shown_shownTokens hwords, String.ofList_toList]

/-- Segments in front of others take room. -/
theorem exists_render_qualifiers
    {qs : List Qualifier} (hmarks : ∀ q ∈ qs, isMark separators (some q.mark.kind))
    (ts : List Token) :
    ∃ front, render (qs.flatMap Qualifier.tokens ++ ts) = front ++ render ts ∧
      (qs ≠ [] → front ≠ "") := by
  induction qs with
  | nil => exact ⟨"", by simp, fun h => absurd rfl h⟩
  | cons q qs ih =>
    obtain ⟨hmark, hmarks⟩ := List.forall_mem_cons.1 hmarks
    obtain ⟨front, hfront, -⟩ := ih hmarks
    obtain ⟨p, hp, cs, c, htext, -⟩ := text_of_separators hmark
    refine ⟨render q.toNameSegment.tokens ++ (p.text ++ front), ?_, fun _ hempty => ?_⟩
    · rw [List.flatMap_cons, Qualifier.tokens, List.append_assoc, List.append_assoc,
        List.singleton_append, render_append_punct hp, render_punct hp, hfront,
        String.append_assoc, String.append_assoc]
    · have hlist := congrArg String.toList hempty
      simp [htext] at hlist

/-- Exactly a name with no type arguments in front of its last segment is shown as that segment. -/
theorem IsRead.render_shownTokens_iff
    (h : n.IsRead ctx) :
    render n.shownTokens = n.last.word ++ render (n.last.arguments ++ n.suffixes) ↔
      n.IsPlainlyQualified := by
  have hmarks : ∀ q ∈ n.visible, isMark separators (some q.mark.kind) := by
    intro q hq
    refine (h.qualifiers q ?_).2
    rw [← n.hidden_append_visible]
    exact List.mem_append_right _ hq
  obtain ⟨front, hfront, hne⟩ := exists_render_qualifiers hmarks n.lastTokens
  have hlast : render n.lastTokens =
      n.last.word ++ render (n.last.arguments ++ n.suffixes) :=
    h.last.render_tokens (render_suffixes h.suffixes).1
  unfold shownTokens
  rw [← hlast, ← visible_eq_nil_iff]
  constructor
  · intro heq
    -- Texts of different lengths are not the same.
    have hempty : front.toList = [] := by
      have hlist := congrArg String.toList (hfront.symm.trans heq)
      rw [String.toList_append] at hlist
      exact List.self_eq_append_left.1 hlist.symm
    exact not_not.1 fun hvisible => hne hvisible (String.toList_eq_nil_iff.1 hempty)
  · intro hvisible
    rw [hvisible, List.flatMap_nil, List.nil_append]

end WrittenName

/-! ## What a name can denote -/

/-- A dotted name with a last segment. -/
def EndsIn (w s : String) : Prop :=
  ∃ segments : List String, s = ".".intercalate (segments ++ [w])

namespace EndsIn

variable {w s : String}

theorem intercalate
    (h : EndsIn w s) (names : List String) :
    EndsIn w (".".intercalate (names ++ [s])) := by
  obtain ⟨segments, rfl⟩ := h
  refine ⟨names ++ segments, ?_⟩
  cases names with
  | nil => rfl
  | cons n names =>
    rw [List.append_assoc,
      String.intercalate_append_of_ne_nil (l := n :: names) (by simp) (by simp),
      String.intercalate_append_of_ne_nil (l := n :: names) (by simp) (by simp)]
    rfl

theorem lastSegment_eq
    (h : EndsIn w s) (hw : '.' ∉ w.toList) :
    Text.lastSegment s = w := by
  obtain ⟨segments, rfl⟩ := h
  exact Text.lastSegment_intercalate hw

end EndsIn

theorem TypeName.endsIn_simpleName
    {name : TypeName} (h : name.path ≠ []) :
    EndsIn name.simpleName (".".intercalate name.path) := by
  refine ⟨name.path.dropLast, ?_⟩
  have hlast : name.simpleName = name.path.getLast h := by
    rw [TypeName.simpleName, List.getLast?_eq_some_getLast h, Option.getD_some]
  rw [hlast, List.dropLast_concat_getLast]

theorem TypeDeclaration.endsIn_name
    (u : TypeDeclaration) :
    EndsIn u.name u.fullName := by
  refine ⟨(if u.enclosing = "" then [] else [u.enclosing]) ++ u.containing, ?_⟩
  rw [List.append_assoc]
  rfl

/-- A name that no directive gives is looked up as the last segment of full names. -/
theorem Scope.endsIn_of_candidates
    {scope : Scope} {name : TypeName} {x : String × Nat} (hpath : name.path ≠ [])
    (hnamed : name.fromGlobal = true ∨ ∀ w ∈ name.path.head?, scope.aliasTarget? w = none)
    (hx : x ∈ scope.candidates name) :
    EndsIn name.simpleName x.1 := by
  have hends := TypeName.endsIn_simpleName hpath
  unfold candidates at hx
  cases hname : name.path with
  | nil => exact absurd hname hpath
  | cons first others =>
    rw [hname] at hx hends hnamed
    dsimp only at hx
    have hdirect : ∀ y ∈ (scope.nestedNames (".".intercalate (first :: others)) ++
        scope.namespaceNames (".".intercalate (first :: others))).map (·, name.arity),
        EndsIn name.simpleName y.1 := by
      intro y hy
      obtain ⟨full, hfull, rfl⟩ := List.mem_map.1 hy
      rcases List.mem_append.1 hfull with hfull | hfull
      · obtain ⟨types, -, rfl⟩ := List.mem_map.1 hfull
        exact hends.intercalate _
      · obtain ⟨segments, -, rfl⟩ := List.mem_map.1 hfull
        exact hends.intercalate _
    split at hx
    · rw [List.mem_singleton.1 hx]
      exact hends
    · rename_i hglobal
      rw [hnamed.resolve_left hglobal first rfl] at hx
      dsimp only at hx
      split at hx
      · rcases List.mem_append.1 hx with hx | hx
        · exact hdirect x hx
        · obtain ⟨full, hfull, rfl⟩ := List.mem_map.1 hx
          obtain ⟨d, -, rfl⟩ := List.mem_map.1 hfull
          exact hends.intercalate [_]
      · exact hdirect x hx

namespace Compilation

variable {c : Compilation} {r : FactReader} {sources : SourceFiles} {t u : TypeDeclaration}
  {name : TypeName}

theorem isSegment_of_compile
    (h : r.compile sources = .ok c) (hu : u ∈ c.declaredTypes) :
    IsSegment u.name := by
  obtain ⟨units, hunits, h⟩ := Outcome.bind_eq_ok.1 h
  obtain ⟨_, -, h⟩ := Outcome.bind_eq_ok.1 h
  cases h
  obtain ⟨unit, hunit, hu⟩ := List.mem_flatMap.1 hu
  obtain ⟨i, hi⟩ := List.mem_iff_getElem?.1 hunit
  obtain ⟨e, -, hread⟩ := Outcome.exists_of_mapM hunits hi
  obtain ⟨is, hplaced⟩ := Parse.exists_placed_of_parseUnit hread
  have hnamed : List.Forall₂ (fun t i => IsSegment t.name ∧ IsNamed t i) unit.types is :=
    List.Forall₂.imp (fun t i h => ⟨h.isSegment t.name (by simp [TypeDeclaration.path]), h⟩)
      hplaced.isNamed
  exact ((List.forall₂_and_left _ _).1 hnamed).1 u hu

/-- A name that no directive gives denotes a type of that name. -/
theorem name_of_resolve
    (h : r.compile sources = .ok c) (hu : u ∈ c.declaredTypes) (hpath : name.path ≠ [])
    (hword : '.' ∉ name.simpleName.toList) {scope : Scope}
    (hnamed : name.fromGlobal = true ∨ ∀ w ∈ name.path.head?, scope.aliasTarget? w = none)
    (hresolve : c.resolve name scope = some (.ofDeclaration u)) :
    u.name = name.simpleName := by
  obtain ⟨x, hx, hsymbol⟩ := List.exists_of_findSome?_eq_some hresolve
  have hfull : u.fullName = x.1 := fullName_of_symbol? hsymbol
  rw [← u.endsIn_name.lastSegment_eq (isSegment_of_compile h hu).2, hfull,
    (Scope.endsIn_of_candidates hpath hnamed hx).lastSegment_eq hword]

end Compilation

end CSharp

open CSharp CSharp.Parse

/-- Facts about a base are filed under the name of the class that it denotes. -/
structure FiledUnderName (name : TypeName) : Prop where
  recorded : ∀ (r : FactReader) (c : Compilation) (t : TypeDeclaration) (i : Nat),
    ∀ f ∈ r.baseFact c t i name,
      f = .ok (.interface t.name name.simpleName) ∨ f = .ok (.baseClass t.name name.simpleName)
  /-- The class is named as itself, and not by what a directive calls it. -/
  declared : ∀ (r : FactReader) (sources : SourceFiles) (c : Compilation),
    r.compile sources = .ok c → ∀ t, ∀ u ∈ c.declaredTypes,
      (name.fromGlobal = true ∨
        ∀ w ∈ name.path.head?, (Scope.ofType t).aliasTarget? w = none) →
      c.resolve name (.ofType t) = some (.ofDeclaration u) → u.name = name.simpleName

theorem FactReader.mem_baseFact
    {r : FactReader} {c : Compilation} {t : TypeDeclaration} {i : Nat} {name : TypeName}
    {f : Finding} (h : f ∈ r.baseFact c t i name) :
    f = .ok (.interface t.name name.displayName) ∨
      f = .ok (.baseClass t.name name.displayName) := by
  have hone : ∀ (isInterface isGenerated : Bool) (x y : Finding),
      f ∈ (if isInterface then [x] else if isGenerated then [] else [y]) → f = x ∨ f = y := by
    intro isInterface isGenerated x y hf
    cases isInterface <;> cases isGenerated <;> simp at hf <;> simp [hf]
  exact hone _ _ _ _ h

namespace CSharp

variable {source : String} {lexed : Lexed} {ctx : ParseContext} {ts rest : List Token}
  {name : TypeName}

theorem WrittenName.isWorded
    {n : WrittenName} (h : ∀ t ∈ n.tokens, t.kind.WellFormed) :
    n.IsWorded := by
  have hsegment : ∀ s : NameSegment, (∀ t ∈ s.tokens, t ∈ n.tokens) → IsUndivided s.word :=
    fun s hs => (h _ (hs _ List.mem_cons_self)).isUndivided
  constructor
  · refine fun q hq => hsegment q.toNameSegment fun t ht => ?_
    have hmem : t ∈ n.qualifiers.flatMap Qualifier.tokens :=
      List.mem_flatMap.2 ⟨q, hq, List.mem_append_left _ ht⟩
    simp [tokens, hmem]
  · refine hsegment n.last fun t ht => ?_
    simp [tokens, lastTokens, ht]

theorem WrittenName.IsRead.filedUnderName
    {n : WrittenName} (h : n.IsRead ctx) (hwords : n.IsWorded) (hplain : n.IsPlainlyQualified)
    (harguments : n.last.arguments = []) (hsuffixes : n.suffixes = []) :
    FiledUnderName n.typeName := by
  have hdisplay : n.typeName.displayName = n.typeName.simpleName := by
    rw [h.displayName_eq hwords, h.render_shownTokens_iff.2 hplain, harguments, hsuffixes,
      n.simpleName_typeName]
    exact String.append_empty
  have hdot : '.' ∉ n.typeName.simpleName.toList := by
    rw [n.simpleName_typeName]
    exact fun hmem => (hwords.last _ hmem).1 rfl
  constructor
  · intro r c t i f hf
    rw [← hdisplay]
    exact FactReader.mem_baseFact hf
  · intro r sources c hcompile t u hu hnamed hresolve
    exact Compilation.name_of_resolve hcompile hu (by simp [WrittenName.typeName]) hdot hnamed
      hresolve

/--
What a name shows wherever it is read: its last segment and what stands behind that, exactly if no
segment in front has type arguments, and otherwise also what stands in front from these on.
-/
theorem displayName_of_typeName
    (hsource : tokenize source = .ok lexed) (hplace : ts <:+ lexed.tokens)
    (hread : typeName ctx ts = .ok (name, rest))
    (hword : ((headKind ts).bind TokenKind.ident?).isSome = true) :
    ∃ n : WrittenName, n.IsRead ctx ∧ ts = n.tokens ++ rest ∧ name = n.typeName ∧
      name.displayName = render n.shownTokens ∧
      (name.displayName = name.simpleName ++ render (n.last.arguments ++ n.suffixes) ↔
        n.IsPlainlyQualified) ∧
      (n.IsPlainlyQualified → n.last.arguments = [] → n.suffixes = [] → FiledUnderName name) := by
  obtain ⟨n, hn, htokens, rfl⟩ := exists_written hread hword
  have hwords : n.IsWorded := by
    refine WrittenName.isWorded fun t ht => ?_
    refine wellFormed_of_tokenizeFrom hsource t (hplace.subset ?_)
    rw [htokens]
    exact List.mem_append_left _ ht
  refine ⟨n, hn, htokens, rfl, hn.displayName_eq hwords, ?_, hn.filedUnderName hwords⟩
  rw [hn.displayName_eq hwords, n.simpleName_typeName]
  exact hn.render_shownTokens_iff

/-- The tokens of a name with a qualifier, type arguments and a rank. -/
def setTokens : List Token :=
  [⟨.ident "Site" false, 1⟩, ⟨.punct .dot, 1⟩, ⟨.ident "Set" false, 1⟩, ⟨.punct .less, 1⟩,
    ⟨.ident "int" false, 1⟩, ⟨.punct .greater, 1⟩, ⟨.punct .openBracket, 1⟩,
    ⟨.punct .closeBracket, 1⟩]

theorem displayName_of_typeName_set :
    ∃ lexed name, tokenize "Site.Set<int>[]" = .ok lexed ∧
      typeName ⟨.standard, 1⟩ lexed.tokens = .ok (name, []) ∧ name.displayName = "Set<int>[]" ∧
      ∃ n : WrittenName, n.IsRead ⟨.standard, 1⟩ ∧ lexed.tokens = n.tokens ++ [] ∧
        name = n.typeName ∧ name.displayName = render n.shownTokens ∧
        (name.displayName = name.simpleName ++ render (n.last.arguments ++ n.suffixes) ↔
          n.IsPlainlyQualified) ∧
        (n.IsPlainlyQualified → n.last.arguments = [] → n.suffixes = [] → FiledUnderName name) := by
  have hlexed : tokenize "Site.Set<int>[]" = .ok ⟨setTokens, []⟩ := by decide +kernel
  have hread : typeName ⟨.standard, 1⟩ setTokens =
      .ok (⟨"Site.Set<int>[]", ["Site", "Set"], 1, false⟩, []) := by decide +kernel
  exact ⟨_, _, hlexed, hread, by decide +kernel,
    displayName_of_typeName hlexed (List.suffix_refl _) hread rfl⟩

/-- Type arguments in front of the last segment are shown, with all that follows them. -/
example :
    ((tokenize "Box<int>.Item").toOption.bind fun lexed =>
      (typeName ⟨.standard, 1⟩ lexed.tokens).toOption.map fun x =>
        (x.1.simpleName, x.1.displayName)) = some ("Item", "Box<int>.Item") := by
  decide +kernel

end CSharp
end ContentModels

import Mathlib.Data.List.TakeWhile
import ContentModels.Proofs.Generated.Lexemes
import ContentModels.Proofs.Parsing.Spelling
import ContentModels.Naming
import ContentModels.Text.Split

/-!
# Types in generated code

The types that settings and schemas name are written as they are, or without a namespace
that is used.  A text is a type if it is read as one type name up to its end, of names that
are no keywords (`IsTypeText`).  Both ways in which it is written spell a type, and they
are read as the same tokens in front of whatever generated code has behind a type.
-/

namespace ContentModels
namespace Generated

open CSharp CSharp.Parse

/-! ### Texts that spell types -/

/-- The marks in the names of types. -/
def typeMarks : List Punct :=
  [.dot, .doubleColon, .less, .greater, .comma, .question, .star, .openBracket, .closeBracket,
    .openParen, .closeParen]

/-- The tokens in the names of types. -/
def isTypeKind : TokenKind → Bool
  | .ident w false => isWord w && w != "default"
  | .punct p => typeMarks.contains p
  | _ => false

/-- The characters in the names of types. -/
def isTypeChar (c : Char) : Bool :=
  Piece.isIdentPart c || c == ' ' || typeMarks.any fun p => p.text.toList.contains c

/-- A text that is lexed as tokens of the name of a type, which spell this type. -/
structure Spelled (T : String) (ks : List TokenKind) : Prop where
  reads : kindsFrom true T.toList = some ks
  spells : ∃ name : TypeName, name.text = T ∧ SpellsType ks name
  chars : ∀ c ∈ T.toList, isTypeChar c = true
  kinds : ∀ k ∈ ks, isTypeKind k = true

/-- A word spells a type. -/
theorem spelled_word
    {w : String}
    (h : isWord w = true) (hdefault : w ≠ "default") :
    Spelled w [.ident w false] := by
  obtain ⟨c, cs, hw, hstart, hpart⟩ := Lexeme.head_of_isWord h
  refine ⟨?_, ⟨_, rfl, spellsType_word w⟩, ?_, ?_⟩
  · have htake : (c :: cs).takeWhile Piece.isIdentPart = c :: cs :=
      List.takeWhile_eq_self_iff.2 hpart
    have hread := @kindsFrom_token true c cs [] (.ident w false) (by
      rw [Piece.read_word hstart, Piece.readIdent, List.append_nil, htake, ← hw,
        String.ofList_toList, hw]
      rfl)
    rw [List.append_nil, kindsFrom_nil] at hread
    rw [hw, hread]
    rfl
  · intro x hx
    rw [hw] at hx
    simp [isTypeChar, hpart x hx]
  · simpa [isTypeKind, h] using hdefault

namespace Spelled

variable {T : String} {ks : List TokenKind}

theorem ne_of_not_isTypeChar
    (h : Spelled T ks) {d : Char} (hd : isTypeChar d = false) :
    d ∉ T.toList := by
  intro hmem
  have hc := h.chars d hmem
  rw [hd] at hc
  cases hc

/-- The characters that stand behind a type in generated code. -/
def followers : List Char := [' ', '>', ',', ')', '\n']

theorem delimits
    (h : Spelled T ks) {d : Char} (hd : d ∈ followers) :
    Delimits T.toList d := by
  refine ⟨?_, ?_, fun c hc => Lexeme.ofChars?_of_forall fun p hp => ?_⟩
  · simp only [followers, List.mem_cons, List.not_mem_nil, or_false] at hd
    rcases hd with rfl | rfl | rfl | rfl | rfl <;> decide
  · simp only [followers, List.mem_cons, List.not_mem_nil, or_false] at hd
    rcases hd with rfl | rfl | rfl | rfl | rfl <;> decide
  · have hmem : c ∈ T.toList := List.mem_of_getLast? hc
    have hnot : c = '=' ∨ c = '-' := by
      simp only [followers, List.mem_cons, List.not_mem_nil, or_false] at hd
      rcases hd with rfl | rfl | rfl | rfl | rfl <;> cases p <;>
        simp [Punct.text] at hp <;> simp [← hp]
    rcases hnot with rfl | rfl
    · exact h.ne_of_not_isTypeChar (by decide) hmem
    · exact h.ne_of_not_isTypeChar (by decide) hmem

end Spelled

/-- A type as a lexeme. -/
def Lexeme.type (T : String) (ks : List TokenKind) : Lexeme :=
  .piece T (some ks) Spelled.followers

theorem Lexeme.valid_type
    {T : String} {ks : List TokenKind}
    (h : Spelled T ks) :
    (Lexeme.type T ks).Valid := by
  refine ⟨?_, fun d hd => ?_⟩
  · cases hT : T.toList with
    | nil =>
      have hreads := h.reads
      obtain ⟨_, -, hspells⟩ := h.spells
      rw [hT, kindsFrom_nil] at hreads
      exact absurd (Option.some.inj hreads).symm hspells.ne_nil
    | cons c cs =>
      refine ⟨c, cs, rfl, ?_⟩
      rintro rfl
      exact h.ne_of_not_isTypeChar (by decide) (hT ▸ List.mem_cons_self)
  · exact ReadsBefore.of_delimits h.reads (h.delimits hd) (h.ne_of_not_isTypeChar (by decide))
      (h.ne_of_not_isTypeChar (by decide))

/-! ### Types that are configured -/

/-- The keywords that name types. -/
def predefinedTypes : List String :=
  ["bool", "byte", "char", "decimal", "double", "float", "int", "long", "object", "sbyte",
    "short", "string", "uint", "ulong", "ushort"]

/-- Words that are keywords in some places where a type can stand. -/
def contextualWords : List String :=
  ["__arglist", "async", "file", "global", "partial", "record", "required", "scoped"]

/-- Whether a word names a type. -/
def isTypeWord (w : String) : Bool :=
  isWord w &&
    (predefinedTypes.contains w || !(Naming.keywords.contains w || contextualWords.contains w))

/-- The tokens in the texts of types. -/
def isTypeToken : TokenKind → Bool
  | .ident w false => isTypeWord w
  | .punct p => typeMarks.contains p
  | _ => false

/-- A text that is read as one type name up to its end, of names that are no keywords. -/
def IsTypeText (T : String) : Prop :=
  ∃ lexed name ctx, tokenize T = .ok lexed ∧ typeName ctx lexed.tokens = .ok (name, []) ∧
    name.text = T ∧ ∀ t ∈ lexed.tokens, isTypeToken t.kind = true

theorem isTypeKind_of_isTypeToken
    {k : TokenKind}
    (h : isTypeToken k = true) :
    isTypeKind k = true := by
  cases k with
  | ident w b =>
    cases b with
    | true => cases h
    | false =>
      simp only [isTypeToken, isTypeWord, Bool.and_eq_true] at h
      have hdefault : w ≠ "default" := by
        rintro rfl
        exact absurd h.2 (by decide)
      simpa [isTypeKind, h.1] using hdefault
  | punct p => exact h
  | str | character | number => cases h

theorem isTypeChar_of_isTypeToken
    {k : TokenKind}
    (h : isTypeToken k = true) :
    ∀ c ∈ k.text.toList, isTypeChar c = true := by
  intro c hc
  cases k with
  | ident w b =>
    cases b with
    | true => cases h
    | false =>
      simp only [isTypeToken, isTypeWord, isWord, Bool.and_eq_true, List.all_eq_true] at h
      simp [isTypeChar, h.1.2 c hc]
  | punct p =>
    have hmark : typeMarks.any (fun q => q.text.toList.contains c) = true := by
      rw [List.any_eq_true]
      exact ⟨p, List.contains_iff_mem.1 h, List.contains_iff_mem.2 hc⟩
    simp only [isTypeChar, hmark, Bool.or_true]
  | str | character | number => cases h

/-- The characters of the text of tokens, apart from blanks. -/
theorem mem_renderings
    {c : Char} {toks : List Token} {afterWord : Bool}
    (h : c ∈ (String.join (renderings afterWord toks)).toList) :
    c = ' ' ∨ ∃ t ∈ toks, c ∈ t.kind.text.toList := by
  rw [String.toList_join] at h
  induction toks generalizing afterWord with
  | nil => simp [renderings] at h
  | cons t toks ih =>
    rw [renderings, List.flatMap_cons, List.mem_append] at h
    rcases h with h | h
    · split at h
      · rw [String.toList_append, List.mem_append] at h
        rcases h with h | h
        · exact .inl (by simpa using h)
        · exact .inr ⟨t, List.mem_cons_self, h⟩
      · exact .inr ⟨t, List.mem_cons_self, h⟩
    · rcases ih h with h | ⟨u, hu, hc⟩
      · exact .inl h
      · exact .inr ⟨u, List.mem_cons_of_mem _ hu, hc⟩

/-- The text of tokens of types is a type if they spell it. -/
theorem spelled_of_render
    {toks : List Token}
    (hreads : kindsFrom true (render toks).toList = some (kindsOf toks))
    (hspells : ∃ name : TypeName, name.text = render toks ∧ SpellsType (kindsOf toks) name)
    (htoks : ∀ t ∈ toks, isTypeToken t.kind = true) :
    Spelled (render toks) (kindsOf toks) := by
  refine ⟨hreads, hspells, ?_, ?_⟩
  · intro c hc
    rcases mem_renderings hc with rfl | ⟨t, ht, hc⟩
    · decide
    · exact isTypeChar_of_isTypeToken (htoks t ht) c hc
  · intro k hk
    obtain ⟨t, ht, rfl⟩ := List.mem_map.1 hk
    exact isTypeKind_of_isTypeToken (htoks t ht)

theorem kindsFrom_of_tokenize
    {s : String} {lexed : Lexed}
    (h : tokenize s = .ok lexed) :
    kindsFrom true s.toList = some (kindsOf lexed.tokens) := by
  unfold tokenize at h
  unfold kindsFrom
  rw [show (⟨1, true⟩ : Position) = .start from rfl, h]
  rfl

theorem text_of_typeName
    {ctx : ParseContext} {toks : List Token} {name : TypeName}
    (h : typeName ctx toks = .ok (name, [])) :
    name.text = render toks := by
  obtain ⟨path, arity, fromGlobal, -, rfl⟩ := typeNameAt_succ_eq_ok.1 h
  rw [List.length_nil, Nat.sub_zero, List.take_length]

/-- A text that is a type spells it. -/
theorem IsTypeText.spelled
    {T : String}
    (h : IsTypeText T) :
    ∃ ks, Spelled T ks ∧ ∀ k ∈ ks, isTypeToken k = true := by
  obtain ⟨lexed, name, ctx, hlexed, hname, rfl, htokens⟩ := h
  have htext := text_of_typeName hname
  have hreads := kindsFrom_of_tokenize hlexed
  rw [htext] at hreads ⊢
  refine ⟨kindsOf lexed.tokens, spelled_of_render hreads
    ⟨name, htext, spellsType_of_typeName hname⟩ htokens, fun k hk => ?_⟩
  obtain ⟨t, ht, rfl⟩ := List.mem_map.1 hk
  exact htokens t ht

/-! ### Types without their namespaces -/

/-- A dot in the text of a type is a mark. -/
theorem kindsFrom_dot
    {rest : List Char} {ks : List TokenKind} {fresh : Bool}
    (h : kindsFrom fresh ('.' :: rest) = some ks) (hks : ∀ k ∈ ks, isTypeToken k = true)
    (hhash : '#' ∉ rest) :
    ∃ js, ks = .punct .dot :: js ∧ kindsFrom true rest = some js := by
  obtain ⟨k, n, hread, hk⟩ := Piece.read_dot fresh rest
  rw [kindsFrom_cons, hread] at h
  obtain ⟨js, hjs, rfl⟩ := Option.map_eq_some_iff.1 h
  have htoken := hks k (by simp [Piece.kinds])
  rcases hk with ⟨w, rfl⟩ | rfl | ⟨rfl, rfl⟩
  · cases htoken
  · cases htoken
  · refine ⟨js, rfl, ?_⟩
    rw [kindsFrom_of_hash_notMem hhash true (freshAfter fresh (List.take 1 ('.' :: rest)))]
    exact hjs

/-- A qualifier in front of a type is lexed as its segments. -/
theorem kindsFrom_qualifierText
    {segments : List String} {rest : List Char} {ks : List TokenKind}
    (h : kindsFrom true (qualifierText segments ++ rest) = some ks)
    (hsegments : ∀ s ∈ segments, isWord s = true) (hks : ∀ k ∈ ks, isTypeToken k = true)
    (hhash : '#' ∉ qualifierText segments ++ rest) :
    ∃ js, ks = qualifierKinds segments ++ js ∧ kindsFrom true rest = some js := by
  induction segments generalizing ks with
  | nil => exact ⟨ks, rfl, h⟩
  | cons s segments ih =>
    obtain ⟨c, cs, hs, hstart, hpart⟩ := Lexeme.head_of_isWord (hsegments s List.mem_cons_self)
    have hword := @ReadsBefore.word s.toList '.' (by simpa [hs] using hstart) (hs ▸ hpart)
      (by decide)
    rw [String.ofList_toList] at hword
    rw [qualifierText_cons, List.append_assoc, List.cons_append] at h hhash
    rw [hword, Option.bind_some, Option.map_eq_some_iff] at h
    obtain ⟨ks, hdot, rfl⟩ := h
    rw [List.mem_append, List.mem_cons, not_or, not_or] at hhash
    obtain ⟨ks, rfl, hrest⟩ := kindsFrom_dot hdot
      (fun k hk => hks k (List.mem_append_right _ hk)) hhash.2.2
    obtain ⟨js, rfl, hjs⟩ := ih hrest (fun x hx => hsegments x (List.mem_cons_of_mem _ hx))
      (fun k hk => hks k (by simp [hk])) hhash.2.2
    exact ⟨js, by simp, hjs⟩

/-- The text of a qualifier in front of tokens. -/
theorem toList_render_qualifier
    {segments : List String} {qualifier toks : List Token}
    (h : kindsOf qualifier = qualifierKinds segments) :
    (render (qualifier ++ toks)).toList = qualifierText segments ++ (render toks).toList := by
  induction segments generalizing qualifier with
  | nil =>
    obtain rfl := kindsOf_eq_nil.1 h
    simp
  | cons s segments ih =>
    rw [qualifierKinds_cons] at h
    obtain ⟨l, us, rfl, hus⟩ := kindsOf_eq_cons.1 h
    obtain ⟨l', vs, rfl, hvs⟩ := kindsOf_eq_cons.1 hus
    have hrest := ih hvs
    unfold render at hrest ⊢
    rw [String.toList_join] at hrest ⊢
    have hdot : Punct.dot.text.toList = ['.'] := rfl
    simp [renderings, TokenKind.text, TokenKind.isWord, hrest, hdot]

/-- What precedes and what follows the last separator. -/
theorem split_afterLast
    {d : Char} {cs : List Char}
    (h : d ∈ cs) :
    cs = cs.take (cs.length - (Text.afterLast d cs).length - 1) ++ d :: Text.afterLast d cs := by
  have hsplit := @List.takeWhile_append_dropWhile _ (· != d) cs.reverse
  cases hdrop : cs.reverse.dropWhile (· != d) with
  | nil =>
    rw [hdrop, List.append_nil, List.takeWhile_eq_self_iff] at hsplit
    have hd := hsplit d (List.mem_reverse.2 h)
    simp at hd
  | cons e es =>
    obtain rfl : e = d := by
      have hhead := List.head?_dropWhile_not (· != d) cs.reverse
      rw [hdrop] at hhead
      simpa using hhead
    rw [hdrop] at hsplit
    have hcs : cs = es.reverse ++ e :: Text.afterLast e cs :=
      calc
        cs = (cs.reverse.takeWhile (· != e) ++ e :: es).reverse := by
          rw [hsplit, List.reverse_reverse]
        _ = es.reverse ++ e :: Text.afterLast e cs := by
          simp [Text.afterLast]
    have hlength : cs.length - (Text.afterLast e cs).length - 1 = es.reverse.length := by
      have hlen := congrArg List.length hcs
      simp only [List.length_append, List.length_cons] at hlen
      omega
    have htake : cs.take es.reverse.length = es.reverse := by
      conv_lhs => rw [hcs]
      exact List.take_left
    rw [hlength, htake]
    exact hcs

/-- A type spells what is written for it when its namespace is left out. -/
theorem IsTypeText.shorten
    {l : Layout} {T : String}
    (h : IsTypeText T) (husings : ∀ u ∈ l.usings, IsDotted u) :
    ∃ ks, Spelled (l.shorten T) ks ∧ ∀ k ∈ ks, isTypeToken k = true := by
  unfold Layout.shorten
  simp only
  split
  · exact h.spelled
  · split
    · rename_i hqualified
      rw [Bool.and_eq_true, List.contains_iff_mem, List.contains_iff_mem] at hqualified
      obtain ⟨hdot, hused⟩ := hqualified
      obtain ⟨init, last, hqualifier, hinit, hlast⟩ := (husings _ hused).exists_last
      obtain ⟨ks, hspelled, -⟩ := h.spelled
      have hhash := hspelled.ne_of_not_isTypeChar (show isTypeChar '#' = false by decide)
      obtain ⟨lexed, name, ctx, hlexed, hname, rfl, htokens⟩ := h
      have hreads := kindsFrom_of_tokenize hlexed
      have htext := text_of_typeName hname
      -- The text is the qualifier, which is a namespace that is used, and what follows it.
      have hsplit : name.text.toList =
          qualifierText (init ++ [last]) ++ Text.afterLast '.' name.text.toList := by
        have hcut := congrArg String.toList hqualifier
        rw [String.toList_ofList, toList_intercalate_dot] at hcut
        have hlong := split_afterLast hdot
        rw [hcut] at hlong
        simpa [qualifierText] using hlong
      generalize Text.afterLast '.' name.text.toList = simple at hsplit ⊢
      have hwords : ∀ s ∈ init ++ [last], isWord s = true := by
        intro s hs
        rcases List.mem_append.1 hs with hs | hs
        · exact isWord_of_isIdentifier (hinit s hs)
        · exact List.mem_singleton.1 hs ▸ isWord_of_isIdentifier hlast
      have hkinds : ∀ k ∈ kindsOf lexed.tokens, isTypeToken k = true := by
        intro k hk
        obtain ⟨t, ht, rfl⟩ := List.mem_map.1 hk
        exact htokens t ht
      rw [hsplit] at hreads hhash
      obtain ⟨js, hjs, hsimple⟩ := kindsFrom_qualifierText hreads hwords hkinds hhash
      obtain ⟨qualifier, toks, htoks, hq, rfl⟩ := kindsOf_eq_append.1 hjs
      rw [htoks] at hname htext htokens
      have hword := isSome_of_qualified hname hq (by simp)
      have hglobal : (headKind toks).bind TokenKind.keyword? ≠ some "global" := by
        intro hg
        obtain ⟨k, hk, hkeyword⟩ := Option.bind_eq_some_iff.1 hg
        obtain ⟨line, us, rfl⟩ := headKind_eq_some.1 hk
        have htoken := htokens ⟨k, line⟩ (by simp)
        cases k with
        | ident w b =>
          cases b with
          | true => cases htoken
          | false =>
            obtain rfl : w = "global" := by simpa [TokenKind.keyword?] using hkeyword
            simp only [isTypeToken, isTypeWord, Bool.and_eq_true] at htoken
            exact absurd htoken.2 (by decide)
        | str | character | number | punct => cases hkeyword
      have hrender : render toks = String.ofList simple := by
        have hlist := congrArg String.toList htext
        rw [hsplit, toList_render_qualifier hq] at hlist
        rw [← String.ofList_toList (s := render toks), List.append_cancel_left hlist]
      have htypes : ∀ t ∈ toks, isTypeToken t.kind = true := fun t ht =>
        htokens t (List.mem_append_right _ ht)
      rw [← hrender]
      refine ⟨kindsOf toks, spelled_of_render ?_ (spellsType_of_qualified hname hq hword hglobal)
        htypes, fun k hk => ?_⟩
      · rw [hrender, String.toList_ofList]
        exact hsimple
      · obtain ⟨t, ht, rfl⟩ := List.mem_map.1 hk
        exact htypes t ht
    · exact h.spelled

end Generated
end ContentModels

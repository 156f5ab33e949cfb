import ContentModels.Proofs.Parsing.TypeArguments

/-!
# Reading members

What the readers of the parts of a member do with the forms in which members are generated:
attributes with one literal, modifiers, lists of one parameter at most, bodies that are one
expression, and the names of properties, methods and constants.
-/

namespace ContentModels
namespace CSharp
namespace Parse

variable {α : Type} {version : LanguageVersion} {ctx : ParseContext} {ts us rest : List Token}

/-! ## Attributes -/

/-- The tokens of an attribute with one literal. -/
def attributeKinds (name value : String) : List TokenKind :=
  [.punct .openBracket, .ident name false, .punct .openParen, .str value false false,
    .punct .closeParen, .punct .closeBracket]

theorem attributeArgumentsAt_literal
    (depth : Nat) (value : String) (l l' l'' : Nat) :
    attributeArgumentsAt (depth + 2) ctx
        (⟨.punct .openParen, l⟩ :: ⟨.str value false false, l'⟩ :: ⟨.punct .closeParen, l''⟩ :: us) =
      .ok ([⟨none, .str value⟩], us) := by
  rw [attributeArgumentsAt_succ]
  simp only [expect_bind, accept_bind, headKind_cons, if_true, List.drop_succ_cons, List.drop_zero,
    Option.some.injEq, reduceCtorEq, if_false, Bool.false_eq_true]
  refine loop_of_done ?_
  rw [argumentName_bind, if_neg (by simp [TokenKind.ident?])]
  unfold namedArgument
  rw [attributeValueAt_succ]
  simp [-bind_pure_comp, bind_apply, literalArgument_apply, behindArgument, endsArgument]

/-- An attribute with one literal is read as such. -/
theorem reads_attributeSection
    (version : LanguageVersion) (name value : String) :
    Reads version attributeSection (attributeKinds name value) anything anyResult := by
  intro endLine toks rest hk _
  simp only [attributeKinds, kindsOf_eq_cons, kindsOf_eq_nil] at hk
  obtain ⟨l₁, us₁, rfl, l₂, us₂, rfl, l₃, us₃, rfl, l₄, us₄, rfl, l₅, us₅, rfl, l₆, us₆, rfl, rfl⟩ := hk
  simp only [List.cons_append, List.nil_append]
  obtain ⟨uses, hround⟩ : ∃ uses, ∀ depth, sectionRound (depth + 2) [] ⟨version, endLine⟩
      (⟨.ident name false, l₂⟩ :: ⟨.punct .openParen, l₃⟩ :: ⟨.str value false false, l₄⟩ ::
        ⟨.punct .closeParen, l₅⟩ :: ⟨.punct .closeBracket, l₆⟩ :: rest) =
      .ok (.done uses, ⟨.punct .closeBracket, l₆⟩ :: rest) := by
    refine ⟨[⟨⟨render [⟨.ident name false, l₂⟩], [name], 0, false⟩, [⟨none, .str value⟩], l₂⟩],
      fun depth => ?_⟩
    rw [sectionRound_apply, attributeUse_apply, typeNameAt_word (by simp [endsType, isMark])]
    simp only [headKind_cons, if_true]
    rw [bind_of_ok (attributeArgumentsAt_literal _ _ _ _ _)]
    simp
  refine ⟨uses, ?_, trivial⟩
  unfold attributeSection nested
  rw [attributeSectionAt_succ]
  simp only [expect_bind, headKind_cons, if_true, List.drop_succ_cons, List.drop_zero,
    List.length_cons]
  rw [targetedSection_apply, if_neg (by simp)]
  unfold sectionBody
  rw [bind_of_ok (loop_of_done (hround _))]
  simp

/-- Where no attribute starts, none is read. -/
theorem reads_attributeSections_nil
    (version : LanguageVersion) :
    Reads version attributeSections [] (· ≠ some (.punct .openBracket)) anyResult := by
  intro endLine toks rest hk hrest
  obtain rfl := kindsOf_eq_nil.1 hk
  refine ⟨[], loop_of_done ?_, trivial⟩
  simp [hrest]

theorem reads_attributeSections
    (version : LanguageVersion) (name value : String) :
    Reads version attributeSections (attributeKinds name value)
      (· ≠ some (.punct .openBracket)) anyResult := by
  intro endLine toks rest hk hrest
  obtain ⟨uses, huses, -⟩ := reads_attributeSection version name value endLine toks rest hk trivial
  refine ⟨uses, ?_, trivial⟩
  have hhead : headKind (toks ++ rest) = some (.punct .openBracket) :=
    @headKind_of_kindsOf (attributeKinds name value) _ _ _ hk rfl
  have hlength : toks.length = 6 := by
    simpa [attributeKinds] using congrArg List.length hk
  unfold attributeSections
  refine @loop_of_again _ _ _ _ _ _ [] uses uses rest ?_ (by rw [List.length_append]; omega)
    (loop_of_done (by simp [hrest]))
  simp only [sees_bind, List.drop_zero, hhead, beq_self_eq_true, if_true, ite_apply]
  rw [bind_of_ok huses]
  rfl

/-! ## Modifiers -/

/-- The kinds of words. -/
def wordKinds (ws : List String) : List TokenKind :=
  ws.map (.ident · false)

@[simp] theorem wordKinds_nil :
    wordKinds [] = [] := by
  rfl

@[simp] theorem wordKinds_cons
    (w : String) (ws : List String) :
    wordKinds (w :: ws) = .ident w false :: wordKinds ws := by
  rfl

/-- The marks behind a name that may be a modifier elsewhere. -/
def nameMarks : List Punct := [.openParen, .assign, .semicolon]

/-- Tokens that start with no modifier, whatever follows them. -/
def StopsModifiers (ks : List TokenKind) : Prop :=
  ∀ toks rest, kindsOf toks = ks → splitModifiers (toks ++ rest) = ([], toks ++ rest)

theorem stopsModifiers_of_head
    {ks : List TokenKind} {k : TokenKind}
    (hk : ks.head? = some k) (hword : ∀ w, k = .ident w false → w ∉ modifierWords) :
    StopsModifiers ks := by
  intro toks rest hks
  obtain ⟨l, us, hus⟩ := headKind_eq_some.1 (headKind_of_kindsOf hks hk)
  rw [hus, splitModifiers]
  cases k with
  | ident w b =>
    cases b with
    | true => rfl
    | false => simp [TokenKind.keyword?, hword w rfl]
  | str | character | number | punct => rfl

/-- A name in front of a parenthesis is no modifier. -/
theorem stopsModifiers_call
    {w : String} {ks : List TokenKind}
    (h : w ∈ modifierWords → w ∈ contextualModifiers) :
    StopsModifiers (.ident w false :: .punct .openParen :: ks) := by
  intro toks rest hks
  obtain ⟨l, us, rfl, hus⟩ := kindsOf_eq_cons.1 hks
  obtain ⟨l', vs, rfl, -⟩ := kindsOf_eq_cons.1 hus
  rw [List.cons_append, splitModifiers]
  by_cases hw : w ∈ modifierWords
  · simp [TokenKind.keyword?, hw, h hw, Token.isOneOf]
  · simp [TokenKind.keyword?, hw]

/--
Modifiers are read up to what is no modifier.  The last of them may be a word that is a name
in front of a mark that follows a name, unless such a mark comes next.
-/
theorem splitModifiers_words
    {ws : List String} {toks : List Token}
    (h : kindsOf toks = wordKinds ws) (hws : ∀ w ∈ ws, w ∈ modifierWords)
    (hlast : isMark nameMarks (headKind rest) → ∀ w ∈ ws.getLast?, w ∉ contextualModifiers)
    (hrest : splitModifiers rest = ([], rest)) :
    splitModifiers (toks ++ rest) = (ws, rest) := by
  induction ws generalizing toks with
  | nil =>
    obtain rfl := kindsOf_eq_nil.1 h
    exact hrest
  | cons w ws ih =>
    obtain ⟨l, us, rfl, hus⟩ := kindsOf_eq_cons.1 h
    have hname : (contextualModifiers.contains w &&
        (us ++ rest).head?.any (Token.isOneOf [.openParen, .assign, .semicolon])) = false := by
      cases ws with
      | nil =>
        obtain rfl := kindsOf_eq_nil.1 hus
        cases hany : rest.head?.any (Token.isOneOf [.openParen, .assign, .semicolon]) with
        | false => simp [hany]
        | true =>
          have hmark : isMark nameMarks (headKind rest) := by
            cases rest with
            | nil => cases hany
            | cons t rest => exact isOneOf_iff.1 hany
          simp [hlast hmark w rfl]
      | cons v ws =>
        obtain ⟨l', vs, rfl, -⟩ := kindsOf_eq_cons.1 hus
        simp [Token.isOneOf]
    have hnext := ih hus (fun x hx => hws x (List.mem_cons_of_mem _ hx)) fun hmark x hx => by
      cases ws with
      | nil => cases hx
      | cons v ws => exact hlast hmark x (by rwa [List.getLast?_cons_cons])
    rw [List.cons_append, splitModifiers]
    simp only [TokenKind.keyword?]
    rw [hname, if_pos (by simp [hws w List.mem_cons_self]), hnext]

/-! ## Expressions and bodies -/

/-- Tokens that are passed over as an expression. -/
structure IsExpression (ks : List TokenKind) : Prop where
  balanced : Balanced ks
  semicolon : .punct .semicolon ∉ ks
  ne_nil : ks ≠ []

/-- A group with balanced tokens in it is passed over. -/
theorem reads_skipGroup
    {p closer : Punct} {ks : List TokenKind}
    (hp : p.closer? = some closer) (h : Balanced ks) :
    Reads version skipGroup (.punct p :: (ks ++ [.punct closer])) anything anyResult := by
  intro endLine toks rest hk _
  obtain ⟨l, us, rfl, hus⟩ := kindsOf_eq_cons.1 hk
  obtain ⟨vs, ws, rfl, hvs, hws⟩ := kindsOf_eq_append.1 hus
  obtain ⟨l', nothing, rfl, hnothing⟩ := kindsOf_eq_cons.1 hws
  obtain rfl := kindsOf_eq_nil.1 hnothing
  refine ⟨(), skipGroup_eq_ok.2 ?_, trivial⟩
  have hopen : nest [] ⟨.punct p, l⟩ = .ok [closer] := nest_nil_eq_ok.2 ⟨p, closer, rfl, hp, rfl⟩
  have hclose : nest [closer] ⟨.punct closer, l'⟩ = .ok [] :=
    nest_cons_eq_ok.2 (nestKind_counterpart hp [])
  have hinner : nestKinds [] (kindsOf vs) = some [] := by
    rw [hvs]
    exact h
  have hover := @closeGroups_balanced endLine closer [] [] [] vs hinner (⟨.punct closer, l'⟩ :: rest)
  simp only [List.cons_append, List.nil_append, List.append_assoc] at hover ⊢
  rw [closeGroups, hopen]
  simp only
  rw [hover, closeGroups, hclose]

theorem reads_skipExpression
    {ks : List TokenKind}
    (h : IsExpression ks) :
    Reads version (skipExpression expressionEnds) ks (· = some (.punct .semicolon)) anyResult := by
  intro endLine toks rest hk hrest
  obtain ⟨l, us, rfl⟩ := headKind_eq_some.1 hrest
  refine ⟨(), skipExpression_eq_ok.2 ⟨?_, ?_⟩, trivial⟩
  · rw [dropToMark_balanced (hk ▸ h.balanced) (hk ▸ h.semicolon)]
    rfl
  · have hne : toks ≠ [] := by
      rintro rfl
      exact h.ne_nil hk.symm
    have := List.length_pos_iff.2 hne
    rw [List.length_append]
    omega

/-- A token that neither opens a group nor ends an expression. -/
def isFlat : TokenKind → Bool
  | .punct p => p.closer?.isNone && !listedExpressionEnds.contains p
  | _ => true

/-- The value of a constant is passed over. -/
theorem reads_skipExpression_flat
    {ks : List TokenKind}
    (hne : ks ≠ []) (hflat : ∀ k ∈ ks, isFlat k = true) :
    Reads version (skipExpression listedExpressionEnds) ks (· = some (.punct .semicolon))
      anyResult := by
  intro endLine toks rest hk hrest
  obtain ⟨l, us, rfl⟩ := headKind_eq_some.1 hrest
  have hpos : 0 < toks.length := by
    rw [← length_kindsOf, hk]
    exact List.length_pos_iff.2 hne
  refine ⟨(), skipExpression_eq_ok.2 ⟨?_, by rw [List.length_append]; omega⟩, trivial⟩
  clear hpos hne
  induction toks generalizing ks with
  | nil => rfl
  | cons t toks ih =>
    rw [← hk, kindsOf_cons] at hflat
    have ht := hflat t.kind List.mem_cons_self
    have hopen : t.opensGroup = false ∧ t.isOneOf listedExpressionEnds = false := by
      unfold Token.opensGroup Token.isOneOf
      unfold isFlat at ht
      split at ht <;> simp_all
    rw [List.cons_append, dropToMark, if_neg (by simp [hopen]), if_neg (by simp [hopen])]
    exact ih (fun k hk' => hflat k (List.mem_cons_of_mem _ hk')) rfl

/-- A body that is an expression behind an arrow. -/
theorem reads_skipArrowBody
    {ks : List TokenKind} {feature : Feature}
    (h : IsExpression ks) (hversion : version.supports feature = true) :
    Reads version (skipArrowBody feature) (.punct .arrow :: (ks ++ [.punct .semicolon]))
      anything anyResult := by
  intro endLine toks rest hk _
  obtain ⟨l, us, rfl, hus⟩ := kindsOf_eq_cons.1 hk
  obtain ⟨vs, ws, rfl, hvs, hws⟩ := kindsOf_eq_append.1 hus
  obtain ⟨l', nothing, rfl, hnothing⟩ := kindsOf_eq_cons.1 hws
  obtain rfl := kindsOf_eq_nil.1 hnothing
  obtain ⟨u, hu, -⟩ := reads_skipExpression h endLine vs (⟨.punct .semicolon, l'⟩ :: rest) hvs rfl
  have hrequire : ∀ line ts, require feature line ⟨version, endLine⟩ ts = .ok ((), ts) := by
    intro line ts
    unfold require
    rw [if_pos hversion]
  refine ⟨(), ?_, trivial⟩
  unfold skipArrowBody
  rw [line_bind, bind_of_ok (hrequire _ _), advance_bind]
  simp only [List.cons_append, List.drop_succ_cons, List.drop_zero, List.append_assoc,
    List.nil_append]
  rw [bind_of_ok hu]
  simp

/-- The tokens of a body that is one expression, behind an arrow or in a block. -/
def bodyKinds (arrow : Bool) (ks : List TokenKind) : List TokenKind :=
  if arrow then .punct .arrow :: (ks ++ [.punct .semicolon])
  else .punct .openBrace ::
    ((.ident "return" false :: (ks ++ [.punct .semicolon])) ++ [.punct .closeBrace])

theorem balanced_return
    {ks : List TokenKind}
    (h : Balanced ks) :
    Balanced (.ident "return" false :: (ks ++ [.punct .semicolon])) :=
  (Balanced.of_inert (by simp [isInert]) : Balanced [.ident "return" false]).append
    (h.append (.of_inert (by simp [isInert, Punct.closer?, Punct.isCloser])))

/-- A body that is one expression is passed over. -/
theorem reads_skipBody
    {ks : List TokenKind} {feature : Feature} {arrow : Bool}
    (h : IsExpression ks) (hversion : arrow = true → version.supports feature = true) :
    Reads version (skipBody feature) (bodyKinds arrow ks) anything anyResult := by
  cases arrow with
  | true =>
    refine (reads_skipArrowBody h (hversion rfl)).congr fun endLine toks rest hk _ => ?_
    have hhead := @headKind_of_kindsOf _ toks rest (.punct .arrow) hk rfl
    simp [skipBody, hhead]
  | false =>
    refine (reads_skipGroup rfl (balanced_return h.balanced)).congr fun endLine toks rest hk _ => ?_
    have hhead := @headKind_of_kindsOf _ toks rest (.punct .openBrace) hk rfl
    simp [skipBody, hhead]

/-- An empty block is a body. -/
theorem reads_skipBody_block
    (feature : Feature) :
    Reads version (skipBody feature) [.punct .openBrace, .punct .closeBrace] anything anyResult := by
  refine (@reads_skipGroup version .openBrace .closeBrace [] rfl .nil).congr
    fun endLine toks rest hk _ => ?_
  have hhead := @headKind_of_kindsOf _ toks rest (.punct .openBrace) hk rfl
  simp [skipBody, hhead]

/-- A semicolon is a body. -/
theorem reads_skipBody_semicolon
    (feature : Feature) :
    Reads version (skipBody feature) [.punct .semicolon] anything anyResult := by
  intro endLine toks rest hk _
  have hhead := @headKind_of_kindsOf _ toks rest (.punct .semicolon) hk rfl
  obtain ⟨l, us, rfl, hus⟩ := kindsOf_eq_cons.1 hk
  obtain rfl := kindsOf_eq_nil.1 hus
  exact ⟨(), by simp [skipBody], trivial⟩

/-! ## Parameters -/

/-- The next token is none of some words. -/
def startsNone (words : List String) (k : Option TokenKind) : Prop :=
  ∀ w ∈ words, k ≠ some (.ident w false)

/-- Keywords are read up to the first token that is none of them. -/
theorem reads_keywords
    {allowed ws : List String}
    (hws : ∀ w ∈ ws, w ∈ allowed) :
    Reads version (keywords allowed) (wordKinds ws) (startsNone allowed) (· = ws) := by
  intro endLine toks rest hk hrest
  refine ⟨ws, ?_, rfl⟩
  have hstop : ∀ t ∈ rest.head?, (t.kind.keyword?.any allowed.contains) = false := by
    intro t ht
    rw [Option.mem_def] at ht
    cases hkind : t.kind with
    | ident w b =>
      cases b with
      | true => rfl
      | false =>
        have hw : w ∉ allowed := fun hw => hrest w hw (by simp [headKind, ht, hkind])
        simp [TokenKind.keyword?, hw]
    | str | character | number | punct => rfl
  induction ws generalizing toks with
  | nil =>
    obtain rfl := kindsOf_eq_nil.1 hk
    cases rest with
    | nil => rfl
    | cons t rest => simp [keywords, hstop t (by simp)]
  | cons w ws ih =>
    obtain ⟨l, us, rfl, hus⟩ := kindsOf_eq_cons.1 hk
    have hw : (TokenKind.ident w false).keyword?.any allowed.contains = true := by
      simp [TokenKind.keyword?, hws w List.mem_cons_self]
    have hnext := ih (fun x hx => hws x (List.mem_cons_of_mem _ hx)) us hus
    simp only [keywords, Except.ok.injEq, Prod.mk.injEq] at hnext ⊢
    simp only [List.cons_append, List.takeWhile_cons, List.dropWhile_cons, hw, if_true,
      List.filterMap_cons, hnext.1, hnext.2]
    exact ⟨rfl, trivial⟩

theorem keyword?_ne_of_startsNone
    {words : List String} {k : TokenKind} {w : String}
    (h : startsNone words (some k)) (hw : w ∈ words) :
    k.keyword? ≠ some w := by
  intro heq
  cases k with
  | ident v b =>
    cases b with
    | false =>
      cases heq
      exact h _ hw rfl
    | true => cases heq
  | str | character | number | punct => cases heq

/-- The words that a parameter is read for in front of its type. -/
def parameterWords : List String :=
  "__arglist" :: parameterModifiers

/-- A parameter is its type and its name, perhaps with keywords in front. -/
theorem reads_parameter
    {ws : List String} {ks : List TokenKind} {good : TypeName → Prop}
    (hws : ∀ w ∈ ws, w ∈ parameterModifiers) (h : ReadsType version ks good)
    (hhead : startsNone parameterWords ks.head?) (n : String) :
    Reads version parameter (wordKinds ws ++ (ks ++ [TokenKind.ident n false]))
      (· = some (.punct .closeParen)) (fun p => ∃ q : Parameter, p = some q ∧ good q.type) := by
  obtain ⟨k, hk, hstart⟩ := h.head
  have hks : (ks ++ [TokenKind.ident n false]).head? = some k := by simp [hk]
  obtain ⟨j, hj, hjbracket⟩ : ∃ j, (wordKinds ws ++ (ks ++ [TokenKind.ident n false])).head? =
      some j ∧ j ≠ .punct .openBracket := by
    cases ws with
    | nil => exact ⟨k, hks, by rcases hstart with rfl | ⟨w, b, rfl⟩ <;> simp⟩
    | cons w ws => exact ⟨.ident w false, rfl, nofun⟩
  rw [hk] at hhead
  unfold parameter
  refine (reads_attributeSections_nil version).bind hj (by simpa using hjbracket) fun _ _ => ?_
  refine (reads_keywords hws).bind hks (fun w hw => hhead w (.tail _ hw)) fun words _ => ?_
  have hlist := keyword?_ne_of_startsNone hhead List.mem_cons_self
  refine .look (looks_seesKeyword hks (beq_eq_false_iff_ne.2 hlist)) ?_
  refine h.reads.bind rfl (by simp [endsType, isMark]) fun type htype => ?_
  refine (reads_ident n false).follow_mono (fun _ _ => trivial) |>.bind_last fun name _ => ?_
  intro endLine toks rest htoks hrest
  obtain rfl := kindsOf_eq_nil.1 htoks
  exact ⟨some ⟨type, name, words⟩, by simp [hrest], _, rfl, htype⟩

/-- There may be no parameters. -/
theorem reads_parameters_nil
    (version : LanguageVersion) :
    Reads version parameters [.punct .openParen, .punct .closeParen] anything anyResult := by
  unfold parameters
  refine (reads_expect .openParen).bind rfl trivial fun _ _ => ?_
  refine (reads_accept .closeParen).bind_last fun _ hread => ?_
  rw [hread]
  exact .pure trivial

/-- The tokens of a list of one parameter. -/
def parameterKinds (ws : List String) (ks : List TokenKind) (n : String) : List TokenKind :=
  [.punct .openParen] ++ ((wordKinds ws ++ (ks ++ [.ident n false])) ++ [.punct .closeParen])

theorem reads_parameters
    {ws : List String} {ks : List TokenKind} {good : TypeName → Prop}
    (hws : ∀ w ∈ ws, w ∈ parameterModifiers) (h : ReadsType version ks good)
    (hhead : startsNone parameterWords ks.head?) (n : String) :
    Reads version parameters (parameterKinds ws ks n) anything
      (fun ps => ∃ p, ps = [p] ∧ good p.type) := by
  obtain ⟨k, hk, hstart⟩ := h.head
  obtain ⟨j, hj, hclose⟩ : ∃ j, ((wordKinds ws ++ (ks ++ [TokenKind.ident n false])) ++
      [TokenKind.punct .closeParen]).head? = some j ∧ j ≠ .punct .closeParen := by
    cases ws with
    | nil => exact ⟨k, by simp [hk], by rcases hstart with rfl | ⟨w, b, rfl⟩ <;> simp⟩
    | cons w ws => exact ⟨.ident w false, rfl, nofun⟩
  unfold parameters parameterKinds
  refine (reads_expect .openParen).bind hj trivial fun _ _ => ?_
  refine .look (looks_accept hj hclose) ?_
  intro endLine toks rest htoks _
  obtain ⟨us, vs, rfl, hus, hvs⟩ := kindsOf_eq_append.1 htoks
  obtain ⟨l, nothing, rfl, hnothing⟩ := kindsOf_eq_cons.1 hvs
  obtain rfl := kindsOf_eq_nil.1 hnothing
  obtain ⟨_, hp, p, rfl, hgood⟩ := reads_parameter hws h hhead n endLine us
    (⟨.punct .closeParen, l⟩ :: rest) hus rfl
  refine ⟨[p], loop_of_done ?_, p, rfl, hgood⟩
  rw [List.append_assoc, List.singleton_append, bind_of_ok hp]
  simp [-bind_pure_comp]

/-! ## Properties -/

/-- The getter of a property is passed over. -/
theorem reads_skipAccessor
    {body : List TokenKind}
    (h : Reads version (skipBody .expressionBodiedAccessor) body anything anyResult) :
    Reads version skipAccessor (.ident "get" false :: body) anything anyResult := by
  unfold skipAccessor
  refine (reads_attributeSections_nil version).bind rfl nofun fun _ _ => ?_
  refine (@reads_keywords version _ [] nofun).bind rfl (by simp [startsNone]) fun _ _ => ?_
  intro endLine toks rest hk _
  obtain ⟨l, us, rfl, hus⟩ := kindsOf_eq_cons.1 hk
  obtain ⟨u, hu, -⟩ := h endLine us rest hus trivial
  exact ⟨u, by simpa [TokenKind.keyword?] using hu, trivial⟩

/-- A property whose body is an expression. -/
theorem reads_skipPropertyBody_arrow
    {ks : List TokenKind}
    (h : IsExpression ks) (hversion : version.supports .expressionBodiedProperty = true) :
    Reads version skipPropertyBody (.punct .arrow :: (ks ++ [.punct .semicolon]))
      anything anyResult :=
  .look (looks_sees rfl rfl) (reads_skipArrowBody h hversion)

/-- A property with a getter. -/
theorem reads_skipPropertyBody
    {body : List TokenKind}
    (h : Reads version (skipBody .expressionBodiedAccessor) body anything anyResult) :
    Reads version skipPropertyBody
      ([.punct .openBrace] ++ ((.ident "get" false :: body) ++ [.punct .closeBrace]))
      (· ≠ some (.punct .assign)) anyResult := by
  unfold skipPropertyBody
  refine .look (looks_sees rfl rfl) ?_
  refine (reads_expect .openBrace).bind rfl trivial fun _ _ => ?_
  refine Reads.bind_last (?_ : Reads _ _ _ _ anyResult) fun _ _ => ?_
  · refine Reads.loop_again (?_ : Reads _ _ _ anything (isAgain anyResult)) (by simp) rfl trivial
      fun _ _ => ?_
    · refine .look (looks_peek rfl) ?_
      refine .look (looks_accept rfl nofun) ?_
      exact (reads_skipAccessor h).bind_last fun _ _ => .pure ⟨_, rfl, trivial⟩
    · refine .loop_done ?_
      refine .look (looks_peek rfl) ?_
      refine (reads_accept .closeBrace).follow_mono (fun _ _ => trivial) |>.bind_last fun _ hb => ?_
      rw [hb]
      exact .pure ⟨_, rfl, trivial⟩
  · intro endLine toks rest hk hrest
    obtain rfl := kindsOf_eq_nil.1 hk
    exact ⟨(), by simp [hrest, pure_apply], trivial⟩

/-! ## Names -/

/-- The name of a member ends where neither a segment nor type arguments follow. -/
theorem reads_memberName
    (n : String) (b : Bool) :
    Reads version memberName [.ident n b] endsSegments (· = n) := by
  unfold memberName
  refine ((reads_ident n b).follow_mono fun _ _ => trivial).bind_last fun _ hn => ?_
  subst hn
  refine .loop_done ?_
  intro endLine toks rest hk hrest
  obtain rfl := kindsOf_eq_nil.1 hk
  have hless : headKind rest ≠ some (.punct .less) := (endsSegments_spec hrest).2
  have hdot : headKind rest ≠ some (.punct .dot) ∧ headKind rest ≠ some (.punct .doubleColon) := by
    constructor <;> intro h <;> simp [endsSegments, isMark, h] at hrest
  exact ⟨.done _, by simp [hless, hdot, pure_apply], _, rfl, rfl⟩

/-- Type arguments that no dot follows qualify nothing. -/
theorem qualifierArguments_of_typeArguments
    {arity : Nat}
    (h : typeArguments ctx ts = .ok (arity, rest)) (hdot : headKind rest ≠ some (.punct .dot)) :
    qualifierArguments ctx ts = .ok (false, ts) := by
  have hfail : (typeArguments >>= fun _ => sees .dot >>= fun dot =>
      if (!dot) = true then fail (.expected .dot) else pure () : Parse Unit) ctx ts =
      .error ⟨(rest.head?.map (·.line)).getD ctx.endLine, .expected .dot⟩ := by
    refine (bind_of_ok h).trans ?_
    simp [hdot]
  unfold qualifierArguments
  rw [bind_apply, attempt, hfail]
  rfl

/-- Type parameters of a method are no part of its name. -/
theorem reads_memberName_generic
    {n v : String} {b : Bool} {ks : List TokenKind} {q : String → Parse α} {result : α → Prop}
    {follow : Option TokenKind → Prop} (hv : v ≠ "in" ∧ v ≠ "out")
    (h : Reads version (q n)
      (.punct .less :: .ident v false :: .punct .greater :: .punct .openParen :: ks) follow result) :
    Reads version (memberName >>= q) ([.ident n b] ++
      (.punct .less :: .ident v false :: .punct .greater :: .punct .openParen :: ks))
      follow result := by
  unfold memberName
  rw [bind_assoc]
  refine (reads_ident n b).bind rfl trivial fun _ hn => ?_
  subst hn
  refine .look (fun endLine toks rest hk => loop_of_done ?_) h
  simp only [kindsOf_eq_cons] at hk
  obtain ⟨l₁, us₁, rfl, l₂, us₂, rfl, l₃, us₃, rfl, l₄, us₄, rfl, hks⟩ := hk
  obtain ⟨arity, harity, -⟩ := @reads_typeArguments version v hv endLine
    [⟨.punct .less, l₁⟩, ⟨.ident v false, l₂⟩, ⟨.punct .greater, l₃⟩]
    (⟨.punct .openParen, l₄⟩ :: (us₄ ++ rest)) rfl trivial
  simp only [List.cons_append, List.nil_append] at harity
  simp [bind_of_ok (qualifierArguments_of_typeArguments harity (by simp)), pure_apply]

/-- Where no type parameters start, none are read. -/
theorem looks_typeParameters
    {ks : List TokenKind} {k : TokenKind}
    (hk : ks.head? = some k) (hne : k ≠ .punct .less) :
    Looks version typeParameters 0 ks := by
  intro endLine toks rest h
  have hhead := @headKind_of_kindsOf ks toks rest k h hk
  simp [typeParameters, hhead, hne, pure_apply]

/-- Where no constraints start, none are passed over. -/
theorem looks_skipConstraints
    {ks : List TokenKind} {k : TokenKind} {marks : List Punct} {fault : Fault}
    (hk : ks.head? = some k) (hne : k.keyword? ≠ some "where") :
    Looks version (skipConstraints marks fault) () ks := by
  intro endLine toks rest h
  have hhead := @headKind_of_kindsOf ks toks rest k h hk
  simp [skipConstraints, hhead, hne, pure_apply]

/-! ## Methods, properties and constants -/

/-- The types of the parameters of a constructor. -/
def constructorTypes? : MemberKind → Option (List TypeName)
  | .constructor ps => some (ps.map (·.type))
  | _ => none

/-- The types of the parameters of each constructor among some members. -/
def constructorsIn (kinds : List (String × MemberKind)) : List (List TypeName) :=
  kinds.filterMap (constructorTypes? ·.2)

/-- Of some members none is a constructor. -/
def noConstructors (kinds : List (String × MemberKind)) : Prop :=
  constructorsIn kinds = []

theorem noConstructors_single
    {n : String} {kind : MemberKind}
    (h : constructorTypes? kind = none) :
    noConstructors [(n, kind)] := by
  simp [noConstructors, constructorsIn, h]

theorem reads_method
    {ps body : List TokenKind} {p : Punct}
    (hps : Reads version parameters ps anything anyResult)
    (hopen : ps.head? = some (.punct .openParen))
    (hbody : Reads version (skipBody .expressionBodiedMethod) body anything anyResult)
    (hp : body.head? = some (.punct p)) (type : TypeName) (n : String) (b : Bool) :
    Reads version (namedMembers type) ([.ident n b] ++ (ps ++ body)) anything noConstructors := by
  have hhead : (ps ++ body).head? = some (.punct .openParen) := by simp [hopen]
  unfold namedMembers
  refine (reads_memberName n b).bind hhead (by simp [endsSegments, isMark]) fun _ _ => ?_
  refine .look (looks_typeParameters hhead (by simp)) ?_
  refine .look (looks_sees hhead rfl) ?_
  refine hps.bind hp trivial fun _ _ => ?_
  refine .look (looks_skipConstraints hp (by simp [TokenKind.keyword?])) ?_
  exact hbody.bind_last fun _ _ => .pure (noConstructors_single rfl)

/-- A method with a type parameter. -/
theorem reads_genericMethod
    {v : String} {ks body : List TokenKind} {p : Punct} (hv : v ≠ "in" ∧ v ≠ "out")
    (hps : Reads version parameters (.punct .openParen :: ks) anything anyResult)
    (hbody : Reads version (skipBody .expressionBodiedMethod) body anything anyResult)
    (hp : body.head? = some (.punct p)) (type : TypeName) (n : String) (b : Bool) :
    Reads version (namedMembers type)
      ([.ident n b] ++ ([.punct .less, .ident v false, .punct .greater] ++
        ((.punct .openParen :: ks) ++ body))) anything noConstructors := by
  unfold namedMembers
  refine reads_memberName_generic hv ?_
  have hparameters : Reads version typeParameters [.punct .less, .ident v false, .punct .greater]
      anything anyResult := .look (looks_sees rfl rfl) (reads_typeArguments hv)
  refine hparameters.bind rfl trivial fun _ _ => ?_
  refine .look (looks_sees rfl rfl) ?_
  refine hps.bind hp trivial fun _ _ => ?_
  refine .look (looks_skipConstraints hp (by simp [TokenKind.keyword?])) ?_
  exact hbody.bind_last fun _ _ => .pure (noConstructors_single rfl)

theorem reads_property
    {body : List TokenKind} {p : Punct} {follow : Option TokenKind → Prop}
    (hbody : Reads version skipPropertyBody body follow anyResult)
    (hp : body.head? = some (.punct p)) (hopen : p = .openBrace ∨ p = .arrow)
    (type : TypeName) (n : String) (b : Bool) :
    Reads version (namedMembers type) ([.ident n b] ++ body) follow
      (· = [(n, .property type)]) := by
  unfold namedMembers
  refine (reads_memberName n b).bind hp
    (by rcases hopen with rfl | rfl <;> simp [endsSegments, isMark]) fun _ hn => ?_
  subst hn
  refine .look (looks_typeParameters hp (by rcases hopen with rfl | rfl <;> simp)) ?_
  refine .look (looks_sees hp (by rcases hopen with rfl | rfl <;> rfl)) ?_
  refine .look (looks_sees hp rfl) ?_
  refine .look (looks_sees hp rfl) ?_
  rcases hopen with rfl | rfl <;> exact hbody.bind_last fun _ _ => .pure rfl

/-- A name with a value is the only one of its declaration. -/
theorem reads_fieldNames
    {value : List TokenKind} {k : TokenKind}
    (h : Reads version (skipExpression listedExpressionEnds) value
      (· = some (.punct .semicolon)) anyResult)
    (hk : value.head? = some k) (n : String) :
    Reads version (fieldNames n) ([.punct .assign] ++ value) (· = some (.punct .semicolon))
      anyResult := by
  unfold fieldNames
  refine .loop_done ?_
  refine (reads_accept .assign).bind hk trivial fun _ hb => ?_
  rw [hb]
  refine h.bind_last fun _ _ => ?_
  intro endLine toks rest htoks hrest
  obtain rfl := kindsOf_eq_nil.1 htoks
  exact ⟨.done [n], by simp [hrest, pure_apply], _, rfl, trivial⟩

/-- A constant is a field with a value. -/
theorem reads_constant
    {value : List TokenKind} {k : TokenKind}
    (h : Reads version (skipExpression listedExpressionEnds) value
      (· = some (.punct .semicolon)) anyResult)
    (hk : value.head? = some k) (type : TypeName) (n : String) (b : Bool) :
    Reads version (namedMembers type)
      ([.ident n b] ++ (([.punct .assign] ++ value) ++ [.punct .semicolon]))
      anything noConstructors := by
  unfold namedMembers
  refine (reads_memberName n b).bind rfl (by simp [endsSegments, isMark]) fun _ _ => ?_
  refine .look (looks_typeParameters rfl (by simp)) ?_
  refine .look (looks_sees rfl rfl) ?_
  refine .look (looks_sees rfl rfl) ?_
  refine .look (looks_sees rfl rfl) ?_
  refine .look (looks_sees rfl rfl) ?_
  refine .look (looks_sees rfl rfl) ?_
  refine .look (looks_sees rfl rfl) ?_
  refine .look (looks_sees rfl rfl) ?_
  refine (reads_fieldNames h hk _).bind rfl rfl fun _ _ => ?_
  refine ((reads_expect .semicolon).follow_mono fun _ _ => trivial).bind_last fun _ _ => ?_
  exact .pure (by simp [noConstructors, constructorsIn, constructorTypes?])

end Parse
end CSharp
end ContentModels

import ContentModels.Proofs.SourceTree.TypeNames

/-!
# Reading what stands in front of a declaration

Attributes with string literals, modifiers and lists of parameters are read as what they
are.  The lines of attributes are left out of what is said about them.
-/

namespace ContentModels
namespace CSharp
namespace SourceTree

open Parse

variable {β : Type} {version : LanguageVersion} {next : Option TokenKind → Prop}
variable {ks js : List TokenKind} {k : Option TokenKind} {depth : Nat}

/-! ## Arguments of attributes -/

/-- A literal that is a whole argument is read as its value. -/
theorem reads_attributeValueAt
    (depth : Nat) (value : String) (raw : Bool) :
    Reads version (attributeValueAt (depth + 1)) [.str value false raw] endsArgument
      (· = .str value) := by
  intro endLine toks rest hk hrest
  obtain ⟨l, us, rfl, hus⟩ := kindsOf_eq_cons.1 hk
  obtain rfl := kindsOf_eq_nil.1 hus
  refine ⟨_, ?_, rfl⟩
  rw [attributeValueAt_succ, bind_apply, literalArgument_apply]
  simp only [List.singleton_append, headKind_cons, List.drop_succ_cons, List.drop_zero,
    if_pos hrest]
  rfl

/-- A name in front of an argument is read with the mark behind it. -/
theorem StringArgument.reads_argumentName
    (a : StringArgument) :
    Reads version argumentName ((a.label.map Label.kinds).getD [])
      (· = some (.str a.value false a.raw)) (· = a.label.map (·.name.text)) := by
  intro endLine toks rest hk hrest
  have hbind := @argumentName_bind ⟨version, endLine⟩ (toks ++ rest) _ pure
  rw [bind_pure] at hbind
  refine ⟨_, hbind.trans ?_, rfl⟩
  cases hlabel : a.label with
  | none =>
    rw [hlabel] at hk
    obtain rfl := kindsOf_eq_nil.1 hk
    rw [List.nil_append, if_neg (by rw [hrest]; nofun)]
    rfl
  | some label =>
    rw [hlabel] at hk
    obtain ⟨l, us, rfl, hus⟩ := kindsOf_eq_cons.1 hk
    obtain ⟨l', vs, rfl, hvs⟩ := kindsOf_eq_cons.1 hus
    obtain rfl := kindsOf_eq_nil.1 hvs
    have hmark : Punct.assign = (if label.colon then Punct.colon else .assign) ∨
        Punct.colon = (if label.colon then Punct.colon else .assign) := by
      cases label.colon <;> simp
    rw [if_pos]
    · rfl
    · refine ⟨rfl, ?_⟩
      rcases hmark with h | h <;> simp [← h]

/-- An argument is read with the mark behind it. -/
theorem StringArgument.reads_round
    (a : StringArgument) {before : List AttributeArgument}
    {result : Round (List AttributeArgument) (List AttributeArgument) → Prop}
    (hends : ∀ k, Shows next js 0 k → endsArgument k)
    (h : Reads version (behindArgument (before ++ [a.argument])) js next result) :
    Reads version (argumentName >>= namedArgument (depth + 1) before) (a.kinds ++ js) next
      result := by
  unfold StringArgument.kinds
  rw [List.append_assoc]
  refine a.reads_argumentName.step (fun k hk => hk) ?_
  rintro _ rfl
  unfold namedArgument
  refine (reads_attributeValueAt depth a.value a.raw).step hends ?_
  rintro _ rfl
  exact h

theorem StringArgument.exists_head
    (a : StringArgument) :
    ∃ j, a.kinds.head? = some j ∧ j ≠ .punct .closeParen := by
  unfold StringArgument.kinds
  cases a.label with
  | none => exact ⟨_, rfl, nofun⟩
  | some label => exact ⟨_, rfl, nofun⟩

/-- Arguments between parentheses are read one by one. -/
theorem reads_attributeArgumentsAt
    (arguments : List StringArgument) (depth : Nat) :
    Reads version (attributeArgumentsAt (depth + 2))
      (parenthesised (listedKinds (arguments.map StringArgument.kinds))) anything
      (· = arguments.map StringArgument.argument) := by
  rw [attributeArgumentsAt_succ]
  refine .expect ?_
  cases arguments with
  | nil => exact .accept (.pure rfl)
  | cons a arguments =>
    obtain ⟨j, hj, hne⟩ := a.exists_head
    refine .declines (fun k hk => ?_) ?_
    · rw [shows_listedKinds hj hk]
      simpa using hne
    · refine Reads.loop_listed StringArgument.argument anything (fun read s => s = read)
        (fun read b => b = read) ?_ ?_ ?_ (by simp) rfl
      · intro x _
        obtain ⟨i, hi, -⟩ := x.exists_head
        exact ⟨i, hi, trivial⟩
      · rintro x - read _ rfl
        refine x.reads_round (by rintro k rfl; exact .inl rfl) ?_
        exact .accept (.pure ⟨_, rfl, rfl⟩)
      · rintro x - read _ rfl
        refine x.reads_round (by rintro k rfl; exact .inr rfl) ?_
        refine .declines (by rintro k rfl; nofun) ?_
        exact .expect (.pure ⟨_, rfl, rfl⟩)

/-! ## Sections of attributes -/

/-- Attributes as they are read, without their lines. -/
def AreUses (uses : List AttributeUse) (read : List AttributeUse) : Prop :=
  read.map AttributeUse.withoutLine = uses

/-- A name of an attribute starts with a word. -/
theorem AttributeTree.exists_word
    (a : AttributeTree) :
    ∃ w, a.type.kinds.head? = some (.ident w false) := by
  obtain ⟨w, ws, hw⟩ := a.path.exists_word
  unfold AttributeTree.type
  rw [TypeTree.kinds, hw]
  cases a.fromGlobal with
  | true => exact ⟨_, rfl⟩
  | false => exact ⟨_, rfl⟩

theorem AttributeTree.shows_arguments
    (a : AttributeTree) (h : Shows next (a.argumentKinds ++ js) 0 k) :
    k = some (.punct .openParen) ∨ a.arguments = none ∧ Shows next js 0 k := by
  unfold AttributeTree.argumentKinds at h
  cases harguments : a.arguments with
  | none =>
    rw [harguments] at h
    exact .inr ⟨rfl, h⟩
  | some arguments =>
    rw [harguments] at h
    exact .inl h

/-- The arguments of an attribute, if it has any. -/
theorem AttributeTree.reads_arguments
    (a : AttributeTree) (hdepth : a.kinds.length ≤ depth)
    {q : List AttributeArgument → Parse β} {result : β → Prop}
    (hends : ∀ k, Shows next js 0 k → k ≠ some (.punct .openParen))
    (h : Reads version (q a.use.arguments) js next result) :
    Reads version (sees .openParen >>= fun b =>
        if b = true then attributeArgumentsAt depth >>= q else pure [] >>= q)
      (a.argumentKinds ++ js) next result := by
  unfold AttributeTree.use at h
  unfold AttributeTree.kinds at hdepth
  unfold AttributeTree.argumentKinds at hdepth ⊢
  cases harguments : a.arguments with
  | none =>
    rw [harguments] at h
    exact .misses hends h
  | some arguments =>
    rw [harguments] at h hdepth
    obtain ⟨w, hw⟩ := a.exists_word
    obtain ⟨depth, rfl⟩ : ∃ d, depth = d + 2 := by
      simp only [parenthesised, List.length_append, List.length_cons] at hdepth
      exact ⟨depth - 2, by omega⟩
    refine .sees (by rintro k rfl; rfl) ?_
    refine (reads_attributeArgumentsAt arguments depth).step (fun _ _ => trivial) ?_
    rintro _ rfl
    exact h

/-- An attribute is read with the mark behind it. -/
theorem AttributeTree.reads_round
    (a : AttributeTree) (hdepth : a.kinds.length ≤ depth) {before uses : List AttributeUse}
    (hbefore : AreUses uses before)
    {result : Round (List AttributeUse) (List AttributeUse) → Prop}
    (hends : ∀ k, Shows next js 0 k → endsAttribute k)
    (h : ∀ read, AreUses (uses ++ [a.use]) read → Reads version (do
      if ← accept .comma then
        if ← sees .closeBracket then return .done read
        return .again read
      return .done read) js next result) :
    Reads version (sectionRound depth before) (a.kinds ++ js) next result := by
  have htype : a.type.kinds.length ≤ depth := by
    unfold AttributeTree.kinds at hdepth
    rw [List.length_append] at hdepth
    omega
  unfold sectionRound AttributeTree.kinds
  rw [List.append_assoc]
  refine .line fun line => ?_
  refine (a.type.reads_typeNameAt depth htype).step (fun k hk => ?_) ?_
  · rcases a.shows_arguments hk with rfl | ⟨-, hk⟩
    · simp [endsType, isMark]
    · exact (endsAttribute_spec (hends k hk)).1
  · rintro _ rfl
    refine a.reads_arguments hdepth (fun k hk => (endsAttribute_spec (hends k hk)).2) ?_
    refine h (before ++ [⟨a.type.name, a.use.arguments, line⟩]) ?_
    unfold AreUses at hbefore ⊢
    rw [List.map_append, hbefore]
    rfl

/-- The second token of a section of attributes is no colon. -/
theorem AttributeSection.shows_second
    (s : AttributeSection)
    (h : Shows next (listedKinds ((s.first :: s.more).map AttributeTree.kinds) ++
      .punct .closeBracket :: js) 1 k) :
    k ≠ some (.punct .colon) := by
  obtain ⟨tail, htail, hstart⟩ : ∃ tail,
      listedKinds ((s.first :: s.more).map AttributeTree.kinds) ++ .punct .closeBracket :: js =
        s.first.type.kinds ++ (s.first.argumentKinds ++ tail) ∧
      ∀ k, Shows next tail 0 k → endsAttribute k := by
    cases s.more with
    | nil => exact ⟨_, List.append_assoc _ _ _, by rintro k rfl; exact .inr rfl⟩
    | cons a more =>
      refine ⟨.punct .comma :: (listedKinds ((a :: more).map AttributeTree.kinds) ++
        .punct .closeBracket :: js), ?_, by rintro k rfl; exact .inl rfl⟩
      simp [listedKinds, AttributeTree.kinds]
  obtain ⟨w, hw⟩ := s.first.exists_word
  rw [htail] at h
  rintro rfl
  rcases TypeTree.shows_second hw h with hends | h
  · exact hends (by simp [endsType, isMark])
  · rcases s.first.shows_arguments h with hk | ⟨-, h⟩
    · cases hk
    · rcases hstart _ h with hk | hk <;> cases hk

/-- A section of attributes is read attribute by attribute. -/
theorem AttributeSection.reads_attributeSection
    (s : AttributeSection) :
    Reads version attributeSection s.kinds anything
      (AreUses ((s.first :: s.more).map AttributeTree.use)) := by
  refine .nested fun depth hdepth => ?_
  unfold AttributeSection.kinds bracketed at hdepth ⊢
  rw [List.length_cons, List.length_append] at hdepth
  obtain ⟨depth, rfl⟩ : ∃ d, depth = d + 1 := ⟨depth - 1, by omega⟩
  have hlength : ∀ a ∈ s.first :: s.more, a.kinds.length ≤ depth := fun a ha =>
    Nat.le_trans (length_le_listedKinds (List.mem_map_of_mem ha)) (by omega)
  have hhead : ∀ a : AttributeTree, ∃ w, a.kinds.head? = some (.ident w false) := fun a => by
    obtain ⟨w, hw⟩ := a.exists_word
    exact ⟨w, by simp [AttributeTree.kinds, hw]⟩
  have hloop : Reads version (loop [] (sectionRound depth))
      (listedKinds ((s.first :: s.more).map AttributeTree.kinds))
      (· = some (.punct .closeBracket))
      (AreUses ((s.first :: s.more).map AttributeTree.use)) := by
    rw [← List.append_nil (listedKinds _)]
    refine Reads.loop_listed AttributeTree.use (· ≠ some (.punct .closeBracket)) AreUses AreUses
      (fun a _ => ?_) (fun a ha uses before hbefore => ?_) (fun a ha uses before hbefore => ?_)
      (by simp) rfl
    · obtain ⟨w, hw⟩ := hhead a
      exact ⟨_, hw, nofun⟩
    · refine a.reads_round (hlength a ha) hbefore (by rintro k rfl; exact .inl rfl) ?_
      intro read hread
      refine .accept ?_
      exact .misses (fun _ hk => hk) (.pure ⟨_, rfl, hread⟩)
    · refine a.reads_round (hlength a ha) hbefore (by rintro k rfl; exact .inr rfl) ?_
      intro read hread
      exact .declines (by rintro k rfl; nofun) (.pure ⟨_, rfl, hread⟩)
  obtain ⟨w, hw⟩ := hhead s.first
  rw [attributeSectionAt_succ]
  refine .expect ?_
  unfold targetedSection
  refine .seesIdent (fun k hk => by rw [shows_listedKinds hw hk]) ?_
  refine .misses (fun _ hk => s.shows_second hk) ?_
  rw [if_neg (by simp [TokenKind.ident?])]
  unfold sectionBody
  refine hloop.step (fun k hk => hk) fun uses huses => ?_
  exact .expect (.pure huses)

/-- Sections of attributes are read up to what is no attribute. -/
theorem reads_sections
    (sections : List AttributeSection) :
    Reads version attributeSections (sectionKinds sections) (· ≠ some (.punct .openBracket))
      (AreUses (sectionUses sections)) := by
  have hloop : ∀ uses before, AreUses uses before →
      Reads version (loop before fun uses => do
          if ← sees .openBracket then
            return .again (uses ++ (← attributeSection))
          return .done uses)
        (sectionKinds sections) (· ≠ some (.punct .openBracket))
        (AreUses (uses ++ sectionUses sections)) := by
    induction sections with
    | nil =>
      intro uses before hbefore
      refine .loop_done (.misses (fun _ hk => hk) (.pure ⟨_, rfl, ?_⟩))
      rw [sectionUses, List.flatMap_nil, List.append_nil]
      exact hbefore
    | cons s sections ih =>
      intro uses before hbefore
      have hround : Reads version (do
          if ← sees .openBracket then
            return .again (before ++ (← attributeSection))
          return .done before) s.kinds anything
          (isAgain (AreUses (uses ++ (s.first :: s.more).map AttributeTree.use))) := by
        refine .sees (by rintro k rfl; rfl) ?_
        refine s.reads_attributeSection.returning fun read hread => ⟨_, rfl, ?_⟩
        unfold AreUses at *
        rw [List.map_append, hbefore, hread]
      refine hround.loop_next (by simp [AttributeSection.kinds, bracketed])
        (fun _ _ => trivial) fun read hread => ?_
      exact (ih _ read hread).mono fun b hb => by
        simpa [sectionUses] using hb
  exact hloop [] [] rfl

/-! ## Modifiers -/

/-- What may follow some modifiers. -/
def followsModifiers (ws : List String) (k : Option TokenKind) : Prop :=
  startsNone modifierWords k ∧
    (isMark nameMarks k → ∀ w ∈ ws.getLast?, w ∉ contextualModifiers)

theorem splitModifiers_of_startsNone
    {ts : List Token}
    (h : startsNone modifierWords (headKind ts)) :
    splitModifiers ts = ([], ts) := by
  cases ts with
  | nil => rfl
  | cons t ts =>
    have hstops : StopsModifiers [t.kind] := by
      refine stopsModifiers_of_head rfl fun w hw hmem => ?_
      exact h w hmem (by rw [headKind_cons, hw])
    exact hstops [t] ts rfl

theorem reads_modifiers
    (ws : WordsOf modifierWords) :
    Reads version modifiers (wordKinds (words ws)) (followsModifiers (words ws))
      (· = words ws) := by
  intro endLine toks rest hk hrest
  refine ⟨_, ?_, rfl⟩
  have hwords : ∀ w ∈ words ws, w ∈ modifierWords := by
    intro w hw
    obtain ⟨x, -, rfl⟩ := List.mem_map.1 hw
    exact x.2
  rw [modifiers, splitModifiers_words hk hwords hrest.2 (splitModifiers_of_startsNone hrest.1)]

/-! ## Parameters -/

/-- The tokens that an expression may end in front of in a list. -/
theorem Expression.reads_skipExpression
    {ends : List Punct} (e : Expression)
    (hends : ∀ p ∈ ends, p.isCloser = true ∨ p ∈ [Punct.semicolon, .comma]) :
    Reads version (skipExpression ends) e.kinds (isMark ends) anyResult := by
  intro endLine toks rest hk hrest
  refine ⟨(), skipExpression_eq_ok.2 ⟨?_, ?_⟩, trivial⟩
  · rw [dropToMark_undivided hends (hk ▸ e.balanced) (hk ▸ e.undivided)]
    cases rest with
    | nil => exact hrest.elim
    | cons t rest =>
      obtain ⟨p, hp, hmem⟩ : ∃ p, t.kind = .punct p ∧ p ∈ ends := by
        cases hkind : t.kind with
        | punct p => exact ⟨p, rfl, by simpa [isMark, hkind] using hrest⟩
        | ident | str | character | number => simp [isMark, hkind] at hrest
      have hcloser : p.closer? = none := by
        rcases hends p hmem with h | h
        · cases p <;> first | rfl | cases h
        · revert h
          cases p <;> simp [Punct.closer?]
      rw [dropToMark, if_neg (by simp [Token.opensGroup, hp, hcloser]),
        if_pos (by simp [Token.isOneOf, hp, hmem])]
  · have hne : toks ≠ [] := by
      rintro rfl
      exact e.ne_nil hk.symm
    have := List.length_pos_iff.2 hne
    rw [List.length_append]
    omega

/-- A value behind an equals sign is passed over. -/
theorem reads_initial
    {q : Parse β} {result : β → Prop} (value : Option Expression)
    (hends : ∀ k, Shows next js 0 k → isMark listedExpressionEnds k)
    (h : Reads version q js next result) :
    Reads version (accept .assign >>= fun b =>
        if b = true then skipExpression listedExpressionEnds >>= fun _ => q else q)
      (initialKinds value ++ js) next result := by
  cases value with
  | none =>
    refine .declines (fun k hk => ?_) h
    rintro rfl
    have hmark := hends _ hk
    simp [isMark, listedExpressionEnds, expressionEnds] at hmark
  | some e =>
    refine .accept ?_
    exact (e.reads_skipExpression (by decide)).step hends fun _ _ => h

theorem shows_words
    {ws : List String}
    (h : Shows next (wordKinds ws ++ js) 0 k) :
    (∃ w ∈ ws, k = some (.ident w false)) ∨ ws = [] ∧ Shows next js 0 k := by
  cases ws with
  | nil => exact .inr ⟨rfl, h⟩
  | cons w ws => exact .inl ⟨w, List.mem_cons_self, h⟩

theorem mem_words
    {allowed : List String} {ws : WordsOf allowed} {w : String}
    (h : w ∈ words ws) :
    w ∈ allowed := by
  obtain ⟨x, -, rfl⟩ := List.mem_map.1 h
  exact x.2

/-- A parameter is read as its type and name, with the words in front of them. -/
theorem ParameterTree.reads_parameter
    (p : ParameterTree) :
    Reads version Parse.parameter p.kinds endsArgument (· = some p.parameter) := by
  unfold ParameterTree.kinds Parse.parameter
  refine (reads_sections p.attributes).step (fun k hk => ?_) fun _ _ => ?_
  · rcases shows_words hk with ⟨w, -, rfl⟩ | ⟨-, hk⟩
    · nofun
    · obtain ⟨j, rfl, hstarts⟩ := p.type.shows hk
      simpa using hstarts.ne_punct (by decide)
  refine (reads_keywords fun w => mem_words).step (fun k hk => ?_) ?_
  · obtain ⟨j, rfl, hstarts⟩ := p.type.shows hk
    exact hstarts.startsNone (by decide)
  rintro _ rfl
  refine .missesKeyword (fun k hk => ?_) ?_
  · obtain ⟨j, rfl, hstarts⟩ := p.type.shows hk
    exact hstarts.keyword?_ne (by decide)
  rw [if_neg Bool.false_ne_true]
  refine p.type.reads_typeName.step (by rintro k rfl; simp [endsType, isMark, Identifier.kind]) ?_
  rintro _ rfl
  refine .ident ?_
  rw [← List.append_nil (initialKinds p.default)]
  refine reads_initial p.default (fun k hk => ?_) (.pure rfl)
  rcases hk with rfl | rfl <;> simp [isMark, listedExpressionEnds, expressionEnds]

theorem ParameterTree.exists_head
    (p : ParameterTree) :
    ∃ j, p.kinds.head? = some j ∧ j ≠ .punct .closeParen := by
  unfold ParameterTree.kinds
  cases p.attributes with
  | cons s sections => exact ⟨_, rfl, nofun⟩
  | nil =>
    cases words p.modifiers with
    | cons w ws => exact ⟨_, rfl, nofun⟩
    | nil =>
      obtain ⟨j, hj, hstarts⟩ := p.type.exists_head
      exact ⟨j, by simp [sectionKinds, hj], hstarts.ne_punct (by decide)⟩

/-- A list of parameters is read parameter by parameter. -/
theorem reads_parameters
    (ps : List ParameterTree) :
    Reads version parameters (parameterListKinds ps) anything
      (· = ps.map ParameterTree.parameter) := by
  unfold parameters parameterListKinds
  refine .expect ?_
  cases ps with
  | nil => exact .accept (.pure rfl)
  | cons p ps =>
    obtain ⟨j, hj, hne⟩ := p.exists_head
    refine .declines (fun k hk => by rw [shows_listedKinds hj hk]; simpa using hne) ?_
    refine Reads.loop_listed ParameterTree.parameter anything (fun read s => s = read)
      (fun read b => b = read) (fun x _ => ?_) ?_ ?_ (by simp) rfl
    · obtain ⟨i, hi, -⟩ := x.exists_head
      exact ⟨i, hi, trivial⟩
    · rintro x - read _ rfl
      refine x.reads_parameter.step (by rintro k rfl; exact .inl rfl) ?_
      rintro _ rfl
      exact .accept (.pure ⟨_, rfl, rfl⟩)
    · rintro x - read _ rfl
      refine x.reads_parameter.step (by rintro k rfl; exact .inr rfl) ?_
      rintro _ rfl
      refine .declines (by rintro k rfl; nofun) ?_
      exact .expect (.pure ⟨_, rfl, rfl⟩)

end SourceTree
end CSharp
end ContentModels

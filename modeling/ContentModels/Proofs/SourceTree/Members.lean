import ContentModels.Proofs.SourceTree.Heads

/-!
# Reading the members of a tree

Every member is read as what it declares (`MemberTree.reads_memberKinds`), provided it is of a
form that is read as what it is.  Bodies and values are passed over to their end, whatever
their tokens are.
-/

namespace ContentModels
namespace CSharp
namespace SourceTree

open Parse

variable {α β : Type} {version : LanguageVersion} {next : Option TokenKind → Prop}
variable {ks js : List TokenKind} {k : Option TokenKind}

theorem reads_block
    (g : Group) :
    Reads version skipGroup (braced g.kinds) anything anyResult :=
  reads_skipGroup rfl g.balanced

/-! ## Bodies -/

theorem AccessorTree.exists_head
    (a : AccessorTree) :
    ∃ j, a.kinds.head? = some j ∧ j ≠ .punct .closeBrace := by
  unfold AccessorTree.kinds
  cases a.attributes with
  | cons s sections => exact ⟨_, rfl, nofun⟩
  | nil =>
    cases words a.modifiers with
    | cons w ws => exact ⟨_, rfl, nofun⟩
    | nil => exact ⟨_, rfl, nofun⟩

section Bodies

variable (hversion : ∀ feature, version.supports feature = true)
include hversion

/-- An expression behind an arrow is passed over. -/
theorem Expression.reads_skipArrowBody
    (e : Expression) (feature : Feature) :
    Reads version (skipArrowBody feature) (arrowKinds e) anything anyResult := by
  unfold skipArrowBody arrowKinds
  refine .line fun line => .require (hversion feature) (.advance ?_)
  refine (e.reads_skipExpression (by decide)).step ?_ fun _ _ => ?_
  · rintro k rfl
    simp [isMark, expressionEnds]
  · exact (reads_expect .semicolon)

theorem BodyTree.reads_skipBody
    (b : BodyTree) (feature : Feature) :
    Reads version (skipBody feature) b.kinds anything anyResult := by
  unfold skipBody
  cases b with
  | block statements => exact .look (looks_sees rfl rfl) (reads_block statements)
  | arrow value =>
    refine .look (looks_sees rfl rfl) (.look (looks_sees rfl rfl) ?_)
    exact value.reads_skipArrowBody hversion feature
  | absent =>
    refine .look (looks_sees rfl rfl) (.look (looks_sees rfl rfl) ?_)
    exact reads_expect .semicolon

/-- An accessor of a property is passed over. -/
theorem AccessorTree.reads_skipAccessor
    (a : AccessorTree) :
    Reads version skipAccessor a.kinds anything anyResult := by
  obtain ⟨attributes, modifiers, ⟨w, hw⟩, body⟩ := a
  have hnone : startsNone accessorModifiers (some (.ident w false)) := by
    have hdisjoint : ∀ w ∈ accessorWords, w ∉ accessorModifiers := by decide
    rintro v hv heq
    cases heq
    exact hdisjoint w hw hv
  unfold AccessorTree.kinds skipAccessor
  refine (reads_sections attributes).step (fun k hk => ?_) fun _ _ => ?_
  · rcases shows_words hk with ⟨v, -, rfl⟩ | ⟨-, rfl⟩ <;> nofun
  refine (reads_keywords fun v => mem_words).step (by rintro k rfl; exact hnone) fun _ _ => ?_
  refine .line fun line => .look (looks_peek rfl) ?_
  have hbody := body.reads_skipBody hversion .expressionBodiedAccessor
  simp only [accessorWords, List.mem_cons, List.not_mem_nil, or_false] at hw
  rcases hw with rfl | rfl | rfl | rfl | rfl
  · exact .advance hbody
  · exact .advance hbody
  · exact .require (hversion _) (.advance hbody)
  · exact .advance hbody
  · exact .advance hbody

/-- One step in passing over the accessors of a property. -/
def accessorRound : Parse (Round Unit Unit) := do
  if (← peek).isNone then fail (.expected .closeBrace)
  if ← accept .closeBrace then return .done ()
  skipAccessor
  return .again ()

/-- Accessors are passed over up to the brace behind them. -/
theorem reads_accessors
    (accessors : List AccessorTree) :
    Reads version (loop () fun _ => accessorRound)
      (accessors.flatMap AccessorTree.kinds ++ [.punct .closeBrace]) anything anyResult := by
  induction accessors with
  | nil =>
    refine .loop_done (.look (looks_peek rfl) ?_)
    exact .accept (.pure ⟨_, rfl, trivial⟩)
  | cons a accessors ih =>
    obtain ⟨j, hj, hne⟩ := a.exists_head
    rw [List.flatMap_cons, List.append_assoc]
    refine Reads.loop_next (?_ : Reads _ _ _ anything (isAgain anyResult)) ?_ (fun _ _ => trivial)
      fun _ _ => ih
    · refine .look (looks_peek hj) (.look (looks_accept hj hne) ?_)
      exact (a.reads_skipAccessor hversion).returning fun _ _ => ⟨_, rfl, trivial⟩
    · rintro hnil
      rw [hnil] at hj
      cases hj

/-- What stands behind the name of a property is passed over. -/
theorem PropertyBody.reads_skipPropertyBody
    (b : PropertyBody) :
    Reads version skipPropertyBody b.kinds notAssign anyResult := by
  unfold skipPropertyBody
  cases b with
  | arrow value =>
    refine .look (looks_sees rfl rfl) ?_
    exact (value.reads_skipArrowBody hversion _).follow_mono fun _ _ => trivial
  | block accessors initial =>
    rw [PropertyBody.kinds, braced, List.cons_append]
    refine .look (looks_sees rfl rfl) (.expect ?_)
    refine (reads_accessors hversion accessors).step (fun _ _ => trivial) fun _ _ => ?_
    cases initial with
    | none => exact .misses (fun _ hk => hk) (.pure trivial)
    | some e =>
      refine .look (looks_sees rfl rfl) (.line fun line => .require (hversion _) (.advance ?_))
      refine (e.reads_skipExpression (by decide)).step ?_ fun _ _ => ?_
      · rintro k rfl
        simp [isMark, expressionEnds]
      · exact (reads_expect .semicolon).follow_mono fun _ _ => trivial

end Bodies

theorem PropertyBody.exists_head
    (b : PropertyBody) :
    b.kinds.head? = some (.punct .openBrace) ∨ b.kinds.head? = some (.punct .arrow) := by
  cases b with
  | block accessors initial => exact .inl rfl
  | arrow value => exact .inr rfl

/-! ## Names -/

/-- The name of a member ends in front of its type parameters. -/
theorem reads_memberName
    {q : String → Parse β} {result : β → Prop} (name : Identifier)
    (typeParameters : List TypeParameter)
    (hends : ∀ k, Shows next js 0 k → endsSegments k)
    (h : Reads version (q name.text) (angled (typeParameters.map TypeParameter.kinds) ++ js) next
      result) :
    Reads version (memberName >>= q)
      (name.kind :: (angled (typeParameters.map TypeParameter.kinds) ++ js)) next result := by
  cases typeParameters with
  | nil =>
    refine (Parse.reads_memberName name.text false).step hends ?_
    rintro _ rfl
    exact h
  | cons p ps =>
    obtain ⟨w, hw⟩ := p.exists_head
    unfold memberName
    rw [bind_assoc]
    refine .ident ?_
    intro endLine toks rest hk hrest
    rw [bind_of_ok (loop_of_done ?_)]
    · exact h endLine toks rest hk hrest
    obtain ⟨us, vs, rfl, hus, hvs⟩ := kindsOf_eq_append.1 hk
    have hfollow := hends _ (shows_headKind_zero hvs hrest)
    obtain ⟨arity, harity, -⟩ :=
      @reads_typeArguments version (p :: ps) (by simp) endLine us (vs ++ rest) hus trivial
    have hdot : headKind (vs ++ rest) ≠ some (.punct .dot) := by
      intro h
      simp [endsSegments, isMark, h] at hfollow
    have hnone := qualifierArguments_of_typeArguments harity hdot
    obtain ⟨l, us', rfl, hus'⟩ := kindsOf_eq_cons.1 hus
    have hsecond : headKind (us' ++ (vs ++ rest)) = some (.ident w false) :=
      headKind_of_kindsOf hus' (by simp [head?_listedKinds _ hw])
    rw [List.cons_append] at hnone
    simp [hsecond, bind_of_ok hnone]

/-- What stands behind a name that is none of a generic method. -/
theorem reads_plainName
    {q : String → Nat → Parse β} {result : β → Prop} (name : Identifier)
    (hends : ∀ k, Shows next js 0 k → endsSegments k)
    (h : Reads version (q name.text 0) js next result) :
    Reads version (memberName >>= fun n => typeParameters >>= q n) (name.kind :: js) next
      result := by
  have hless : ∀ k, Shows next js 0 k → k ≠ some (.punct .less) := by
    rintro _ hk rfl
    exact hends _ hk (by simp [isMark])
  refine reads_memberName name [] hends ?_
  refine (reads_typeParameters []).step hless ?_
  rintro _ rfl
  exact h

/-! ## What stands behind a type -/

/-- The tokens of a name with its initial value, and of those behind it. -/
def laterKinds (initial : Option Expression) (more : List Declarator) : List TokenKind :=
  initialKinds initial ++ more.flatMap fun d => .punct .comma :: d.kinds

theorem declaratorKinds_eq
    (first : Declarator) (more : List Declarator) :
    declaratorKinds first more =
      first.name.kind :: (laterKinds first.initial more ++ [.punct .semicolon]) := by
  unfold declaratorKinds laterKinds
  rw [List.map_cons, listedKinds_cons, List.flatMap_map]
  rfl

/-- Names are read one by one, and their initial values are passed over. -/
theorem reads_fieldNames
    (first : Declarator) (more : List Declarator) :
    Reads version (fieldNames first.name.text) (laterKinds first.initial more)
      (· = some (.punct .semicolon)) (· = (first :: more).map (·.name.text)) := by
  unfold fieldNames
  suffices ∀ initial names, Reads version (loop names fun names => do
      if ← accept .assign then skipExpression listedExpressionEnds
      if ← accept .comma then
        return .again (names ++ [← ident])
      return .done names) (laterKinds initial more) (· = some (.punct .semicolon))
      (· = names ++ more.map (·.name.text)) from this first.initial [first.name.text]
  intro initial names
  induction more generalizing initial names with
  | nil =>
    refine .loop_done (reads_initial initial ?_ ?_)
    · rintro k rfl
      simp [isMark, listedExpressionEnds, expressionEnds]
    · exact .declines (by rintro k rfl; simp) (.pure ⟨_, rfl, by simp⟩)
  | cons d more ih =>
    have hkinds : laterKinds initial (d :: more) =
        (initialKinds initial ++ [.punct .comma, d.name.kind]) ++ laterKinds d.initial more := by
      simp [laterKinds, Declarator.kinds]
    rw [hkinds]
    refine Reads.loop_next (?_ : Reads _ _ _ anything (isAgain (· = names ++ [d.name.text])))
      (by simp) (fun _ _ => trivial) ?_
    · refine reads_initial initial ?_ ?_
      · rintro k rfl
        simp [isMark, listedExpressionEnds, expressionEnds]
      · exact .accept (.ident (.pure ⟨_, rfl, rfl⟩))
    · rintro _ rfl
      exact (ih d.initial _).mono fun _ h => by simpa using h

/-- The marks that may follow the name of a field. -/
theorem exists_head_later
    (initial : Option Expression) (more : List Declarator) :
    ∃ p, (laterKinds initial more ++ [TokenKind.punct .semicolon]).head? = some (.punct p) ∧
      (p = .assign ∨ p = .comma ∨ p = .semicolon) := by
  unfold laterKinds
  cases initial with
  | some e => exact ⟨_, rfl, .inl rfl⟩
  | none =>
    cases more with
    | nil => exact ⟨_, rfl, .inr (.inr rfl)⟩
    | cons d more => exact ⟨_, rfl, .inr (.inl rfl)⟩

theorem reads_namedMembers_field
    (type : TypeName) (first : Declarator) (more : List Declarator) :
    Reads version (namedMembers type) (declaratorKinds first more) anything
      (· = (first :: more).map fun d => (d.name.text, .field type)) := by
  obtain ⟨p, hp, hmark⟩ := exists_head_later first.initial more
  rw [declaratorKinds_eq]
  unfold namedMembers
  refine reads_plainName first.name (fun k hk => ?_) ?_
  · rw [shows_of_head? hp hk]
    rcases hmark with rfl | rfl | rfl <;> simp [endsSegments, isMark]
  refine .look (looks_sees hp rfl) ?_
  rw [if_neg (by rcases hmark with rfl | rfl | rfl <;> decide)]
  refine .look (looks_sees hp rfl) (.look (looks_sees hp rfl) ?_)
  rw [if_neg (by rcases hmark with rfl | rfl | rfl <;> decide)]
  refine .look (looks_sees hp rfl) ?_
  rw [if_neg (by rcases hmark with rfl | rfl | rfl <;> decide)]
  refine .look (looks_sees hp rfl) (.look (looks_sees hp rfl) (.look (looks_sees hp rfl) ?_))
  rw [if_neg (by rcases hmark with rfl | rfl | rfl <;> decide)]
  refine (reads_fieldNames first more).step (fun k hk => hk) ?_
  rintro _ rfl
  exact .expect (.pure (by simp))

/-- Where no constraints start, none are passed over. -/
theorem reads_noConstraints
    {marks : List Punct} {fault : Fault} {q : Unit → Parse β} {result : β → Prop}
    (hne : ∀ k, Shows next ks 0 k → k.bind TokenKind.keyword? ≠ some "where")
    (h : Reads version (q ()) ks next result) :
    Reads version (skipConstraints marks fault >>= q) ks next result := by
  unfold skipConstraints
  rw [bind_assoc]
  exact .missesKeyword hne h

theorem BodyTree.exists_head
    (b : BodyTree) :
    ∃ p, b.kinds.head? = some (.punct p) := by
  cases b <;> exact ⟨_, rfl⟩

section Named

variable (hversion : ∀ feature, version.supports feature = true)
include hversion

theorem reads_namedMembers_property
    (type : TypeName) (name : Identifier) (body : PropertyBody) :
    Reads version (namedMembers type) (name.kind :: body.kinds) notAssign
      (· = [(name.text, .property type)]) := by
  have hbody := body.reads_skipPropertyBody hversion
  rcases body.exists_head with hp | hp
  · exact reads_property hbody hp (.inl rfl) type name.text false
  · exact reads_property hbody hp (.inr rfl) type name.text false

theorem reads_namedMembers_method
    (type : TypeName) (name : Identifier) (typeParameters : List TypeParameter)
    (parameters : List ParameterTree) (body : BodyTree) :
    Reads version (namedMembers type)
      (name.kind :: (angled (typeParameters.map TypeParameter.kinds) ++
        (parameterListKinds parameters ++ body.kinds))) anything
      (· = [(name.text, .method type (parameters.map ParameterTree.parameter))]) := by
  obtain ⟨p, hp⟩ := body.exists_head
  unfold namedMembers
  refine reads_memberName name typeParameters ?_ ?_
  · rintro k rfl
    simp [endsSegments, isMark]
  refine (SourceTree.reads_typeParameters typeParameters).step (by rintro k rfl; simp)
    fun _ _ => ?_
  refine .look (looks_sees rfl rfl) ?_
  refine (reads_parameters parameters).step (fun _ _ => trivial) ?_
  rintro _ rfl
  refine reads_noConstraints (fun k hk => ?_) ?_
  · rw [shows_of_head? hp hk]
    simp [TokenKind.keyword?]
  exact (body.reads_skipBody hversion _).returning fun _ _ => rfl

end Named

/-! ## Members -/

/-- A type in front of a member, behind whose first word no parenthesis opens. -/
theorem TypeTree.reads_memberKinds
    (t : TypeTree) (owner : Identifier) {result : List (String × MemberKind) → Prop} {w : String}
    (hw : js.head? = some (.ident w false))
    (h : Reads version (behindType t.name) js next result) :
    Reads version (memberKinds owner.text) (t.kinds ++ js) next result := by
  obtain ⟨j, hj, hstarts⟩ := t.exists_head
  refine reads_memberKinds_type (readsType_of_spellsType t.spellsType) t.spellsType.no_call ?_ hw ?_
  · rw [hj]
    exact hstarts.startsNone (by decide)
  · rintro _ rfl
    exact h

/-- A name behind a type is that of a member. -/
theorem reads_behindType_named
    {type : TypeName} {result : List (String × MemberKind) → Prop} (name : Identifier)
    (h : Reads version (namedMembers type) (name.kind :: js) next result) :
    Reads version (behindType type) (name.kind :: js) next result := by
  have hword : ∀ w, IsOtherKeyword w → ∀ k, Shows next (name.kind :: js) 0 k →
      k.bind TokenKind.keyword? ≠ some w := by
    rintro w hw k rfl heq
    exact name.not_isOtherKeyword (Option.some.inj heq ▸ hw)
  unfold behindType
  refine .missesKeyword (hword _ (by decide)) ?_
  rw [if_neg Bool.false_ne_true]
  refine .missesKeyword (hword _ (by decide)) (.sees_any fun b => ?_)
  rw [Bool.false_and, if_neg Bool.false_ne_true]
  exact h

/-- The tokens of parameters start with a parenthesis, whatever the parameters are. -/
theorem reads_anyParameters
    (ps : List ParameterTree) :
    Reads version parameters (parameterListKinds ps) anything anyResult :=
  (reads_parameters ps).mono fun _ _ => trivial

section Operators

variable (hversion : ∀ feature, version.supports feature = true)
include hversion

theorem reads_behindType_indexer
    (type : TypeName) (parameters : Group) (body : PropertyBody) :
    Reads version (behindType type)
      (.ident "this" false :: (bracketed parameters.kinds ++ body.kinds)) notAssign
      (· = [("this", .indexer)]) := by
  unfold behindType
  refine .look (looks_seesKeyword rfl rfl) ?_
  rw [if_neg (by decide)]
  refine .look (looks_seesKeyword rfl rfl) (.look (looks_sees rfl rfl) (.advance ?_))
  refine (reads_skipGroup rfl parameters.balanced).step (fun _ _ => trivial) fun _ _ => ?_
  exact (body.reads_skipPropertyBody hversion).returning fun _ _ => rfl

end Operators

/-- An initial value is passed over with the semicolon behind it. -/
theorem reads_skipStatement
    (initial : Option Expression) :
    Reads version skipStatement (initialKinds initial ++ [.punct .semicolon]) anything
      anyResult := by
  have hbalanced : Balanced (initialKinds initial) ∧
      noneOutside [.semicolon, .comma] [] (initialKinds initial) = true := by
    cases initial with
    | none => exact ⟨.nil, rfl⟩
    | some e => exact ⟨e.balanced, e.undivided⟩
  intro endLine toks rest hk _
  obtain ⟨us, vs, rfl, hus, hvs⟩ := kindsOf_eq_append.1 hk
  obtain ⟨l, nothing, rfl, hnothing⟩ := kindsOf_eq_cons.1 hvs
  obtain rfl := kindsOf_eq_nil.1 hnothing
  have hskip : skipTo [.semicolon] ⟨version, endLine⟩ (us ++ ⟨.punct .semicolon, l⟩ :: rest) =
      .ok ((), ⟨.punct .semicolon, l⟩ :: rest) := by
    have hmarks : ∀ p ∈ [Punct.semicolon], p.isCloser = true ∨ p ∈ [Punct.semicolon, .comma] := by
      decide
    unfold skipTo
    rw [dropToMark_undivided hmarks (hus ▸ hbalanced.1) (hus ▸ hbalanced.2)]
    rfl
  refine ⟨(), ?_, trivial⟩
  unfold skipStatement
  rw [List.append_assoc, List.singleton_append, bind_of_ok hskip]
  rfl

/-- A call of another constructor is passed over. -/
theorem reads_skipConstructorChain
    (chain : Option ChainTree) :
    Reads version skipConstructorChain ((chain.map ChainTree.kinds).getD [])
      (· ≠ some (.punct .colon)) anyResult := by
  unfold skipConstructorChain
  cases chain with
  | none => exact .declines (fun _ hk => hk) (.pure trivial)
  | some c =>
    refine Reads.follow_mono (?_ : Reads _ _ _ anything _) fun _ _ => trivial
    refine Parse.reads_skipConstructorChain ?_ c.arguments.balanced
    cases c.ofBase with
    | true => exact .inl rfl
    | false => exact .inr rfl

/-- A word that is no keyword of a member starts none. -/
theorem Identifier.notMem_memberWords
    (i : Identifier) :
    i.text ∉ memberWords := by
  have hother : ∀ w ∈ memberWords, IsOtherKeyword w := by decide
  exact fun h => i.not_isOtherKeyword (hother _ h)

section Members

variable (hversion : ∀ feature, version.supports feature = true)
include hversion

theorem reads_memberKinds_constructor
    (owner : Identifier) (parameters : List ParameterTree) (chain : Option ChainTree)
    (body : BodyTree) :
    Reads version (memberKinds owner.text) ([owner.kind] ++ (parameterListKinds parameters ++
        ((chain.map ChainTree.kinds).getD [] ++ body.kinds))) anything
      (· = [(owner.text, .constructor (parameters.map ParameterTree.parameter))]) := by
  obtain ⟨p, hp⟩ := body.exists_head
  have hcolon : ∀ k, Shows anything body.kinds 0 k → k ≠ some (.punct .colon) := by
    intro k hk
    rw [shows_of_head? hp hk]
    cases body <;> cases hp <;> simp
  obtain ⟨k, hk⟩ : ∃ k, ((chain.map ChainTree.kinds).getD [] ++ body.kinds).head? = some k := by
    cases chain with
    | none => exact ⟨_, hp⟩
    | some c => exact ⟨_, rfl⟩
  have hrest := (reads_skipConstructorChain chain : Reads version _ _ _ _).step hcolon fun _ _ =>
    body.reads_skipBody hversion .expressionBodiedConstructor
  refine (reads_constructor owner.notMem_memberWords (reads_parameters parameters) hrest hk).mono ?_
  rintro _ ⟨_, rfl, rfl⟩
  rfl

theorem reads_memberKinds_destructor
    (owner : Identifier) (body : BodyTree) :
    Reads version (memberKinds owner.text)
      ([.punct .tilde] ++ ([owner.kind] ++ (parameterListKinds [] ++ body.kinds))) anything
      (· = [(owner.text, .destructor)]) := by
  unfold memberKinds
  refine .look (looks_seesKeyword rfl rfl) (.look (looks_seesKeyword rfl rfl) ?_)
  refine .look (looks_seesKeyword rfl rfl) (.accept (.ident ?_))
  refine (reads_parameters []).step (fun _ _ => trivial) fun _ _ => ?_
  exact (body.reads_skipBody hversion _).returning fun _ _ => rfl

theorem reads_memberKinds_conversion
    (owner : Identifier) (implicit : Bool) {target : List TokenKind}
    (htarget : .punct .openParen ∉ target) (parameters : List ParameterTree) (body : BodyTree) :
    Reads version (memberKinds owner.text)
      ([.ident (if implicit then "implicit" else "explicit") false] ++
        ((.ident "operator" false :: target) ++ (parameterListKinds parameters ++ body.kinds)))
      anything (· = [("operator", .operator)]) := by
  obtain ⟨p, hp⟩ := body.exists_head
  have hskip : Reads version (skipOperator >>= fun _ => pure [("operator", MemberKind.operator)])
      ((.ident "operator" false :: target) ++ (parameterListKinds parameters ++ body.kinds))
      anything (· = [("operator", .operator)]) :=
    (reads_skipOperator (by simpa using htarget) (reads_anyParameters parameters)
      (body.reads_skipBody hversion _) hp).returning fun _ _ => rfl
  unfold memberKinds
  cases implicit with
  | true =>
    refine .look (looks_seesKeyword rfl rfl) (.look (looks_seesKeyword rfl rfl) ?_)
    exact .look (looks_seesKeyword rfl rfl) (.advance hskip)
  | false =>
    refine .look (looks_seesKeyword rfl rfl) (.look (looks_seesKeyword rfl rfl) ?_)
    exact .look (looks_seesKeyword rfl rfl) (.advance hskip)

omit hversion in
/-- An event is read as the first name behind its type. -/
theorem reads_memberKinds_event
    {k : TokenKind} (owner : Identifier) (type : TypeTree) (name : Identifier)
    (hk : js.head? = some k)
    (h : Reads version (if (some k == some (.punct .openBrace)) = true then skipGroup
      else skipStatement) js anything anyResult) :
    Reads version (memberKinds owner.text)
      ([.ident "event" false] ++ (type.kinds ++ (name.kind :: js))) anything
      (· = [(name.text, .event)]) := by
  unfold memberKinds
  refine .look (looks_seesKeyword rfl rfl) (.advance ?_)
  refine type.reads_typeName.step ?_ fun _ _ => .ident ?_
  · rintro k rfl
    simp [endsType, isMark, Identifier.kind]
  · cases hbrace : some k == some (.punct .openBrace) with
    | true =>
      rw [hbrace] at h
      exact .look (looks_sees hk hbrace) (h.returning fun _ _ => rfl)
    | false =>
      rw [hbrace] at h
      exact .look (looks_sees hk hbrace) (h.returning fun _ _ => rfl)

/-- A member of a form that is read as what it is, is read as what it declares. -/
theorem MemberTree.reads_memberKinds
    (m : MemberTree) (owner : Identifier) {modifiers : List String}
    (hplain : m.IsPlain modifiers) :
    Reads version (memberKinds owner.text) (m.kinds owner) notAssign
      (· = m.declares owner) := by
  have hends : ∀ {ks : List TokenKind} {result : List (String × MemberKind) → Prop},
      Reads version (memberKinds owner.text) ks anything result →
      Reads version (memberKinds owner.text) ks notAssign result :=
    fun h => h.follow_mono fun _ _ => trivial
  cases m with
  | field type first more =>
    rw [MemberTree.kinds, declaratorKinds_eq]
    refine hends (type.reads_memberKinds owner rfl (reads_behindType_named first.name ?_))
    rw [← declaratorKinds_eq]
    exact reads_namedMembers_field type.name first more
  | property type name body =>
    refine type.reads_memberKinds owner rfl (reads_behindType_named name ?_)
    exact reads_namedMembers_property hversion type.name name body
  | method type name typeParameters parameters body =>
    refine hends (type.reads_memberKinds owner rfl (reads_behindType_named name ?_))
    exact reads_namedMembers_method hversion type.name name typeParameters parameters body
  | indexer type parameters body =>
    exact type.reads_memberKinds owner rfl
      (reads_behindType_indexer hversion type.name parameters body)
  | operator type symbol parameters body =>
    obtain ⟨p, hp⟩ := body.exists_head
    exact hends (type.reads_memberKinds owner rfl (reads_behindType_operator symbol.flat
      (reads_anyParameters parameters) (body.reads_skipBody hversion _) hp type.name))
  | constructor parameters chain body =>
    exact hends (reads_memberKinds_constructor hversion owner parameters chain body)
  | destructor body => exact hends (reads_memberKinds_destructor hversion owner body)
  | event type first more =>
    obtain rfl : more = [] := hplain
    obtain ⟨p, hp, hmark⟩ := exists_head_later first.initial []
    rw [MemberTree.kinds, declaratorKinds_eq]
    refine hends (reads_memberKinds_event owner type first.name hp ?_)
    rw [if_neg (by rcases hmark with rfl | rfl | rfl <;> decide), laterKinds, List.flatMap_nil,
      List.append_nil]
    exact reads_skipStatement first.initial
  | customEvent type name accessors =>
    exact hends (reads_memberKinds_event owner type name rfl (reads_block accessors))
  | conversion implicit target parameters body =>
    exact hends (reads_memberKinds_conversion hversion owner implicit hplain parameters body)

end Members

end SourceTree
end CSharp
end ContentModels

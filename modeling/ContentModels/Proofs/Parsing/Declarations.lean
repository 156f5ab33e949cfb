import ContentModels.CSharp.Parse.Unit
import ContentModels.Proofs.Parsing.Members

/-!
# Reading declarations

What the reader of a class body does with generated members: each of them is one round of
the loop over the body, so that a body of such members is read to its end and holds no
other types.
-/

namespace ContentModels
namespace CSharp
namespace Parse

variable {version : LanguageVersion} {ks js : List TokenKind} {name : String}

/-! ## Members behind their type -/

/-- The words that start a type declaration. -/
def typeWords : List String :=
  ["class", "interface", "struct", "enum", "record", "delegate"]

/-- The words that start a member without a type in front. -/
def memberWords : List String :=
  ["event", "implicit", "explicit"]

/-- The words that a member is read for in front of its type. -/
def leadingWords : List String :=
  memberWords ++ typeWords ++ modifierWords ++ parameterWords

/-- The type of a member, which starts with no other declaration. -/
structure ReadsMemberType (version : LanguageVersion) (ks : List TokenKind) : Prop
    extends ReadsType version ks anyResult where
  no_call : ∀ w b js, ks = .ident w b :: js → js.head? ≠ some (.punct .openParen)
  starts : startsNone leadingWords ks.head?

/-- What a member is read for behind its type. -/
def behindType (type : TypeName) : Parse (List (String × MemberKind)) := do
  if ← seesKeyword "operator" then
    skipOperator
    return [("operator", .operator)]
  if (← seesKeyword "this") && (← sees .openBracket 1) then
    advance
    skipGroup
    skipPropertyBody
    return [("this", .indexer)]
  namedMembers type

/-- A member that starts with a type, behind which no parenthesis makes it a constructor. -/
theorem reads_memberKinds_type
    {follow : Option TokenKind → Prop} {good : TypeName → Prop}
    {result : List (String × MemberKind) → Prop} {n : String} {b : Bool}
    (h : ReadsType version ks good)
    (hcall : ∀ w b js, ks = .ident w b :: js → js.head? ≠ some (.punct .openParen))
    (hstarts : startsNone memberWords ks.head?) (hn : js.head? = some (.ident n b))
    (hbehind : ∀ type, good type → Reads version (behindType type) js follow result) :
    Reads version (memberKinds name) (ks ++ js) follow result := by
  obtain ⟨k, hk, hstart⟩ := h.head
  have hall : (ks ++ js).head? = some k := by simp [hk]
  rw [hk] at hstarts
  have hword : ∀ w ∈ memberWords, (k.keyword? == some w) = false := fun w hw =>
    beq_eq_false_iff_ne.2 (keyword?_ne_of_startsNone hstarts hw)
  -- The second token is no parenthesis behind a word, so this is no constructor.
  obtain ⟨k', hk', hcall⟩ : ∃ k', ((ks ++ js).drop 1).head? = some k' ∧
      (k.ident?.isSome = true → k' ≠ .punct .openParen) := by
    cases ks with
    | nil => cases hk
    | cons j ks =>
      cases hk
      cases ks with
      | nil => exact ⟨_, hn, fun _ => nofun⟩
      | cons i ks =>
        refine ⟨i, rfl, fun hident => ?_⟩
        rcases hstart with rfl | ⟨w, b, rfl⟩
        · cases hident
        · simpa using hcall w b (i :: ks) rfl
  unfold memberKinds
  refine .look (looks_seesKeyword hall (hword _ (by decide))) ?_
  refine .look (looks_seesKeyword hall (hword _ (by decide))) ?_
  refine .look (looks_seesKeyword hall (hword _ (by decide))) ?_
  refine .look (looks_accept hall (by rcases hstart with rfl | ⟨w, b, rfl⟩ <;> nofun)) ?_
  refine .look (looks_peek hall) ?_
  refine .look (looks_sees hk' rfl) ?_
  have hno : ((k.ident? == some name) && (some k' == some (.punct .openParen))) = false := by
    cases hident : k.ident? with
    | none => rfl
    | some w =>
      have := hcall (by simp [hident])
      simp [this]
  simp only [Option.bind_some]
  rw [if_neg (by rw [hno]; exact Bool.false_ne_true)]
  refine .look (looks_sees hall rfl) ?_
  refine .look (looks_seesIdent hall rfl) ?_
  rw [if_neg (by rcases hstart with rfl | ⟨w, b, rfl⟩ <;> simp [TokenKind.ident?])]
  exact h.reads.bind hn (by simp [endsType, isMark]) hbehind

/-- A member that starts with a type. -/
theorem reads_memberKinds
    {follow : Option TokenKind → Prop} {n : String} {b : Bool}
    (h : ReadsMemberType version ks) (hn : js.head? = some (.ident n b))
    (hbehind : ∀ type, Reads version (behindType type) js follow noConstructors) :
    Reads version (memberKinds name) (ks ++ js) follow noConstructors :=
  reads_memberKinds_type h.toReadsType h.no_call
    (fun w hw => h.starts w (by simp [leadingWords, hw])) hn fun type _ => hbehind type

/-- A property, a method or a constant stands behind its type. -/
theorem reads_behindType
    {follow : Option TokenKind → Prop} {n : String} {p : Punct} {tail : List TokenKind}
    (h : ∀ type, Reads version (namedMembers type) (.ident n false :: .punct p :: tail) follow
      noConstructors)
    (hn : n ≠ "operator") (hp : p ≠ .openBracket) (type : TypeName) :
    Reads version (behindType type) (.ident n false :: .punct p :: tail) follow
      noConstructors := by
  unfold behindType
  have hoperator : ((TokenKind.ident n false).keyword? == some "operator") = false := by
    simpa [TokenKind.keyword?] using hn
  refine .look (looks_seesKeyword rfl hoperator) ?_
  rw [if_neg Bool.false_ne_true]
  refine .look (looks_seesKeyword rfl rfl) ?_
  refine .look (@looks_sees version _ (.punct p) 1 _ .openBracket rfl rfl) ?_
  rw [if_neg (by simp [hp])]
  exact h type

/-! ## Operators -/

theorem dropUntil_cons
    {ctx : ParseContext} {mark : Punct} {t : Token}
    (h : t.kind ≠ .punct mark) (fault : Fault) (ts : List Token) :
    dropUntil [mark] fault ctx (t :: ts) = dropUntil [mark] fault ctx ts := by
  unfold dropUntil
  rw [List.dropWhile_cons]
  cases hk : t.kind with
  | punct p =>
    have hp : p ≠ mark := fun heq => h (by rw [hk, heq])
    simp [hp]
  | ident | str | character | number => rfl

/-- Tokens without a mark are passed over up to it. -/
theorem reads_dropUntil
    {mark : Punct} {fault : Fault}
    (h : .punct mark ∉ ks) :
    Reads version (dropUntil [mark] fault) ks (· = some (.punct mark)) anyResult := by
  intro endLine toks rest hk hrest
  obtain ⟨l, us, rfl⟩ := headKind_eq_some.1 hrest
  refine ⟨(), ?_, trivial⟩
  have hne : ∀ t ∈ toks, t.kind ≠ .punct mark := by
    rintro t ht heq
    exact h (hk ▸ heq ▸ List.mem_map_of_mem ht)
  clear hk hrest
  induction toks with
  | nil => simp [dropUntil]
  | cons t toks ih =>
    rw [List.cons_append, dropUntil_cons (hne t List.mem_cons_self)]
    exact ih fun t' ht' => hne t' (List.mem_cons_of_mem _ ht')

section Operators

variable {symbol ps body : List TokenKind} {k : TokenKind}

/-- An operator is passed over from its symbol on. -/
theorem reads_skipOperator
    (hsymbol : .punct .openParen ∉ symbol)
    (hps : Reads version parameters (.punct .openParen :: ps) anything anyResult)
    (hbody : Reads version (skipBody .expressionBodiedMethod) body anything anyResult)
    (hk : body.head? = some k) :
    Reads version skipOperator (symbol ++ ((.punct .openParen :: ps) ++ body)) anything
      anyResult := by
  unfold skipOperator
  refine (reads_dropUntil hsymbol).bind rfl rfl fun _ _ => ?_
  exact hps.bind hk trivial fun _ _ => hbody

theorem reads_behindType_operator
    (hsymbol : .punct .openParen ∉ symbol)
    (hps : Reads version parameters (.punct .openParen :: ps) anything anyResult)
    (hbody : Reads version (skipBody .expressionBodiedMethod) body anything anyResult)
    (hk : body.head? = some k) (type : TypeName) :
    Reads version (behindType type)
      ((.ident "operator" false :: symbol) ++ ((.punct .openParen :: ps) ++ body)) anything
      (· = [("operator", .operator)]) := by
  unfold behindType
  refine .look (looks_seesKeyword rfl rfl) ?_
  rw [if_pos (by rfl)]
  exact (reads_skipOperator (by simpa using hsymbol) hps hbody hk).bind_last fun _ _ => .pure rfl

end Operators

/-! ## Constructors -/

/-- The tokens of a call of the base constructor, and of an empty block. -/
def chainKinds (argument : String) : List TokenKind :=
  [.punct .colon, .ident "base" false] ++
    (.punct .openParen :: ([.ident argument false] ++ [.punct .closeParen]))

/-- A call of a constructor of the class or of its base is passed over. -/
theorem reads_skipConstructorChain
    {w : String} {arguments : List TokenKind} (hw : w = "base" ∨ w = "this")
    (h : Balanced arguments) :
    Reads version skipConstructorChain ([.punct .colon, .ident w false] ++
      (.punct .openParen :: (arguments ++ [.punct .closeParen]))) anything anyResult := by
  unfold skipConstructorChain
  refine (reads_accept .colon).bind rfl trivial fun _ hb => ?_
  rw [hb, if_pos rfl]
  refine .look (looks_seesKeyword rfl rfl) ?_
  refine .look (looks_seesKeyword rfl rfl) ?_
  rw [if_neg (by rcases hw with rfl | rfl <;> decide)]
  refine (reads_advance (.ident w false)).bind rfl trivial fun _ _ => ?_
  refine .look (looks_sees rfl rfl) ?_
  exact reads_skipGroup rfl h

/-- A constructor is read with its parameters, and the rest of it is passed over. -/
theorem reads_constructor
    {ps rest : List TokenKind} {good : List Parameter → Prop} {k : TokenKind}
    (hname : name ∉ memberWords)
    (hps : Reads version parameters (.punct .openParen :: ps) anything good)
    (hrest : Reads version (skipConstructorChain >>= fun _ => skipBody .expressionBodiedConstructor)
      rest anything anyResult)
    (hk : rest.head? = some k) :
    Reads version (memberKinds name)
      ([.ident name false] ++ ((.punct .openParen :: ps) ++ rest)) anything
      (fun r => ∃ parameters, good parameters ∧ r = [(name, .constructor parameters)]) := by
  have hword : ∀ w ∈ memberWords, ((TokenKind.ident name false).keyword? == some w) = false := by
    intro w hw
    have : name ≠ w := fun h => hname (h ▸ hw)
    simpa [TokenKind.keyword?] using this
  unfold memberKinds
  refine .look (looks_seesKeyword rfl (hword _ (by decide))) ?_
  refine .look (looks_seesKeyword rfl (hword _ (by decide))) ?_
  refine .look (looks_seesKeyword rfl (hword _ (by decide))) ?_
  refine .look (looks_accept rfl (by simp)) ?_
  refine .look (looks_peek rfl) ?_
  refine .look (@looks_sees version _ (.punct .openParen) 1 _ .openParen rfl rfl) ?_
  rw [if_pos (by simp [TokenKind.ident?])]
  refine (reads_advance _).bind rfl trivial fun _ _ => ?_
  refine hps.bind hk trivial fun parameters hgood => ?_
  rw [← bind_assoc]
  exact hrest.bind_last fun _ _ => .pure ⟨parameters, hgood, rfl⟩

/-! ## Bodies -/

/-- One step in reading the body of a type. -/
def bodyRound
    (depth : Nat) (name : String) (around : Surroundings)
    (s : List Member × List TypeDeclaration) :
    Parse (Round (List Member × List TypeDeclaration) (List Member × List TypeDeclaration)) := do
  if (← peek).isNone then fail (.expected .closeBrace)
  if ← accept .closeBrace then return .done (s.1, s.2)
  if ← accept .semicolon then return .again (s.1, s.2)
  let attributes ← attributeSections
  let words ← modifiers
  match ← seesType with
  | some kind =>
    let types ← typeDeclarationAt depth kind attributes words around
    return .again (s.1, s.2 ++ types)
  | none =>
    let more ← members name attributes words
    return .again (s.1 ++ more, s.2)

theorem typeBodyAt_succ
    (depth : Nat) (around : Surroundings) :
    typeBodyAt (depth + 1) name around =
      (expect .openBrace >>= fun _ => loop ([], []) (bodyRound depth name around)) := by
  rw [typeBodyAt]
  rfl

/-- The heads of members in generated code. -/
def startsMember : TokenKind → Prop
  | .ident w false => w ∉ typeWords
  | .ident _ true => True
  | .punct p => p = .openParen
  | _ => False

/-- What comes behind a member of generated code. -/
def notAssign (k : Option TokenKind) : Prop :=
  k ≠ some (.punct .assign)

/-- Tokens of a member without the attributes and modifiers in front of it. -/
structure ReadsMember
    (version : LanguageVersion) (name : String) (js : List TokenKind)
    (constructors : List (List TypeName)) : Prop where
  reads : Reads version (memberKinds name) js notAssign (constructorsIn · = constructors)
  stops : StopsModifiers js
  head : ∃ k, js.head? = some k ∧ startsMember k

/-- What starts with a type is a member if it is read as one. -/
theorem ReadsMemberType.readsMember
    (h : ReadsMemberType version ks)
    (hreads : Reads version (memberKinds name) (ks ++ js) notAssign noConstructors) :
    ReadsMember version name (ks ++ js) [] := by
  obtain ⟨k, hk, hstart⟩ := h.head
  have hall : (ks ++ js).head? = some k := by simp [hk]
  have hstarts : ∀ w ∈ leadingWords, k ≠ .ident w false := fun w hw heq =>
    h.starts w hw (by rw [hk, heq])
  refine ⟨hreads, stopsModifiers_of_head hall ?_, k, hall, ?_⟩
  · rintro w rfl hw
    exact hstarts w (by simp [leadingWords, hw]) rfl
  · rcases hstart with rfl | ⟨w, b, rfl⟩
    · rfl
    · cases b with
      | false => exact fun hw => hstarts w (by simp [leadingWords, hw]) rfl
      | true => trivial

/-- A word is the type of a member if no declaration starts with it. -/
theorem readsMemberType_word
    {w : String}
    (h : w ∉ leadingWords) :
    ReadsMemberType version [.ident w false] := by
  refine ⟨(readsType_of_spellsType (spellsType_word w)).any, ?_, ?_⟩
  · rintro _ _ _ heq
    cases heq
    nofun
  · rintro v hv heq
    cases heq
    exact h hv

section Forms

variable {ps body : List TokenKind} {p : Punct}

theorem readsMember_method
    (h : ReadsMemberType version ks)
    (hps : Reads version parameters (.punct .openParen :: ps) anything anyResult)
    (hbody : Reads version (skipBody .expressionBodiedMethod) body anything anyResult)
    (hp : body.head? = some (.punct p)) (n : String) :
    ReadsMember version name
      (ks ++ ([.ident n false] ++ ((.punct .openParen :: ps) ++ body))) [] := by
  refine h.readsMember (reads_memberKinds h rfl fun type => ?_)
  refine Reads.follow_mono (?_ : Reads _ _ _ anything _) fun _ _ => trivial
  by_cases hn : n = "operator"
  · subst hn
    refine (reads_behindType_operator (by simp) hps hbody hp type).mono ?_
    rintro _ rfl
    exact noConstructors_single rfl
  · exact reads_behindType (fun type => reads_method hps rfl hbody hp type n false) hn nofun type

theorem readsMember_property
    (h : ReadsMemberType version ks)
    (hbody : Reads version skipPropertyBody (.punct p :: body) notAssign anyResult)
    (hp : p = .openBrace ∨ p = .arrow) {n : String} (hn : n ≠ "operator") :
    ReadsMember version name (ks ++ ([.ident n false] ++ (.punct p :: body))) [] := by
  refine h.readsMember (reads_memberKinds h rfl fun type => ?_)
  have hproperty : ∀ type, Reads version (namedMembers type) (.ident n false :: .punct p :: body)
      notAssign noConstructors := by
    intro type
    refine (reads_property hbody rfl hp type n false).mono ?_
    rintro _ rfl
    exact noConstructors_single rfl
  refine reads_behindType hproperty hn ?_ type
  rcases hp with rfl | rfl <;> nofun

theorem readsMember_constant
    {value : List TokenKind} (h : ReadsMemberType version ks) (hne : value ≠ [])
    (hflat : ∀ k ∈ value, isFlat k = true) {n : String} (hn : n ≠ "operator") :
    ReadsMember version name
      (ks ++ ([.ident n false] ++ (([.punct .assign] ++ value) ++ [.punct .semicolon]))) [] := by
  obtain ⟨k, hk⟩ : ∃ k, value.head? = some k := by
    cases value with
    | nil => exact absurd rfl hne
    | cons k value => exact ⟨k, rfl⟩
  refine h.readsMember (reads_memberKinds h rfl fun type => ?_)
  refine Reads.follow_mono (?_ : Reads _ _ _ anything _) fun _ _ => trivial
  exact reads_behindType
    (fun type => reads_constant (reads_skipExpression_flat hne hflat) hk type n false) hn nofun type

theorem readsMember_genericMethod
    {v : String} (h : ReadsMemberType version ks) (hv : v ≠ "in" ∧ v ≠ "out")
    (hps : Reads version parameters (.punct .openParen :: ps) anything anyResult)
    (hbody : Reads version (skipBody .expressionBodiedMethod) body anything anyResult)
    (hp : body.head? = some (.punct p)) {n : String} (hn : n ≠ "operator") :
    ReadsMember version name
      (ks ++ ([.ident n false] ++ ([.punct .less, .ident v false, .punct .greater] ++
        ((.punct .openParen :: ps) ++ body)))) [] := by
  refine h.readsMember (reads_memberKinds h rfl fun type => ?_)
  refine Reads.follow_mono (?_ : Reads _ _ _ anything _) fun _ _ => trivial
  exact reads_behindType
    (fun type => reads_genericMethod hv hps hbody hp type n false) hn nofun type

theorem readsMember_constructor
    {types : List TypeName}
    (hname : name ∉ memberWords) (htype : name ∉ typeWords)
    (hmodifier : name ∈ modifierWords → name ∈ contextualModifiers)
    (hps : Reads version parameters (.punct .openParen :: ps) anything (·.map (·.type) = types))
    (argument : String) :
    ReadsMember version name
      ([.ident name false] ++ ((.punct .openParen :: ps) ++
        (chainKinds argument ++ [.punct .openBrace, .punct .closeBrace]))) [types] := by
  refine ⟨?_, stopsModifiers_call hmodifier, _, rfl, htype⟩
  have hchain := @reads_skipConstructorChain version "base" [.ident argument false] (.inl rfl)
    (.of_inert (by simp [isInert]))
  have hreads := reads_constructor hname hps
    (hchain.bind rfl trivial fun _ _ => reads_skipBody_block _) rfl
  refine (hreads.follow_mono fun _ _ => trivial).mono ?_
  rintro _ ⟨parameters, rfl, rfl⟩
  simp [constructorsIn, constructorTypes?]

end Forms

/-- The modifiers of a constructor, and the types of its parameters. -/
structure ConstructorHead where
  modifiers : List String
  types : List TypeName
deriving DecidableEq

/-- The constructors among the members of a type. -/
def constructorHeads (ms : List Member) : List ConstructorHead :=
  ms.filterMap fun m => (constructorTypes? m.kind).map (⟨m.modifiers, ·⟩)

theorem constructorHeads_append
    (ms more : List Member) :
    constructorHeads (ms ++ more) = constructorHeads ms ++ constructorHeads more :=
  List.filterMap_append

/-- The members that one declaration declares share its modifiers. -/
theorem constructorHeads_map
    (kinds : List (String × MemberKind)) (attributes : List AttributeUse) (words : List String)
    (line : Nat) :
    constructorHeads (kinds.map fun (n, kind) => ⟨n, kind, attributes, words, line⟩) =
      (constructorsIn kinds).map (⟨words, ·⟩) := by
  unfold constructorHeads constructorsIn
  rw [List.filterMap_map, List.map_filterMap]
  rfl

/-- A piece of a body, with the constructors in it. -/
structure BodyPart where
  kinds : List TokenKind
  constructors : List ConstructorHead

/-- Tokens of members in the body of a type with a name. -/
structure ReadsMembers (version : LanguageVersion) (name : String) (part : BodyPart) : Prop where
  round : ∀ depth around s,
    Reads version (bodyRound depth name around s) part.kinds notAssign
      (isAgain fun s' =>
        constructorHeads s'.1 = constructorHeads s.1 ++ part.constructors ∧ s'.2 = s.2)
  head : ∃ k, part.kinds.head? = some k ∧ k ≠ .punct .assign

/-- Modifiers are read up to a declaration that starts with none. -/
theorem reads_modifiers
    {β : Type} {q : List String → Parse β} {ws : List String}
    {follow : Option TokenKind → Prop} {result : β → Prop}
    (hws : ∀ w ∈ ws, w ∈ modifierWords)
    (hnames : (∀ w ∈ ws, w ∉ contextualModifiers) ∨ ¬ isMark nameMarks js.head?)
    (hne : js ≠ []) (hstops : StopsModifiers js) (h : Reads version (q ws) js follow result) :
    Reads version (modifiers >>= q) (wordKinds ws ++ js) follow result := by
  intro endLine toks rest hk hrest
  obtain ⟨us, vs, rfl, hus, hvs⟩ := kindsOf_eq_append.1 hk
  have hhead : headKind (vs ++ rest) = js.head? := by
    cases js with
    | nil => exact absurd rfl hne
    | cons j js => exact headKind_of_kindsOf hvs rfl
  have hlast : isMark nameMarks (headKind (vs ++ rest)) →
      ∀ w ∈ ws.getLast?, w ∉ contextualModifiers := by
    intro hmark w hw
    rcases hnames with hnames | hnames
    · exact hnames w (List.mem_of_getLast? hw)
    · exact absurd (hhead ▸ hmark) hnames
  have hsplit := splitModifiers_words hus hws hlast (hstops vs rest hvs)
  rw [List.append_assoc, bind_apply, modifiers, hsplit]
  exact h endLine vs rest hvs hrest

theorem looks_seesType
    {k : TokenKind}
    (hk : js.head? = some k) :
    Looks version seesType (k.keyword?.bind typeKeyword?) js := by
  intro endLine toks rest h
  unfold seesType
  rw [bind_of_ok (@looks_peek version js k 0 hk endLine toks rest h)]
  rfl

theorem typeKeyword?_eq_none
    {w : String}
    (h : w ∉ typeWords) :
    typeKeyword? w = none := by
  unfold typeKeyword?
  split <;> simp [typeWords] at h ⊢

/-- No type declaration starts at a member. -/
theorem typeKeyword?_of_startsMember
    {k : TokenKind}
    (h : startsMember k) :
    k.keyword?.bind typeKeyword? = none := by
  cases k with
  | ident w b =>
    cases b with
    | false => exact typeKeyword?_eq_none h
    | true => rfl
  | str | character | number | punct => rfl

/-- A member with the attributes and modifiers in front of it. -/
theorem ReadsMember.members
    {attributes : List TokenKind} {ws : List String} {constructors : List (List TypeName)}
    (h : ReadsMember version name js constructors)
    (hattributes :
      Reads version attributeSections attributes (· ≠ some (.punct .openBracket)) anyResult)
    (hstart : attributes = [] ∨ attributes.head? = some (.punct .openBracket))
    (hws : ∀ w ∈ ws, w ∈ modifierWords) (hnames : ∀ w ∈ ws, w ∉ contextualModifiers) :
    ReadsMembers version name
      ⟨attributes ++ (wordKinds ws ++ js), constructors.map (⟨ws, ·⟩)⟩ := by
  obtain ⟨k, hk, hstarts⟩ := h.head
  have hpunct : ∀ p, k = .punct p → p = .openParen := by
    rintro p rfl
    exact hstarts
  obtain ⟨j, hj, hjpunct⟩ : ∃ j, (wordKinds ws ++ js).head? = some j ∧
      ∀ p, j = .punct p → p = .openParen := by
    cases ws with
    | nil => exact ⟨k, hk, hpunct⟩
    | cons w ws => exact ⟨_, rfl, nofun⟩
  obtain ⟨i, hi, hipunct⟩ : ∃ i, (attributes ++ (wordKinds ws ++ js)).head? = some i ∧
      ∀ p, i = .punct p → p = .openParen ∨ p = .openBracket := by
    rcases hstart with rfl | hbracket
    · exact ⟨j, hj, fun p hp => .inl (hjpunct p hp)⟩
    · refine ⟨.punct .openBracket, by simp [hbracket], fun p hp => ?_⟩
      cases hp
      exact .inr rfl
  have hne : ∀ p, p ≠ .openParen → p ≠ .openBracket → i ≠ .punct p := by
    rintro p h₁ h₂ hp
    exact (hipunct p hp).elim h₁ h₂
  refine ⟨fun depth around s => ?_, i, hi, hne _ nofun nofun⟩
  unfold bodyRound
  refine .look (looks_peek hi) ?_
  refine .look (looks_accept hi (hne _ nofun nofun)) ?_
  refine .look (looks_accept hi (hne _ nofun nofun)) ?_
  refine hattributes.bind hj (by rintro heq; cases heq; cases hjpunct _ rfl) fun _ _ => ?_
  refine reads_modifiers hws (.inl hnames) (by rintro rfl; cases hk) h.stops ?_
  refine .look (looks_seesType hk) ?_
  rw [typeKeyword?_of_startsMember hstarts]
  refine Reads.bind_last
    (?_ : Reads _ _ _ _ (constructorHeads · = constructors.map (⟨ws, ·⟩))) fun more hmore =>
      .pure ⟨_, rfl, ?_, rfl⟩
  · unfold Parse.members
    refine .line fun line => h.reads.bind_last fun kinds hkinds => .pure ?_
    exact (constructorHeads_map kinds _ ws line).trans (congrArg _ hkinds)
  · rw [constructorHeads_append, hmore]

/-- What stands in a body starts with no assignment. -/
theorem exists_head_body
    {parts : List BodyPart}
    (h : ∀ part ∈ parts, ReadsMembers version name part) :
    ∃ k, (parts.flatMap (·.kinds) ++ [TokenKind.punct .closeBrace]).head? = some k ∧
      notAssign (some k) := by
  cases parts with
  | nil => exact ⟨_, rfl, by simp [notAssign]⟩
  | cons part parts =>
    obtain ⟨k, hk, hne⟩ := (h part List.mem_cons_self).head
    exact ⟨k, by simp [hk], by simpa [notAssign] using hne⟩

/-- A body of members is read to its end, and its constructors are those of its pieces. -/
theorem reads_body
    {parts : List BodyPart}
    (h : ∀ part ∈ parts, ReadsMembers version name part) (depth : Nat) (around : Surroundings) :
    Reads version (typeBodyAt (depth + 1) name around)
      ([.punct .openBrace] ++ (parts.flatMap (·.kinds) ++ [.punct .closeBrace])) anything
      (fun r => constructorHeads r.1 = parts.flatMap (·.constructors) ∧ r.2 = []) := by
  have hloop : ∀ s, Reads version (loop s (bodyRound depth name around))
      (parts.flatMap (·.kinds) ++ [.punct .closeBrace]) anything
      (fun r => constructorHeads r.1 = constructorHeads s.1 ++ parts.flatMap (·.constructors) ∧
        r.2 = s.2) := by
    induction parts with
    | nil =>
      intro s
      refine .loop_done ?_
      unfold bodyRound
      refine .look (looks_peek rfl) ?_
      refine (reads_accept .closeBrace).bind_last fun _ hb => ?_
      rw [hb]
      exact .pure ⟨_, rfl, (List.append_nil _).symm, rfl⟩
    | cons part parts ih =>
      intro s
      have hpart := h part List.mem_cons_self
      have hparts := fun x hx => h x (List.mem_cons_of_mem _ hx)
      have hne : part.kinds ≠ [] := by
        intro hnil
        obtain ⟨k, hk, -⟩ := hpart.head
        rw [hnil] at hk
        cases hk
      obtain ⟨k, hk, hfollow⟩ := exists_head_body hparts
      rw [List.flatMap_cons, List.append_assoc]
      refine (hpart.round depth around s).loop_again hne hk hfollow fun s' hs' =>
        (ih hparts s').mono fun r hr => ⟨?_, hr.2.trans hs'.2⟩
      rw [hr.1, hs'.1, List.flatMap_cons, List.append_assoc]
  rw [typeBodyAt_succ]
  obtain ⟨k, hk, -⟩ := exists_head_body h
  exact (reads_expect .openBrace).bind hk trivial fun _ _ => hloop ([], [])

/-! ## Types -/

/-- The tokens of types with commas between them. -/
def listedKinds : List (List TokenKind) → List TokenKind
  | [] => []
  | [ks] => ks
  | ks :: more => ks ++ ([.punct .comma] ++ listedKinds more)

/-- The tokens of a base list, which has a colon in front if there is one. -/
def baseKinds (kss : List (List TokenKind)) : List TokenKind :=
  if kss.isEmpty then [] else [.punct .colon] ++ listedKinds kss

/-- One step in reading a base list. -/
def baseRound (kind : DeclarationKind) (bases : List TypeName) :
    Parse (Round (List TypeName) (List TypeName)) := do
  let bases := bases ++ [← typeName]
  if kind = .recordType then
    if ← sees .openParen then skipGroup
  if ← accept .comma then return .again bases
  return .done bases

variable {kind : DeclarationKind} {type : TypeName}

theorem reads_baseRound_again
    (h : SpellsType ks type) (bases : List TypeName) :
    Reads version (baseRound kind bases) (ks ++ [.punct .comma]) anything
      (isAgain (· = bases ++ [type])) := by
  have hcomma : Reads version (do
      if ← accept .comma then return .again (bases ++ [type])
      return .done (bases ++ [type])) [.punct .comma] anything
      (isAgain (· = bases ++ [type]) : Round _ (List TypeName) → Prop) := by
    refine (reads_accept .comma).bind_last fun _ hb => ?_
    rw [hb]
    exact .pure ⟨_, rfl, rfl⟩
  unfold baseRound
  refine (h.reads version).bind rfl (by simp [endsType, isMark]) fun _ htype => ?_
  subst htype
  split
  · exact .look (looks_sees rfl rfl) hcomma
  · exact hcomma

theorem reads_baseRound_done
    (h : SpellsType ks type) (bases : List TypeName) :
    Reads version (baseRound kind bases) ks (· = some (.punct .openBrace))
      (isDone (· = bases ++ [type])) := by
  unfold baseRound
  refine ((h.reads version).follow_mono ?_).bind_last fun _ htype => ?_
  · rintro _ rfl
    simp [endsType, isMark]
  subst htype
  intro endLine toks rest hk hrest
  obtain rfl := kindsOf_eq_nil.1 hk
  exact ⟨.done (bases ++ [_]), by split <;> simp [hrest, pure_apply], _, rfl, rfl⟩

/-- Tokens with the types that they spell. -/
abbrev SpelledTypes := List (List TokenKind × TypeName)

/-- The tokens of a list spell their types. -/
def AllSpell (types : SpelledTypes) : Prop :=
  ∀ x ∈ types, SpellsType x.1 x.2

theorem exists_head_listed
    {x : List TokenKind × TypeName} {types : SpelledTypes}
    (h : AllSpell (x :: types)) :
    ∃ k, (listedKinds ((x :: types).map (·.1))).head? = some k := by
  obtain ⟨k, hk, -⟩ := (readsType_of_spellsType (h x List.mem_cons_self) :
    ReadsType .standard x.1 (· = x.2)).head
  cases types with
  | nil => exact ⟨k, hk⟩
  | cons y types => exact ⟨k, by simp [listedKinds, hk]⟩

theorem reads_bases
    {x : List TokenKind × TypeName} {types : SpelledTypes}
    (h : AllSpell (x :: types)) (bases : List TypeName) :
    Reads version (loop bases (baseRound kind)) (listedKinds ((x :: types).map (·.1)))
      (· = some (.punct .openBrace)) (· = bases ++ (x :: types).map (·.2)) := by
  induction types generalizing x bases with
  | nil => exact .loop_done (reads_baseRound_done (h x List.mem_cons_self) bases)
  | cons y types ih =>
    have hrest : AllSpell (y :: types) := fun z hz => h z (List.mem_cons_of_mem _ hz)
    obtain ⟨k, hk⟩ := exists_head_listed hrest
    change Reads _ _ (x.1 ++ ([.punct .comma] ++ listedKinds ((y :: types).map (·.1)))) _ _
    rw [← List.append_assoc]
    refine (reads_baseRound_again (h x List.mem_cons_self) bases).loop_again (by simp) hk trivial
      fun bases' hbases' => (ih hrest bases').mono fun r hr => ?_
    rw [hr, hbases']
    simp

/-- The base list of a type, read up to its body. -/
theorem reads_baseList
    {types : SpelledTypes} (h : AllSpell types) :
    Reads version (baseList kind) (baseKinds (types.map (·.1))) (· = some (.punct .openBrace))
      (· = types.map (·.2)) := by
  unfold baseList
  cases types with
  | nil =>
    intro endLine toks rest hk hrest
    obtain rfl := kindsOf_eq_nil.1 hk
    exact ⟨[], by simp [hrest, pure_apply], rfl⟩
  | cons x types =>
    obtain ⟨k, hk⟩ := exists_head_listed h
    have hbases := @reads_bases version kind x types h []
    refine (reads_accept .colon).bind hk trivial fun _ hb => ?_
    rw [hb]
    exact hbases

/-- What the head of a type declaration in generated code is read as. -/
structure DeclaresType
    (kind : DeclarationKind) (name : String) (bases : List TypeName) (words : List String)
    (around : Surroundings) (t : TypeDeclaration) : Prop where
  kind : t.kind = kind
  name : t.name = name
  arity : t.arity = 0
  enclosing : t.enclosing = around.enclosing
  containing : t.containing = around.containing
  usings : t.usings = around.usings
  modifiers : t.modifiers = words
  bases : t.baseList = bases

/-- The tokens of a type declaration behind its modifiers. -/
def typeKinds (keyword name : String) (types : SpelledTypes) (parts : List BodyPart) :
    List TokenKind :=
  [.ident keyword false] ++ (([.ident name false] ++ baseKinds (types.map (·.1))) ++
    ([.punct .openBrace] ++ (parts.flatMap (·.kinds) ++ [.punct .closeBrace])))

theorem reads_typeHead
    {types : SpelledTypes}
    (hrecord : kind ≠ .recordType) (h : AllSpell types)
    (attributes : List AttributeUse) (words : List String) (around : Surroundings) :
    Reads version (typeHead kind attributes words around)
      ([.ident name false] ++ baseKinds (types.map (·.1))) (· = some (.punct .openBrace))
      (DeclaresType kind name (types.map (·.2)) words around) := by
  unfold typeHead
  refine .line fun l => ?_
  intro endLine toks rest hk hrest
  obtain ⟨l', us, rfl, hus⟩ := kindsOf_eq_cons.1 hk
  obtain ⟨bases, hbases, htypes⟩ := @reads_baseList version kind types h endLine us rest hus hrest
  have hless : headKind (us ++ rest) ≠ some (.punct .less) := by
    cases types with
    | nil =>
      obtain rfl := kindsOf_eq_nil.1 hus
      simp [hrest]
    | cons x types =>
      rw [@headKind_of_kindsOf _ us rest (.punct .colon) hus rfl]
      nofun
  refine ⟨⟨kind, name, 0, around.enclosing, around.containing, words, attributes, bases, [],
    around.usings, l⟩, ?_, ⟨rfl, rfl, rfl, rfl, rfl, rfl, rfl, htypes⟩⟩
  rw [List.cons_append, ident_bind]
  simp only [headKind_cons, Option.bind_some, TokenKind.ident?, List.drop_succ_cons, List.drop_zero]
  have hnone : typeParameters ⟨version, endLine⟩ (us ++ rest) = .ok (0, us ++ rest) := by
    simp [typeParameters, hless, pure_apply]
  have hconstraints : skipConstraints [.openBrace, .semicolon] (.expected .openBrace)
      ⟨version, endLine⟩ rest = .ok ((), rest) := by
    simp [skipConstraints, hrest, TokenKind.keyword?, pure_apply]
  rw [bind_of_ok hnone, if_neg hrecord, bind_of_ok hbases, bind_of_ok hconstraints]
  rfl

/-- A class or an interface with members of which each is read. -/
theorem reads_typeDeclarationAt
    {types : SpelledTypes} {parts : List BodyPart} {keyword : String}
    (hkind : kind = .classType ∨ kind = .interfaceType) (h : AllSpell types)
    (hparts : ∀ part ∈ parts, ReadsMembers version name part)
    (depth : Nat) (attributes : List AttributeUse) (words : List String) (around : Surroundings) :
    Reads version (typeDeclarationAt (depth + 2) kind attributes words around)
      (typeKinds keyword name types parts) (· ≠ some (.punct .semicolon))
      (fun ts => ∃ t, ts = [t] ∧ DeclaresType kind name (types.map (·.2)) words around t ∧
        constructorHeads t.members = parts.flatMap (·.constructors)) := by
  have hrecord : kind ≠ .recordType := by rcases hkind with rfl | rfl <;> nofun
  have hdelegate : kind ≠ .delegateType := by rcases hkind with rfl | rfl <;> nofun
  have henum : kind ≠ .enumType := by rcases hkind with rfl | rfl <;> nofun
  rw [typeDeclarationAt]
  unfold typeKinds
  refine Reads.bind (?_ : Reads _ _ _ anything anyResult) rfl trivial fun _ _ => ?_
  · unfold declarationKeyword
    refine .line fun _ => ?_
    refine (reads_advance _).bind_last fun _ _ => ?_
    rw [if_neg hrecord]
    exact .pure trivial
  rw [if_neg hdelegate]
  refine (reads_typeHead hrecord h attributes words around).bind rfl rfl fun head hhead => ?_
  simp only [henum, hrecord, if_false]
  refine Reads.bind_last (?_ : Reads _ _ _ (· ≠ some (.punct .semicolon)) fun r =>
    constructorHeads r.1 = parts.flatMap (·.constructors) ∧ r.2 = []) fun body hbody => ?_
  · rw [hhead.name]
    exact (reads_body hparts depth _).follow_mono fun _ _ => trivial
  · intro endLine toks rest hk hrest
    obtain rfl := kindsOf_eq_nil.1 hk
    refine ⟨[{ head with members := body.1 }], ?_, _, rfl, ?_, hbody.1⟩
    · simp [hrest, pure_apply, hbody.2]
    · exact ⟨hhead.kind, hhead.name, hhead.arity, hhead.enclosing, hhead.containing, hhead.usings,
        hhead.modifiers, hhead.bases⟩

end Parse
end CSharp
end ContentModels

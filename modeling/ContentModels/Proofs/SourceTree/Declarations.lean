import ContentModels.Proofs.SourceTree.Members

/-!
# Reading the types of a tree with what is in them

A type is read as what it flattens to (`TypeDefinition.reads_typeDeclarationAt`): the type
itself with its members, and behind it the types in its body.  The two readers, of types and
of their bodies, call each other up to a bound on the nesting; a bound that is at least the
number of tokens is enough, since every type is longer than its body by more than the bound
goes down.
-/

namespace ContentModels
namespace CSharp
namespace SourceTree

open Parse

variable {α β : Type} {version : LanguageVersion} {next : Option TokenKind → Prop}
variable {ks js : List TokenKind} {k : Option TokenKind} {depth : Nat}

/-! ## What stands in front of a declaration -/

/-- Attributes and modifiers are read up to what is neither. -/
theorem Head.reads_front
    {q : List AttributeUse → List String → Parse β} {result : β → Prop} {j : TokenKind}
    (h : Head) (hj : js.head? = some j) (hbracket : j ≠ .punct .openBracket)
    (hfollow : followsModifiers (words h.modifiers) (some j))
    (hq : ∀ attributes, AreUses (sectionUses h.attributes) attributes →
      Reads version (q attributes (words h.modifiers)) js next result) :
    Reads version (attributeSections >>= fun attributes => Parse.modifiers >>= q attributes)
      (h.kinds ++ js) next result := by
  unfold Head.kinds
  rw [List.append_assoc]
  refine (reads_sections h.attributes).step (fun k hk => ?_) fun attributes huses => ?_
  · rcases shows_words hk with ⟨w, -, rfl⟩ | ⟨-, hk⟩
    · nofun
    · rw [shows_of_head? hj hk]
      simpa using hbracket
  refine (SourceTree.reads_modifiers h.modifiers).step (fun k hk => ?_) ?_
  · rw [shows_of_head? hj hk]
    exact hfollow
  rintro _ rfl
  exact hq attributes huses

/-- What a declaration starts with, given what stands behind its attributes and modifiers. -/
def Fronts (i j : TokenKind) : Prop :=
  i = .punct .openBracket ∨ (∃ w ∈ modifierWords, i = .ident w false) ∨ i = j

theorem Head.exists_head
    {j : TokenKind} (h : Head) (hj : js.head? = some j) :
    ∃ i, (h.kinds ++ js).head? = some i ∧ Fronts i j := by
  unfold Head.kinds
  cases h.attributes with
  | cons s sections => exact ⟨_, rfl, .inl rfl⟩
  | nil =>
    cases hwords : words h.modifiers with
    | cons w ws => exact ⟨_, rfl, .inr (.inl ⟨w, mem_words (hwords ▸ List.mem_cons_self), rfl⟩)⟩
    | nil => exact ⟨j, hj, .inr (.inr rfl)⟩

/-- A mark other than the bracket of attributes is not in front of a declaration. -/
theorem Fronts.ne_punct
    {i j : TokenKind} (h : Fronts i j) {p : Punct} (hp : p ≠ .openBracket) (hj : j ≠ .punct p) :
    i ≠ .punct p := by
  rintro rfl
  rcases h with heq | ⟨w, -, heq⟩ | heq
  · cases heq
    exact hp rfl
  · cases heq
  · exact hj heq.symm

/-! ## Members -/

/-- The tokens that a member starts with behind its modifiers. -/
def StartsMember (j : TokenKind) : Prop :=
  StartsType j ∨ j = .punct .tilde ∨ ∃ w ∈ memberWords, j = .ident w false

theorem StartsMember.startsNone
    {j : TokenKind} (h : StartsMember j) {ws : List String} (hws : ∀ w ∈ ws, IsOtherKeyword w)
    (hmember : ∀ w ∈ ws, w ∉ memberWords) :
    startsNone ws (some j) := by
  rcases h with h | rfl | ⟨v, hv, rfl⟩
  · exact h.startsNone hws
  · nofun
  · rintro w hw heq
    cases heq
    exact hmember _ hw hv

theorem StartsMember.ne_punct
    {j : TokenKind} (h : StartsMember j) {p : Punct} (hp : p ≠ .openParen) (htilde : p ≠ .tilde) :
    j ≠ .punct p := by
  rcases h with h | rfl | ⟨w, -, rfl⟩
  · exact h.ne_punct hp
  · rintro heq
    cases heq
    exact htilde rfl
  · nofun

/-- No type is declared where a member starts. -/
theorem StartsMember.typeKeyword?_eq_none
    {j : TokenKind} (h : StartsMember j) :
    j.keyword?.bind typeKeyword? = none := by
  have hnone : Parse.startsNone typeWords (some j) := h.startsNone (by decide) (by decide)
  cases hw : j.keyword? with
  | none => rfl
  | some w =>
    refine Parse.typeKeyword?_eq_none fun hmem => ?_
    exact keyword?_ne_of_startsNone hnone hmem hw

/-- A parenthesis is the start of a tuple. -/
theorem TypeTree.isTuple_of_head
    {t : TypeTree} (h : t.kinds.head? = some (.punct .openParen)) :
    t.IsTuple := by
  cases t with
  | tuple elements suffixes => trivial
  | named fromGlobal path suffixes =>
    obtain ⟨w, ws, hw⟩ := path.exists_word
    rw [TypeTree.kinds, hw] at h
    cases fromGlobal <;> cases h

/-- A member that is read as what it is starts with a parenthesis behind plain modifiers only. -/
theorem MemberTree.exists_head
    (m : MemberTree) (owner : Identifier) {ws : List String} (hplain : m.IsPlain ws) :
    ∃ j, (m.kinds owner).head? = some j ∧ StartsMember j ∧
      (j = .punct .openParen → ∀ w ∈ ws.getLast?, w ∉ contextualModifiers) := by
  have htype : ∀ (t : TypeTree) (js : List TokenKind), t.Follows ws →
      ∃ j, (t.kinds ++ js).head? = some j ∧ StartsMember j ∧
        (j = .punct .openParen → ∀ w ∈ ws.getLast?, w ∉ contextualModifiers) := by
    intro t js hfollows
    obtain ⟨j, hj, hstarts⟩ := t.exists_head
    refine ⟨j, by simp [hj], .inl hstarts, ?_⟩
    rintro rfl
    exact hfollows (t.isTuple_of_head hj)
  cases m with
  | field type _ _ | property type _ _ | method type _ _ _ _ | indexer type _ _
  | operator type _ _ _ => exact htype type _ hplain
  | constructor _ _ _ => exact ⟨_, rfl, .inl owner.not_isOtherKeyword, nofun⟩
  | destructor _ => exact ⟨_, rfl, .inr (.inl rfl), nofun⟩
  | event _ _ _ | customEvent _ _ _ =>
    exact ⟨_, rfl, .inr (.inr ⟨"event", by decide, rfl⟩), nofun⟩
  | conversion implicit _ _ _ =>
    cases implicit with
    | true => exact ⟨_, rfl, .inr (.inr ⟨"implicit", by decide, rfl⟩), nofun⟩
    | false => exact ⟨_, rfl, .inr (.inr ⟨"explicit", by decide, rfl⟩), nofun⟩

/-- A member follows its modifiers. -/
theorem StartsMember.followsModifiers
    {j : TokenKind} (h : StartsMember j) {ws : List String}
    (hparen : j = .punct .openParen → ∀ w ∈ ws.getLast?, w ∉ contextualModifiers) :
    followsModifiers ws (some j) := by
  refine ⟨h.startsNone (by decide) (by decide), fun hmark => hparen ?_⟩
  rcases h with h | rfl | ⟨w, -, rfl⟩
  · cases j with
    | punct p => exact congrArg _ h
    | ident | str | character | number => exact hmark.elim
  · simp [isMark, nameMarks] at hmark
  · exact hmark.elim

/-! ## Heads of types -/

/-- The keyword of a type comes first. -/
theorem TypeDefinition.exists_head
    (d : TypeDefinition) :
    ∃ w, d.kinds.head? = some (.ident w false) ∧ typeKeyword? w = some d.declares := by
  cases d with
  | composite keyword name typeParameters bases body =>
    rw [TypeDefinition.kinds]
    cases keyword <;> exact ⟨_, rfl, rfl⟩
  | enumeration name bases constants =>
    rw [TypeDefinition.kinds]
    exact ⟨_, rfl, rfl⟩
  | delegate type name typeParameters parameters =>
    rw [TypeDefinition.kinds]
    exact ⟨_, rfl, rfl⟩

/-- Where no parenthesis opens, a record has no parameters. -/
theorem reads_noGroup
    {kind : DeclarationKind} {q : Parse β} {result : β → Prop}
    (hne : ∀ k, Shows next ks 0 k → k ≠ some (.punct .openParen))
    (h : Reads version q ks next result) :
    Reads version (if kind = .recordType then
        sees .openParen >>= fun b => if b = true then skipGroup >>= fun _ => q else q
      else q) ks next result := by
  split
  · exact .misses hne h
  · exact h

/-- The bases of a type are read as their names. -/
theorem reads_baseTypes
    (kind : DeclarationKind) (bases : List TypeTree) :
    Reads version (baseList kind) (baseKinds (bases.map TypeTree.kinds))
      (· = some (.punct .openBrace)) (· = bases.map TypeTree.name) := by
  have hspell : AllSpell (bases.map fun t => (t.kinds, t.name)) := by
    intro x hx
    obtain ⟨t, -, rfl⟩ := List.mem_map.1 hx
    exact t.spellsType
  have hreads := @reads_baseList version kind _ hspell
  rwa [List.map_map, List.map_map] at hreads

theorem shows_baseTypes
    {bases : List TypeTree} (h : Shows next (baseKinds (bases.map TypeTree.kinds)) 0 k) :
    k = some (.punct .colon) ∨ next k := by
  cases bases with
  | nil => exact .inr h
  | cons t bases => exact .inl h

/-- The head of a type is read up to its body. -/
theorem reads_typeHead
    (kind : DeclarationKind) (name : Identifier) (ps : List TypeParameter)
    (bases : List TypeTree) (head : Head) (around : Surroundings)
    {attributes : List AttributeUse} (h : AreUses (sectionUses head.attributes) attributes) :
    Reads version (typeHead kind attributes (words head.modifiers) around)
      (name.kind :: (angled (ps.map TypeParameter.kinds) ++ baseKinds (bases.map TypeTree.kinds)))
      (· = some (.punct .openBrace))
      (·.withoutLines = head.declared around kind name ps.length bases []) := by
  have hstart : ∀ k,
      Shows (· = some (.punct .openBrace)) (baseKinds (bases.map TypeTree.kinds)) 0 k →
      k = some (.punct .colon) ∨ k = some (.punct .openBrace) := fun k hk => shows_baseTypes hk
  unfold typeHead
  refine .line fun line => .ident ?_
  refine (reads_typeParameters ps).step (fun k hk => ?_) ?_
  · rcases hstart k hk with rfl | rfl <;> nofun
  rintro _ rfl
  refine reads_noGroup (fun k hk => ?_) ?_
  · rcases hstart k hk with rfl | rfl <;> nofun
  rw [← List.append_nil (baseKinds _)]
  refine (reads_baseTypes kind bases).step (fun k hk => hk) ?_
  rintro _ rfl
  refine reads_noConstraints (by rintro k rfl; nofun) (.pure ?_)
  exact congrArg (fun uses => ({ head.declared around kind name ps.length bases [] with
    attributes := uses } : TypeDeclaration)) h

/-- The keyword of a type follows all modifiers. -/
theorem followsModifiers_of_typeKeyword?
    {w : String} {kind : DeclarationKind} (h : typeKeyword? w = some kind) (ws : List String) :
    followsModifiers ws (some (.ident w false)) := by
  refine ⟨?_, fun hmark => hmark.elim⟩
  rintro v hv heq
  cases heq
  exact typeWord_notMem_modifierWords h hv

/-- A delegate is read up to the semicolon behind its parameters. -/
theorem reads_delegateDeclaration
    (type : TypeTree) (name : Identifier) (ps : List TypeParameter)
    (parameters : List ParameterTree) (head : Head) (around : Surroundings)
    {attributes : List AttributeUse} (h : AreUses (sectionUses head.attributes) attributes) :
    Reads version (delegateDeclaration attributes (words head.modifiers) around)
      (type.kinds ++ ([name.kind] ++ (angled (ps.map TypeParameter.kinds) ++
        (parameterListKinds parameters ++ [.punct .semicolon])))) anything
      (·.withoutLines = head.declared around .delegateType name ps.length [] []) := by
  unfold delegateDeclaration
  refine type.reads_typeName.step ?_ fun _ _ => .line fun line => .ident ?_
  · rintro k rfl
    simp [endsType, isMark, Identifier.kind]
  refine (reads_typeParameters ps).step (by rintro k rfl; simp) ?_
  rintro _ rfl
  refine (reads_parameters parameters).step (fun _ _ => trivial) fun _ _ => ?_
  refine (reads_skipStatement none).returning fun _ _ => ?_
  exact congrArg (fun uses => ({ head.declared around .delegateType name ps.length [] [] with
    attributes := uses } : TypeDeclaration)) h

section Definitions

variable (head : Head) (around : Surroundings) {attributes : List AttributeUse}
variable (h : AreUses (sectionUses head.attributes) attributes)
include h

theorem reads_typeDeclarationAt_delegate
    (type : TypeTree) (name : Identifier) (ps : List TypeParameter)
    (parameters : List ParameterTree) (depth : Nat) :
    Reads version
      (typeDeclarationAt (depth + 1) .delegateType attributes (words head.modifiers) around)
      (TypeDefinition.delegate type name ps parameters).kinds (· ≠ some (.punct .semicolon))
      (·.map TypeDeclaration.withoutLines =
        (TypeDefinition.delegate type name ps parameters).flatten around head) := by
  rw [typeDeclarationAt, TypeDefinition.kinds, TypeDefinition.flatten]
  refine Reads.follow_mono (?_ : Reads _ _ _ anything _) fun _ _ => trivial
  refine .step (?_ : Reads _ _ _ anything anyResult) (fun _ _ => trivial) fun _ _ => ?_
  · exact .line fun _ => .advance (.pure trivial)
  refine (reads_delegateDeclaration type name ps parameters head around h).returning
    fun t ht => ?_
  exact congrArg (fun t => [t]) ht

theorem reads_typeDeclarationAt_enumeration
    (name : Identifier) (bases : List TypeTree) (constants : Group) (depth : Nat) :
    Reads version
      (typeDeclarationAt (depth + 1) .enumType attributes (words head.modifiers) around)
      (TypeDefinition.enumeration name bases constants).kinds (· ≠ some (.punct .semicolon))
      (·.map TypeDeclaration.withoutLines =
        (TypeDefinition.enumeration name bases constants).flatten around head) := by
  rw [typeDeclarationAt, TypeDefinition.kinds, TypeDefinition.flatten,
    ← List.append_assoc [name.kind]]
  refine .step (?_ : Reads _ _ _ anything anyResult) (fun _ _ => trivial) fun _ _ => ?_
  · exact .line fun _ => .advance (.pure trivial)
  refine (reads_typeHead .enumType name [] bases head around h).step (by rintro k rfl; rfl)
    fun t ht => .look (looks_sees rfl rfl) ?_
  refine ((reads_block constants).follow_mono fun _ _ => trivial).bind_last fun _ _ => ?_
  exact .declines (fun _ hk => hk) (.pure (congrArg (fun t => [t]) ht))

end Definitions

/-! ## Types and bodies -/

/-- A type has a keyword and a name, and braces around its body. -/
theorem TypeDefinition.length_composite
    (keyword : CompositeKeyword) (name : Identifier) (ps : List TypeParameter)
    (bases : List TypeTree) (body : BodyItems) :
    (body.kinds name).length + 2 ≤ (composite keyword name ps bases body).kinds.length := by
  rw [TypeDefinition.kinds]
  simp only [List.length_append, List.length_cons, braced]
  omega

theorem TypeDefinition.length_pos
    (d : TypeDefinition) :
    0 < d.kinds.length := by
  obtain ⟨w, hw, -⟩ := d.exists_head
  exact List.length_pos_iff.2 fun hnil => by simp [hnil] at hw

/-- A type with what stands in front of it is one step in reading a body. -/
theorem TypeDefinition.reads_bodyRound
    (d : TypeDefinition) (head : Head) {around : Surroundings} {depth : Nat}
    (h : ∀ attributes, AreUses (sectionUses head.attributes) attributes →
      Reads version (typeDeclarationAt depth d.declares attributes (words head.modifiers) around)
        d.kinds (· ≠ some (.punct .semicolon))
        (·.map TypeDeclaration.withoutLines = d.flatten around head))
    (owner : Identifier) (s : List Member × List TypeDeclaration) :
    Reads version (bodyRound depth owner.text around s) (head.kinds ++ d.kinds)
      (· ≠ some (.punct .semicolon))
      (isAgain fun s' => s'.1 = s.1 ∧ s'.2.map TypeDeclaration.withoutLines =
        s.2.map TypeDeclaration.withoutLines ++ d.flatten around head) := by
  obtain ⟨w, hw, hkeyword⟩ := d.exists_head
  obtain ⟨i, hi, hfront⟩ := head.exists_head hw
  unfold bodyRound
  refine .look (looks_peek hi) ?_
  refine .look (looks_accept hi (hfront.ne_punct nofun nofun)) ?_
  refine .look (looks_accept hi (hfront.ne_punct nofun nofun)) ?_
  refine head.reads_front hw nofun (followsModifiers_of_typeKeyword? hkeyword _)
    fun attributes huses => ?_
  refine .look (looks_seesType hw) ?_
  rw [show (TokenKind.ident w false).keyword?.bind typeKeyword? = _ from hkeyword]
  refine (h attributes huses).returning fun ts hts => ?_
  exact ⟨_, rfl, rfl, by rw [List.map_append, hts]⟩

/-- What stands in a body starts with no mark that goes on with what stands before it. -/
theorem BodyItems.exists_head
    (items : BodyItems) (owner : Identifier) (hplain : items.IsPlain) :
    ∃ j, (items.kinds owner ++ [TokenKind.punct .closeBrace]).head? = some j ∧
      j ≠ .punct .assign ∧ j ≠ .punct .semicolon := by
  cases items with
  | nil =>
    rw [BodyItems.kinds]
    exact ⟨.punct .closeBrace, rfl, nofun, nofun⟩
  | member head m rest =>
    obtain ⟨j, hj, hstarts, -⟩ := m.exists_head owner hplain.1
    obtain ⟨i, hi, hfront⟩ := head.exists_head hj
    rw [BodyItems.kinds, ← List.append_assoc head.kinds]
    refine ⟨i, by rw [List.head?_append, List.head?_append, hi]; rfl, ?_⟩
    exact ⟨hfront.ne_punct nofun (hstarts.ne_punct nofun nofun),
      hfront.ne_punct nofun (hstarts.ne_punct nofun nofun)⟩
  | type head definition rest =>
    obtain ⟨w, hw, -⟩ := definition.exists_head
    obtain ⟨i, hi, hfront⟩ := head.exists_head hw
    rw [BodyItems.kinds, ← List.append_assoc head.kinds]
    refine ⟨i, by rw [List.head?_append, List.head?_append, hi]; rfl, ?_⟩
    exact ⟨hfront.ne_punct nofun nofun, hfront.ne_punct nofun nofun⟩

section Types

variable (hversion : ∀ feature, version.supports feature = true)
include hversion

/-- A member is read with what stands in front of it. -/
theorem MemberTree.reads_members
    (m : MemberTree) (owner : Identifier) (head : Head)
    (hplain : m.IsPlain (words head.modifiers)) {attributes : List AttributeUse}
    (h : AreUses (sectionUses head.attributes) attributes) :
    Reads version (members owner.text attributes (words head.modifiers)) (m.kinds owner) notAssign
      (·.map Member.withoutLines = head.members (m.declares owner)) := by
  unfold Parse.members
  refine .line fun line => ?_
  refine (m.reads_memberKinds hversion owner hplain).returning ?_
  rintro _ rfl
  unfold Head.members
  rw [List.map_map]
  refine List.map_congr_left fun x _ => ?_
  exact congrArg (fun uses : List AttributeUse =>
    (⟨x.1, x.2, uses, words head.modifiers, 0⟩ : Member)) h

/-- The keyword of a type with members is read with that behind it. -/
theorem CompositeKeyword.reads_declarationKeyword
    (c : CompositeKeyword) :
    Reads version (declarationKeyword c.declares) c.kinds
      (startsNone ["class", "struct"]) anyResult := by
  have hword : ∀ k, startsNone ["class", "struct"] k → ∀ w ∈ ["class", "struct"],
      k.bind TokenKind.keyword? ≠ some w := by
    rintro (_ | k) hk w hw
    · nofun
    · exact keyword?_ne_of_startsNone hk hw
  unfold declarationKeyword
  refine .line fun line => ?_
  cases c with
  | classType | interfaceType | structType => exact .advance (.pure trivial)
  | recordType =>
    refine .advance (.require (hversion _) ?_)
    refine .missesKeyword (fun k hk => hword k hk _ (by decide)) ?_
    exact .missesKeyword (fun k hk => hword k hk _ (by decide)) (.pure trivial)
  | recordClass =>
    refine .advance (.require (hversion _) (.look (looks_seesKeyword rfl rfl) ?_))
    exact .look (looks_seesKeyword rfl rfl) ((reads_advance _).follow_mono fun _ _ => trivial)
  | recordStruct =>
    refine .advance (.require (hversion _) (.look (looks_seesKeyword rfl rfl) ?_))
    exact .look (looks_seesKeyword rfl rfl) ((reads_advance _).follow_mono fun _ _ => trivial)

/-- A member with what stands in front of it is one step in reading a body. -/
theorem MemberTree.reads_bodyRound
    (m : MemberTree) (owner : Identifier) (head : Head)
    (hplain : m.IsPlain (words head.modifiers)) (depth : Nat) (around : Surroundings)
    (s : List Member × List TypeDeclaration) :
    Reads version (bodyRound depth owner.text around s) (head.kinds ++ m.kinds owner) notAssign
      (isAgain fun s' => s'.1.map Member.withoutLines =
        s.1.map Member.withoutLines ++ head.members (m.declares owner) ∧ s'.2 = s.2) := by
  obtain ⟨j, hj, hstarts, hparen⟩ := m.exists_head owner hplain
  obtain ⟨i, hi, hfront⟩ := head.exists_head hj
  unfold bodyRound
  refine .look (looks_peek hi) ?_
  refine .look (looks_accept hi (hfront.ne_punct nofun (hstarts.ne_punct nofun nofun))) ?_
  refine .look (looks_accept hi (hfront.ne_punct nofun (hstarts.ne_punct nofun nofun))) ?_
  refine head.reads_front hj (hstarts.ne_punct nofun nofun) (hstarts.followsModifiers hparen)
    fun attributes huses => ?_
  refine .look (looks_seesType hj) ?_
  rw [hstarts.typeKeyword?_eq_none]
  refine (m.reads_members hversion owner head hplain huses).returning fun ms hms => ?_
  exact ⟨_, rfl, by rw [List.map_append, hms], rfl⟩

/-- A type with members is read as itself and the types in its body. -/
theorem reads_typeDeclarationAt_composite
    (head : Head) (around : Surroundings) {attributes : List AttributeUse}
    (h : AreUses (sectionUses head.attributes) attributes) (keyword : CompositeKeyword)
    (name : Identifier) (ps : List TypeParameter) (bases : List TypeTree) {body : BodyItems}
    {depth : Nat}
    (hbody : Reads version (loop ([], []) (bodyRound depth name.text (inside around name)))
      (body.kinds name ++ [.punct .closeBrace]) anything (fun r =>
        r.1.map Member.withoutLines = body.members name ∧
        r.2.map TypeDeclaration.withoutLines = body.types (inside around name))) :
    Reads version
      (typeDeclarationAt (depth + 2) keyword.declares attributes (words head.modifiers) around)
      (TypeDefinition.composite keyword name ps bases body).kinds (· ≠ some (.punct .semicolon))
      (·.map TypeDeclaration.withoutLines =
        (TypeDefinition.composite keyword name ps bases body).flatten around head) := by
  rw [typeDeclarationAt, TypeDefinition.kinds, TypeDefinition.flatten,
    ← List.append_assoc (angled _), ← List.append_assoc [name.kind]]
  refine (keyword.reads_declarationKeyword hversion).step ?_ fun _ _ => ?_
  · rintro k rfl
    exact StartsType.startsNone (j := name.kind) name.not_isOtherKeyword (by decide)
  rw [if_neg keyword.declares_ne_delegateType]
  refine (reads_typeHead keyword.declares name ps bases head around h).step
    (by rintro k rfl; rfl) fun t ht => ?_
  rw [if_neg keyword.declares_ne_enumType]
  have hname : t.name = name.text := congrArg TypeDeclaration.name ht
  have htypeBody : Reads version (typeBodyAt (depth + 1) t.name
      { around with containing := around.containing ++ [t.name] })
      (braced (body.kinds name)) anything (fun r =>
        r.1.map Member.withoutLines = body.members name ∧
        r.2.map TypeDeclaration.withoutLines = body.types (inside around name)) := by
    rw [hname, typeBodyAt_succ]
    exact .expect hbody
  have hrest : Reads version (do
      let r ← typeBodyAt (depth + 1) t.name
        { around with containing := around.containing ++ [t.name] }
      let _ ← accept .semicolon
      return { t with members := r.1 } :: r.2) (braced (body.kinds name))
      (· ≠ some (.punct .semicolon))
      (·.map TypeDeclaration.withoutLines =
        head.declared around keyword.declares name ps.length bases (body.members name) ::
          body.types (inside around name)) := by
    refine (htypeBody.follow_mono fun _ _ => trivial).bind_last fun r hr => ?_
    refine .declines (fun _ hk => hk) (.pure ?_)
    rw [List.map_cons, hr.2]
    exact congrArg (· :: _) (congrArg₂ (fun (t : TypeDeclaration) (ms : List Member) =>
      { t with members := ms }) ht hr.1)
  -- A record may end with a semicolon in place of its body, which this one does not.
  split
  · exact .declines (by rintro k rfl; simp) hrest
  · exact hrest

mutual

/-- A type is read as itself and the types in it. -/
theorem TypeDefinition.reads_typeDeclarationAt
    (d : TypeDefinition) (hplain : d.IsPlain) (head : Head) (around : Surroundings)
    {attributes : List AttributeUse} (h : AreUses (sectionUses head.attributes) attributes)
    (depth : Nat) (hdepth : d.kinds.length ≤ depth) :
    Reads version (typeDeclarationAt depth d.declares attributes (words head.modifiers) around)
      d.kinds (· ≠ some (.punct .semicolon))
      (·.map TypeDeclaration.withoutLines = d.flatten around head) := by
  match d with
  | .delegate type name ps parameters =>
    obtain ⟨depth, rfl⟩ : ∃ n, depth = n + 1 :=
      Nat.exists_eq_add_one.2 (Nat.lt_of_lt_of_le (TypeDefinition.length_pos _) hdepth)
    exact reads_typeDeclarationAt_delegate head around h type name ps parameters depth
  | .enumeration name bases constants =>
    obtain ⟨depth, rfl⟩ : ∃ n, depth = n + 1 :=
      Nat.exists_eq_add_one.2 (Nat.lt_of_lt_of_le (TypeDefinition.length_pos _) hdepth)
    exact reads_typeDeclarationAt_enumeration head around h name bases constants depth
  | .composite keyword name ps bases body =>
    have hlength := TypeDefinition.length_composite keyword name ps bases body
    obtain ⟨depth, rfl⟩ : ∃ n, depth = n + 2 := ⟨depth - 2, by omega⟩
    exact reads_typeDeclarationAt_composite hversion head around h keyword name ps bases
      (body.reads_bodyRounds hplain name (inside around name) depth (by omega) ([], []))

/-- What stands in a body is read up to the brace behind it. -/
theorem BodyItems.reads_bodyRounds
    (items : BodyItems) (hplain : items.IsPlain) (owner : Identifier) (around : Surroundings)
    (depth : Nat) (hdepth : (items.kinds owner).length ≤ depth)
    (s : List Member × List TypeDeclaration) :
    Reads version (loop s (bodyRound depth owner.text around))
      (items.kinds owner ++ [.punct .closeBrace]) anything
      (fun r => r.1.map Member.withoutLines =
          s.1.map Member.withoutLines ++ items.members owner ∧
        r.2.map TypeDeclaration.withoutLines =
          s.2.map TypeDeclaration.withoutLines ++ items.types around) := by
  match items with
  | .nil =>
    rw [BodyItems.kinds, BodyItems.members, BodyItems.types]
    refine .loop_done (.look (looks_peek rfl) ?_)
    exact .accept (.pure ⟨_, rfl, (List.append_nil _).symm, (List.append_nil _).symm⟩)
  | .member head m rest =>
    rw [BodyItems.kinds, List.length_append, List.length_append] at hdepth
    rw [BodyItems.kinds, BodyItems.members, BodyItems.types, ← List.append_assoc head.kinds,
      List.append_assoc]
    obtain ⟨j, hj, hassign, -⟩ := rest.exists_head owner hplain.2
    refine (m.reads_bodyRound hversion owner head hplain.1 depth around s).loop_next ?_ ?_ ?_
    · intro hnil
      obtain ⟨i, hi, -⟩ := m.exists_head owner hplain.1
      simp [(List.append_eq_nil_iff.1 hnil).2] at hi
    · intro k hk
      rw [shows_of_head? hj hk]
      simpa [notAssign] using hassign
    · intro s' hs'
      refine (rest.reads_bodyRounds hplain.2 owner around depth (by omega) s').mono fun r hr => ?_
      rw [hr.1, hr.2, hs'.1, hs'.2, List.append_assoc]
      exact ⟨rfl, rfl⟩
  | .type head definition rest =>
    rw [BodyItems.kinds, List.length_append, List.length_append] at hdepth
    rw [BodyItems.kinds, BodyItems.members, BodyItems.types, ← List.append_assoc head.kinds,
      List.append_assoc]
    obtain ⟨j, hj, -, hsemicolon⟩ := rest.exists_head owner hplain.2
    refine (definition.reads_bodyRound head (fun _ huses =>
      definition.reads_typeDeclarationAt hplain.1 head around huses depth (by omega))
      owner s).loop_next ?_ ?_ ?_
    · exact List.append_ne_nil_of_right_ne_nil _ (List.length_pos_iff.1 definition.length_pos)
    · intro k hk
      rw [shows_of_head? hj hk]
      simpa using hsemicolon
    · intro s' hs'
      refine (rest.reads_bodyRounds hplain.2 owner around depth (by omega) s').mono fun r hr => ?_
      rw [hr.1, hr.2, hs'.1, hs'.2, List.append_assoc]
      exact ⟨rfl, rfl⟩

end

end Types

end SourceTree
end CSharp
end ContentModels

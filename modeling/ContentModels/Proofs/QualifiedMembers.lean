import ContentModels.Proofs.Parsing.Qualifiers

/-!
# Members that implement an interface explicitly

A method or a property without access modifiers may have the interface that it belongs to in
front of its name.  The file is read as it is with the access modifiers and without the
interface, but for these modifiers (`parseUnit_qualified`).  Events and indexers are not: the
reader takes the first segment of the interface for the name of an event, and the brackets of an
indexer with a qualified name for the size of a buffer.
-/

namespace ContentModels
namespace CSharp

open Parse

/-- The modifiers that say who may use a member. -/
def accessWords : List String :=
  ["public", "private", "protected", "internal"]

/-- Modifiers other than these. -/
def withoutAccess (words : List String) : List String :=
  words.filter (!accessWords.contains ·)

/-- Whether a token is such a modifier. -/
def Token.isAccess (t : Token) : Bool :=
  t.kind.keyword?.any accessWords.contains

/-- A member without such modifiers. -/
def Member.unmodified (m : Member) : Member :=
  { m with modifiers := withoutAccess m.modifiers }

theorem withoutAccess_subset
    {words : List String} {w : String} (h : w ∈ withoutAccess words) :
    w ∈ words :=
  List.mem_of_mem_filter h

theorem kindsOf_withoutAccess
    {toks : List Token} {words : List String} (h : kindsOf toks = wordKinds words) :
    kindsOf (toks.filter (!·.isAccess)) = wordKinds (withoutAccess words) := by
  induction words generalizing toks with
  | nil =>
    obtain rfl := kindsOf_eq_nil.1 h
    rfl
  | cons w words ih =>
    obtain ⟨l, us, rfl, hus⟩ := kindsOf_eq_cons.1 h
    have haccess : Token.isAccess ⟨.ident w false, l⟩ = accessWords.contains w := rfl
    rw [List.filter_cons, haccess, withoutAccess, List.filter_cons]
    split
    · exact congrArg _ (ih hus)
    · exact ih hus

namespace Parse

variable {ctx : ParseContext} {ts us rest : List Token}

/-! ## Attributes -/

/-- One step in reading attributes. -/
def attributeRound (uses : List AttributeUse) :
    Parse (Round (List AttributeUse) (List AttributeUse)) := do
  if ← sees .openBracket then
    return .again (uses ++ (← attributeSection))
  return .done uses

theorem attributeSections_eq :
    attributeSections = loop [] attributeRound := by
  rfl

section

variable (uses : List AttributeUse)

instance : Drops (attributeRound uses) := by
  unfold attributeRound
  infer_instance

instance : EatsAgain (attributeRound uses) := by
  unfold attributeRound
  infer_instance

instance : Carries (attributeRound uses) := by
  unfold attributeRound
  infer_instance

instance : Ends (attributeRound uses) := by
  unfold attributeRound
  infer_instance

end

/-- Reading attributes ends where no bracket comes next. -/
theorem attributeRound_done
    {uses attributes : List AttributeUse} :
    attributeRound uses ctx ts = .ok (.done attributes, rest) ↔
      headKind ts ≠ some (.punct .openBracket) ∧ uses = attributes ∧ ts = rest := by
  unfold attributeRound
  rw [sees_bind, List.drop_zero, ite_apply]
  split
  · rename_i hbracket
    refine ⟨fun h => ?_, fun h => absurd (eq_of_beq hbracket) h.1⟩
    obtain ⟨_, _, -, h⟩ := bind_eq_ok.1 h
    cases h
  · rename_i hbracket
    rw [pure_eq_ok, Round.done.injEq]
    exact (and_iff_right (by simpa using hbracket)).symm

/-- Attributes are read again in front of what starts with no attribute. -/
theorem attributeSections_again
    {attributes : List AttributeUse} (h : attributeSections ctx (ts ++ us) = .ok (attributes, us)) :
    IsClosed ts ∧ ∀ {us'}, IsFresh us' → headKind us' ≠ some (.punct .openBracket) →
      attributeSections ctx (ts ++ us') = .ok (attributes, us') := by
  rw [attributeSections_eq] at h ⊢
  obtain ⟨uses, mid, hreaches, hdone⟩ := exists_reaches h
  obtain ⟨-, rfl, rfl⟩ := attributeRound_done.1 hdone
  have hreaches : Reaches attributeRound ctx [] (ts ++ mid) uses ([] ++ mid) := hreaches
  obtain ⟨hclosed, hrefreshed⟩ := hreaches.refreshed (.inl rfl)
  exact ⟨hclosed, fun hfresh hbracket =>
    (hrefreshed hfresh).loop (loop_of_done (attributeRound_done.2 ⟨hbracket, rfl, rfl⟩))⟩

/-! ## Modifiers -/

theorem keyword?_eq_some
    {k : TokenKind} {w : String} :
    k.keyword? = some w ↔ k = .ident w false := by
  unfold TokenKind.keyword?
  split <;> simp_all

/-- The modifiers that are split off are modifiers, and none comes behind them. -/
theorem splitModifiers_parts
    {words : List String}
    (h : splitModifiers ts = (words, rest)) :
    ∃ toks, ts = toks ++ rest ∧ kindsOf toks = wordKinds words ∧
      (∀ w ∈ words, w ∈ modifierWords) ∧ splitModifiers rest = ([], rest) := by
  induction ts generalizing words with
  | nil =>
    cases h
    exact ⟨[], rfl, rfl, nofun, rfl⟩
  | cons t ts ih =>
    have hsplit := h
    rw [splitModifiers] at h
    split at h
    · cases h
      exact ⟨[], rfl, rfl, nofun, hsplit⟩
    · rename_i word hword
      dsimp only at h
      split at h
      · rename_i hmodifier
        obtain ⟨rfl, hrest⟩ := Prod.mk.inj h
        obtain ⟨toks, hts, hkinds, hwords, hstop⟩ := ih (Prod.ext rfl hrest)
        refine ⟨t :: toks, congrArg _ hts, ?_, ?_, hstop⟩
        · rw [kindsOf_cons, hkinds, wordKinds_cons, keyword?_eq_some.1 hword]
        · refine List.forall_mem_cons.2 ⟨?_, hwords⟩
          exact List.contains_iff_mem.1 (Bool.and_eq_true_iff.1 hmodifier).1
      · cases h
        exact ⟨[], rfl, rfl, nofun, hsplit⟩

/-- What is no modifier in front of a word is none in front of another word. -/
theorem splitModifiers_word
    (hne : ts ≠ []) (h : splitModifiers (ts ++ us) = ([], ts ++ us)) {us' : List Token}
    (hus : SeesWord us) (hus' : SeesWord us') :
    splitModifiers (ts ++ us') = ([], ts ++ us') := by
  obtain ⟨t, ts, rfl⟩ := List.exists_cons_of_ne_nil hne
  have hnext : (ts ++ us').head?.any (Token.isOneOf [.openParen, .assign, .semicolon]) =
      (ts ++ us).head?.any (Token.isOneOf [.openParen, .assign, .semicolon]) := by
    cases ts with
    | nil =>
      obtain ⟨w, b, hword⟩ := hus
      obtain ⟨w', b', hword'⟩ := hus'
      obtain ⟨l, vs, rfl⟩ := headKind_eq_some.1 hword
      obtain ⟨l', vs', rfl⟩ := headKind_eq_some.1 hword'
      rfl
    | cons u ts => rfl
  rw [List.cons_append, splitModifiers] at h ⊢
  split
  · rfl
  · rename_i word hword
    rw [hword] at h
    dsimp only at h ⊢
    rw [hnext]
    split
    · rename_i hmodifier
      rw [if_pos hmodifier] at h
      cases (Prod.mk.inj h).1
    · rfl

/-- No modifier needs a feature. -/
theorem isFree_modifiers
    {words : List String} (hts : kindsOf ts = wordKinds words) (hwords : ∀ w ∈ words, w ∈ modifierWords) :
    ∀ k ∈ kindsOf ts, isFree k = true := by
  have hfree : ∀ w ∈ modifierWords, isFree (.ident w false) = true := by decide
  rw [hts]
  intro k hk
  obtain ⟨w, hw, rfl⟩ := List.mem_map.1 hk
  exact hfree w (hwords w hw)

/-! ## Methods and properties -/

/-- The start of a member behind its attributes: a word, or the parenthesis of a tuple. -/
def StartsMember (k : Option TokenKind) : Prop :=
  k = some (.punct .openParen) ∨ ∃ w b, k = some (.ident w b)

namespace StartsMember

theorem ne_punct
    {k : Option TokenKind} (h : StartsMember k) {p : Punct} (hp : p ≠ .openParen) :
    k ≠ some (.punct p) := by
  rcases h with rfl | ⟨w, b, rfl⟩
  · simpa using hp.symm
  · simp

theorem isFresh
    (h : StartsMember (headKind ts)) :
    IsFresh ts :=
  ⟨h.ne_punct (by decide), h.ne_punct (by decide)⟩

theorem startsPart
    {k : Option TokenKind} (h : StartsMember k) :
    StartsPart k := by
  refine ⟨?_, h.ne_punct (by decide), h.ne_punct (by decide)⟩
  rcases h with rfl | ⟨w, b, rfl⟩ <;> rfl

/-- In front of the start of a member words may stand. -/
theorem behind_words
    (h : StartsMember (headKind us)) {words : List String} (hts : kindsOf ts = wordKinds words) :
    StartsMember (headKind (ts ++ us)) := by
  cases words with
  | nil =>
    obtain rfl := kindsOf_eq_nil.1 hts
    exact h
  | cons w words =>
    obtain ⟨l, vs, rfl, -⟩ := kindsOf_eq_cons.1 hts
    exact .inr ⟨w, false, rfl⟩

end StartsMember

theorem StartsWithType.startsMember
    {className : String} (h : StartsWithType className ts) :
    StartsMember (headKind ts) := by
  have hhead := h.head
  rw [Bool.or_eq_true, beq_iff_eq] at hhead
  refine hhead.imp_right fun hident => ?_
  cases hk : headKind ts with
  | none => simp [hk] at hident
  | some k =>
    cases k with
    | ident w b => exact ⟨w, b, rfl⟩
    | str | character | number | punct => simp [hk, TokenKind.ident?] at hident

/--
How a method or a property is read that comes next in a body: its attributes, its modifiers, its
type, and what is behind the type.
-/
structure MemberReading (ctx : ParseContext) (className : String) (ts : List Token) where
  sections : List Token
  front : List Token
  type : List Token
  behind : List Token
  tokens : ts = sections ++ (front ++ (type ++ behind))
  uses : List AttributeUse
  words : List String
  typeName : TypeName
  name : String
  kind : MemberKind
  rest : List Token
  readsAttributes : attributeSections ctx ts = .ok (uses, front ++ (type ++ behind))
  readsModifiers : modifiers ctx (front ++ (type ++ behind)) = .ok (words, type ++ behind)
  seesNoType : seesType ctx (type ++ behind) = .ok (none, type ++ behind)
  readsType : Parse.typeName ctx (type ++ behind) = .ok (typeName, behind)
  readsKinds : memberKinds className ctx (type ++ behind) = .ok ([(name, kind)], rest)
  methodOrProperty : isMethodOrProperty kind = true

namespace MemberReading

/-- The member that is read. -/
def member {className : String} (m : MemberReading ctx className ts) : Member :=
  ⟨m.name, m.kind, m.uses, m.words, headLine ctx (m.type ++ m.behind)⟩

/-- The tokens without access modifiers and with others in front of the name. -/
def qualifiedTokens {className : String} (m : MemberReading ctx className ts) (qualifier : List Token) :
    List Token :=
  m.sections ++ (m.front.filter (!·.isAccess) ++ (m.type ++ (qualifier ++ m.behind)))

section

variable {className : String} (m : MemberReading ctx className ts)

theorem type_ne_nil :
    m.type ≠ [] :=
  ne_nil_of_eats m.readsType

theorem startsWithType :
    StartsWithType className (m.type ++ m.behind) :=
  startsWithType_of_memberKinds m.readsKinds m.methodOrProperty

theorem behind_seesWord :
    SeesWord m.behind :=
  seesWord_of_namedMembers
    (namedMembers_of_memberKinds m.readsType m.readsKinds m.methodOrProperty)

/-- The tokens of the modifiers are words that are modifiers, and no modifier is behind them. -/
theorem front_kinds :
    kindsOf m.front = wordKinds m.words ∧ (∀ w ∈ m.words, w ∈ modifierWords) ∧
      splitModifiers (m.type ++ m.behind) = ([], m.type ++ m.behind) := by
  obtain ⟨toks, htoks, hkinds⟩ := splitModifiers_parts (Except.ok.inj m.readsModifiers)
  obtain rfl := List.append_cancel_right htoks
  exact hkinds

theorem starts
    {toks : List Token} {words : List String} (htoks : kindsOf toks = wordKinds words)
    (us : List Token) :
    StartsMember (headKind (toks ++ (m.type ++ us))) := by
  refine StartsMember.behind_words ?_ htoks
  rw [headKind_append_left m.type_ne_nil, ← headKind_append_left m.type_ne_nil m.behind]
  exact m.startsWithType.startsMember

theorem sections_cases :
    m.sections = [] ∨ headKind m.sections = some (.punct .openBracket) := by
  by_cases hnil : m.sections = []
  · exact .inl hnil
  refine .inr ?_
  by_contra hbracket
  have hhead : headKind ts = headKind m.sections :=
    (congrArg headKind m.tokens).trans (headKind_append_left hnil _)
  have hread := m.readsAttributes
  rw [attributeSections_of_head (hhead ▸ hbracket)] at hread
  obtain ⟨-, hts⟩ := Prod.mk.inj (Except.ok.inj hread)
  exact hnil (List.append_left_eq_self.1 (m.tokens.symm.trans hts))

/-- With its attributes a member neither ends a body nor goes on with what is in front of it. -/
theorem starts_sections
    (hus : StartsMember (headKind us)) :
    StartsPart (headKind (m.sections ++ us)) ∧ IsFresh (m.sections ++ us) := by
  obtain hnil | hbracket := m.sections_cases
  · rw [hnil]
    exact ⟨hus.startsPart, hus.isFresh⟩
  · obtain ⟨l, vs, hsections⟩ := headKind_eq_some.1 hbracket
    rw [hsections]
    exact ⟨⟨rfl, by simp, by simp⟩, by simp, by simp⟩

end

section

variable {site : TypeSite} (m : MemberReading ctx site.name ts)

theorem bodyStep_eq_ok
    {s : List Member × List TypeDeclaration}
    {r : Round (List Member × List TypeDeclaration) (List Member × List TypeDeclaration)} :
    bodyStep site s ctx ts = .ok (r, rest) ↔ r = .again (s.1 ++ [m.member], s.2) ∧ rest = m.rest := by
  obtain ⟨hkinds, -, -⟩ := m.front_kinds
  have hstart := (m.starts_sections (m.starts hkinds m.behind)).1
  rw [← m.tokens] at hstart
  rw [bodyStep_member hstart m.readsAttributes m.readsModifiers m.seesNoType, m.readsKinds]
  constructor
  · rintro ⟨_, h, rfl⟩
    obtain ⟨rfl, rfl⟩ := Prod.mk.inj (Except.ok.inj h)
    exact ⟨rfl, rfl⟩
  · rintro ⟨rfl, rfl⟩
    exact ⟨_, rfl, rfl⟩

/-- A body is this member and what is read of the body behind it. -/
theorem readBody_eq_ok
    {y : List Member × List TypeDeclaration} :
    readBody site ctx ts = .ok (y, rest) ↔
      ∃ z, readBody site ctx m.rest = .ok (z, rest) ∧ y = (m.member :: z.1, z.2) := by
  have hstep : bodyStep site ([], []) ctx ts = .ok (.again ([m.member], []), m.rest) :=
    m.bodyStep_eq_ok.2 ⟨rfl, rfl⟩
  constructor
  · intro h
    obtain hdone | ⟨s₁, us, hagain, hloop⟩ := loop_cases h
    · cases (m.bodyStep_eq_ok.1 hdone).1
    · obtain ⟨hround, rfl⟩ := m.bodyStep_eq_ok.1 hagain
      obtain rfl := Round.again.inj hround
      obtain ⟨z, hz, rfl⟩ := loop_bodyStep_eq_ok.1 hloop
      exact ⟨z, hz, rfl⟩
  · rintro ⟨z, hz, rfl⟩
    exact loop_of_again hstep (EatsAgain.shorter hstep) (loop_bodyStep_eq_ok.2 ⟨z, hz, rfl⟩)

end

/-- Where one step over a body reads a method or a property, it is read so. -/
theorem exists_memberReading
    {site : TypeSite} {s : List Member × List TypeDeclaration} {x : Member}
    (h : bodyStep site s ctx ts = .ok (.again (s.1 ++ [x], s.2), rest))
    (hkind : isMethodOrProperty x.kind = true) :
    ∃ m : MemberReading ctx site.name ts, m.member = x ∧ m.rest = rest := by
  obtain ⟨hstart, uses, words, ts₁, ts₂, hattributes, hmodifiers, hsees⟩ := members_of_bodyStep h
  obtain ⟨kinds, hkinds, hround⟩ := (bodyStep_member hstart hattributes hmodifiers hsees).1 h
  have hmembers : [x] = membersOf uses words (headLine ctx ts₂) kinds :=
    List.append_cancel_left (congrArg Prod.fst (Round.again.inj hround))
  obtain ⟨⟨name, kind⟩, rfl, rfl⟩ := List.map_eq_singleton_iff.1 hmembers.symm
  have hstarts := startsWithType_of_memberKinds hkinds hkind
  have htype := hkinds
  rw [memberKinds_apply hstarts] at htype
  obtain ⟨typeName, behind, htype, -⟩ := bind_eq_ok.1 htype
  obtain ⟨type, rfl⟩ := Drops.suffix htype
  obtain ⟨front, rfl, -⟩ := splitModifiers_parts (Except.ok.inj hmodifiers)
  obtain ⟨sections, rfl⟩ := Drops.suffix hattributes
  exact ⟨⟨sections, front, type, behind, rfl, uses, words, typeName, name, kind, rest, hattributes,
    hmodifiers, hsees, htype, hkinds, hkind⟩, rfl, rfl⟩

/-! ## With a qualifier -/

section

variable {className : String} (m : MemberReading ctx className ts) {q : List Token}

/-- A modifier that may be a name is still one without those behind it. -/
def KeepsModifiers : Prop :=
  headKind m.type = some (.punct .openParen) →
    ∀ w ∈ (withoutAccess m.words).getLast?, w ∉ contextualModifiers

theorem modifiers_qualified
    (hkeeps : m.KeepsModifiers) (hus : SeesWord us) :
    modifiers ctx (m.front.filter (!·.isAccess) ++ (m.type ++ us)) =
      .ok (withoutAccess m.words, m.type ++ us) := by
  obtain ⟨hkinds, hwords, hstop⟩ := m.front_kinds
  refine congrArg Except.ok (splitModifiers_words (kindsOf_withoutAccess hkinds)
    (fun w hw => hwords w (withoutAccess_subset hw)) ?_
    (splitModifiers_word m.type_ne_nil hstop m.behind_seesWord hus))
  intro hmark
  have hstart : StartsMember (headKind (m.type ++ us)) := @starts _ _ _ m [] [] rfl us
  rw [headKind_append_left m.type_ne_nil] at hmark hstart
  obtain hparen | ⟨w, b, hword⟩ := hstart
  · exact hkeeps hparen
  · rw [hword] at hmark
    simp [isMark] at hmark

/-- How the member is read without access modifiers and with a qualifier in front of its name. -/
def qualified
    (hq : IsQualifier q) (hword : (headKind q).bind TokenKind.keyword? ≠ some "operator")
    (hkeeps : m.KeepsModifiers) :
    MemberReading ctx className (m.qualifiedTokens q) where
  sections := m.sections
  front := m.front.filter (!·.isAccess)
  type := m.type
  behind := q ++ m.behind
  tokens := rfl
  uses := m.uses
  words := withoutAccess m.words
  typeName := m.typeName
  name := m.name
  kind := m.kind
  rest := m.rest
  readsAttributes := by
    have hread := (congrArg (attributeSections ctx) m.tokens).symm.trans m.readsAttributes
    have hstart := m.starts (kindsOf_withoutAccess m.front_kinds.1) (q ++ m.behind)
    exact (attributeSections_again hread).2 hstart.isFresh (hstart.ne_punct (by decide))
  readsModifiers := m.modifiers_qualified hkeeps (hq.seesWord.append _)
  seesNoType := by
    have hsees := (seesType_eq_ok.1 m.seesNoType).1
    rw [headKind_append_left m.type_ne_nil] at hsees
    exact seesType_eq_ok.2 ⟨by rwa [headKind_append_left m.type_ne_nil], rfl⟩
  readsType := typeName_word m.readsType m.behind_seesWord (hq.seesWord.append _)
  readsKinds := memberKinds_qualified m.readsType m.readsKinds m.methodOrProperty hq hword
  methodOrProperty := m.methodOrProperty

theorem member_qualified
    (hq : IsQualifier q) (hword : (headKind q).bind TokenKind.keyword? ≠ some "operator")
    (hkeeps : m.KeepsModifiers) :
    (m.qualified hq hword hkeeps).member = m.member.unmodified := by
  obtain ⟨t, toks, htype⟩ := List.exists_cons_of_ne_nil m.type_ne_nil
  have hline : ∀ us, headLine ctx (m.type ++ us) = t.line := fun us => by
    rw [htype]
    rfl
  change Member.mk _ _ _ _ _ = Member.mk _ _ _ _ _
  exact congrArg _ ((hline _).trans (hline _).symm)

theorem getLast?_qualifiedTokens
    (q : List Token) :
    (m.qualifiedTokens q).getLast? = ts.getLast? := by
  have hlast : ∀ toks : List Token, (toks ++ m.behind).getLast? = m.behind.getLast? := fun toks =>
    List.getLast?_append_of_ne_nil toks m.behind_seesWord.ne_nil
  have hts : ts = m.sections ++ m.front ++ m.type ++ m.behind := by
    simpa only [List.append_assoc] using m.tokens
  have hq : m.qualifiedTokens q =
      m.sections ++ m.front.filter (!·.isAccess) ++ m.type ++ q ++ m.behind := by
    simp only [qualifiedTokens, List.append_assoc]
  exact ((congrArg List.getLast? hq).trans (hlast _)).trans
    ((congrArg List.getLast? hts).trans (hlast _)).symm

/-- The changed tokens need no feature that the tokens did not need, apart from the qualifier. -/
theorem checkTokens_qualified
    {version : LanguageVersion} (hqualifier : checkTokens version q = .ok ())
    (hcheck : checkTokens version ts = .ok ()) :
    checkTokens version (m.qualifiedTokens q) = .ok () := by
  obtain ⟨hkinds, hwords, -⟩ := m.front_kinds
  have hread := (congrArg (attributeSections ctx) m.tokens).symm.trans m.readsAttributes
  rw [m.tokens, checkTokens_closed (attributeSections_again hread).1,
    checkTokens_append (isFree_modifiers hkinds hwords)] at hcheck
  have hkinds' := isFree_modifiers (kindsOf_withoutAccess hkinds)
    fun w hw => hwords w (withoutAccess_subset hw)
  rw [qualifiedTokens, checkTokens_closed (attributeSections_again hread).1,
    checkTokens_append hkinds']
  obtain ⟨hsections, hrest⟩ := hcheck
  obtain ⟨w, b, hword⟩ := m.behind_seesWord
  have hbehind : checkTokens version (q ++ m.behind) = .ok () :=
    @checkTokens_replaced version q [] _ (by rwa [List.append_nil]) (checkTokens_behind hrest)
      fun k => neededFeatures_subset k _
  refine ⟨hsections, checkTokens_replaced hrest hbehind fun k => ?_⟩
  rw [hword, neededFeatures_word]
  exact neededFeatures_subset k _

end

end MemberReading

end Parse

/--
A method or a property may lose its access modifiers and get the interface it belongs to in front
of its name: the file is still read, with nothing changed but the modifiers of this member.
-/
theorem parseUnit_qualified
    {file source source' : String} {version : LanguageVersion} {unit : CompilationUnit}
    {comments : List Char} {pre post qualifier : List Token} {site : TypeSite} {i j : Nat}
    (m : MemberReading (fileContext version (pre ++ post)) site.name post)
    (hsource : tokenize source = .ok ⟨pre ++ post, comments⟩)
    (hsource' : tokenize source' = .ok ⟨pre ++ m.qualifiedTokens qualifier, comments⟩)
    (hparse : parseUnit file source version = .ok unit)
    (hplace : FilePlace (fileContext version (pre ++ post)) false "" [] (pre ++ post) site post i j)
    (hqualifier : IsQualifier qualifier) (hversion : checkTokens version qualifier = .ok ())
    (hword : (headKind qualifier).bind TokenKind.keyword? ≠ some "operator")
    (hkeeps : m.KeepsModifiers) :
    parseUnit file source' version =
      .ok { unit with types := editMembers i j (·.modify 0 Member.unmodified) unit.types } := by
  have hstart := m.starts (kindsOf_withoutAccess m.front_kinds.1) (qualifier ++ m.behind)
  refine parseUnit_edited hsource hsource' hparse hplace (m.starts_sections hstart).2 ?_
    (m.checkTokens_qualified hversion) ?_
  · exact fun _ => m.getLast?_qualifiedTokens qualifier
  · intro y mid hread
    obtain ⟨z, hz, rfl⟩ := m.readBody_eq_ok.1 hread
    refine (m.qualified hqualifier hword hkeeps).readBody_eq_ok.2 ⟨z, hz, ?_⟩
    rw [m.member_qualified]
    rfl

/-- A method that answers with a tuple, behind another member of a class. -/
theorem parseUnit_qualified_method :
    parseUnit "A.cs" "class A { int x; [B] static (int, int) N.I<string>.M() { } int y; }" .standard =
      (parseUnit "A.cs" "class A { int x; [B] public static (int, int) M() { } int y; }" .standard).map
        (fun unit =>
          { unit with types := editMembers 0 1 (·.modify 0 Member.unmodified) unit.types }) ∧
    (parseUnit "A.cs" "class A { int x; [B] public static (int, int) M() { } int y; }" .standard).isOk =
      true := by
  let pre : List Token := [⟨.ident "class" false, 1⟩, ⟨.ident "A" false, 1⟩, ⟨.punct .openBrace, 1⟩,
    ⟨.ident "int" false, 1⟩, ⟨.ident "x" false, 1⟩, ⟨.punct .semicolon, 1⟩]
  let rest : List Token := [⟨.ident "int" false, 1⟩, ⟨.ident "y" false, 1⟩, ⟨.punct .semicolon, 1⟩,
    ⟨.punct .closeBrace, 1⟩]
  let sections : List Token := [⟨.punct .openBracket, 1⟩, ⟨.ident "B" false, 1⟩, ⟨.punct .closeBracket, 1⟩]
  let front : List Token := [⟨.ident "public" false, 1⟩, ⟨.ident "static" false, 1⟩]
  let type : List Token := [⟨.punct .openParen, 1⟩, ⟨.ident "int" false, 1⟩, ⟨.punct .comma, 1⟩,
    ⟨.ident "int" false, 1⟩, ⟨.punct .closeParen, 1⟩]
  let behind : List Token := ⟨.ident "M" false, 1⟩ :: ⟨.punct .openParen, 1⟩ ::
    ⟨.punct .closeParen, 1⟩ :: ⟨.punct .openBrace, 1⟩ :: ⟨.punct .closeBrace, 1⟩ :: rest
  let post : List Token := sections ++ (front ++ (type ++ behind))
  let arguments : List Token := [⟨.punct .less, 1⟩, ⟨.ident "string" false, 1⟩, ⟨.punct .greater, 1⟩]
  let m : MemberReading (fileContext .standard (pre ++ post)) "A" post := {
    sections, front, type, behind, rest
    tokens := rfl
    uses := [⟨wordType "B", [], 1⟩]
    words := ["public", "static"]
    typeName := ⟨"(int,int)", ["ValueTuple"], 0, false⟩
    name := "M"
    kind := .method ⟨"(int,int)", ["ValueTuple"], 0, false⟩ []
    readsAttributes := by decide +kernel
    readsModifiers := by decide +kernel
    seesNoType := by decide +kernel
    readsType := by decide +kernel
    readsKinds := by decide +kernel
    methodOrProperty := rfl }
  have hqualifier : IsQualifier ([⟨.ident "N" false, 1⟩, ⟨.punct .dot, 1⟩] ++
      (⟨.ident "I" false, 1⟩ :: (arguments ++ [⟨.punct .dot, 1⟩]))) :=
    .cons (.word "N" false 1 1 (.inl rfl)) (.last (.generic "I" false 1 1
      (show typeArguments ⟨.standard, 1⟩ arguments = .ok (1, []) by decide +kernel) (by decide)))
  have hok : (parseUnit "A.cs" "class A { int x; [B] public static (int, int) M() { } int y; }"
      .standard).isOk = true := by decide +kernel
  obtain ⟨unit, hparse⟩ : ∃ unit, parseUnit "A.cs"
      "class A { int x; [B] public static (int, int) M() { } int y; }" .standard = .ok unit := by
    cases h : parseUnit "A.cs" "class A { int x; [B] public static (int, int) M() { } int y; }" .standard with
    | ok unit => exact ⟨unit, rfl⟩
    | error failure =>
      rw [h] at hok
      cases hok
  have hplace : FilePlace (fileContext .standard (pre ++ post)) false "" [] (pre ++ post)
      ⟨"A", ⟨"", ["A"], []⟩⟩ post 0 1 :=
    @FilePlace.inType _ _ _ _ _ _ ((pre ++ post).drop 3) _ ⟨"", [], .empty⟩
      ⟨.classType, "A", 0, "", [], [], [], [], [], [], 1⟩ _ _ _ (.refl _ _) (by decide +kernel)
      (@BodyPlace.here _ _ _ _ ([⟨"x", .field (wordType "int"), [], [], 1⟩], [])
        (.again (by decide +kernel) (.refl _ _)))
  rw [hparse]
  refine ⟨?_, hparse ▸ hok⟩
  refine @parseUnit_qualified "A.cs" _ _ .standard _ [] pre post _ ⟨"A", ⟨"", ["A"], []⟩⟩ 0 1 m
    (by decide +kernel) (by decide +kernel) hparse hplace hqualifier (by decide +kernel) (by decide)
    fun _ w hw => ?_
  obtain rfl : "static" = w := Option.some.inj hw
  decide

end CSharp
end ContentModels

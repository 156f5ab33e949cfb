import ContentModels.Proofs.Parsing.Passages

/-!
# Bodies of types

The body of a type is read part by part, and a type in it has a body of its own.  Here both are
put without the bounds on nesting: `readBody` goes over a body, and where the front of a type
comes next, up to the brace in front of its body (`bodyFront`), the part that it goes over is
this front and what `readBody` makes of the body behind it.
-/

namespace ContentModels
namespace CSharp
namespace Parse

variable {ctx : ParseContext} {ts body rest : List Token}

/-- A type of which the members are read: its name, and what surrounds the types in it. -/
structure TypeSite where
  name : String
  around : Surroundings

/-- A type inside others. -/
def Surroundings.site (around : Surroundings) (head : TypeDeclaration) : TypeSite :=
  ⟨head.name, { around with containing := around.containing ++ [head.name] }⟩

/-- One step in reading the body of a type. -/
def bodyStep (site : TypeSite) (s : List Member × List TypeDeclaration) :
    Parse (Round (List Member × List TypeDeclaration) (List Member × List TypeDeclaration)) :=
  nested fun depth => bodyRound depth site.name site.around s

/-- Read the body of a type behind its opening brace: its members and the types in it. -/
def readBody (site : TypeSite) : Parse (List Member × List TypeDeclaration) :=
  loop ([], []) (bodyStep site)

section

variable (site : TypeSite) (s : List Member × List TypeDeclaration)

instance : Drops (bodyStep site s) :=
  inferInstanceAs (Drops (nested fun depth => bodyRound depth site.name site.around s))

instance : EatsAgain (bodyStep site s) :=
  inferInstanceAs (EatsAgain (nested fun depth => bodyRound depth site.name site.around s))

instance : Carries (bodyStep site s) :=
  inferInstanceAs (Carries (nested fun depth => bodyRound depth site.name site.around s))

instance : Ends (bodyStep site s) :=
  inferInstanceAs (Ends (nested fun depth => bodyRound depth site.name site.around s))

end

/-! ## What has been read of a body -/

/-- What has been read of a body, with what was read before in front of it. -/
def behindBody (before s : List Member × List TypeDeclaration) :
    List Member × List TypeDeclaration :=
  (before.1 ++ s.1, before.2 ++ s.2)

theorem map_ite
    {α β : Type} (g : α → β) (c : Prop) [Decidable c] (p q : Parse α) :
    (g <$> if c then p else q) = if c then g <$> p else g <$> q :=
  apply_ite (g <$> ·) c p q

theorem bodyItem_behind
    (depth : Nat) (name : String) (around : Surroundings)
    (before s : List Member × List TypeDeclaration) (attributes : List AttributeUse)
    (words : List String) (kind : Option DeclarationKind) :
    bodyItem depth name around (behindBody before s) attributes words kind =
      (Round.map (behindBody before) (behindBody before) <$>
        bodyItem depth name around s attributes words kind) := by
  unfold bodyItem
  cases kind with
  | some kind => simp [Round.map, behindBody]
  | none => simp [Round.map, behindBody]

theorem bodyRound_behind
    (depth : Nat) (name : String) (around : Surroundings)
    (before s : List Member × List TypeDeclaration) :
    bodyRound depth name around (behindBody before s) =
      (Round.map (behindBody before) (behindBody before) <$> bodyRound depth name around s) := by
  rw [bodyRound_eq, bodyRound_eq]
  simp only [map_bind, map_ite, map_pure, bodyItem_behind]
  rfl

theorem bodyStep_behind
    (site : TypeSite) (before s : List Member × List TypeDeclaration) :
    bodyStep site (behindBody before s) =
      (Round.map (behindBody before) (behindBody before) <$> bodyStep site s) := by
  unfold bodyStep
  simp only [bodyRound_behind]
  rfl

/-- What is read of a body behind some of it does not depend on what was read before. -/
theorem loop_bodyStep_eq_ok
    {site : TypeSite} {before x : List Member × List TypeDeclaration} :
    loop before (bodyStep site) ctx ts = .ok (x, rest) ↔
      ∃ s, readBody site ctx ts = .ok (s, rest) ∧ behindBody before s = x := by
  have hbefore : before = behindBody before ([], []) := by
    simp [behindBody]
  conv => lhs; rw [hbefore]
  rw [loop_map (bodyStep_behind site before), map_eq_ok]
  rfl

/-! ## Types with a body -/

theorem typeBodyAt_eq_ok
    {depth : Nat} {site : TypeSite} {x : List Member × List TypeDeclaration}
    (h : ts.length < depth) :
    typeBodyAt depth site.name site.around ctx ts = .ok (x, rest) ↔
      ∃ l body, ts = ⟨.punct .openBrace, l⟩ :: body ∧ readBody site ctx body = .ok (x, rest) := by
  obtain ⟨depth, rfl⟩ : ∃ d, depth = d + 1 := ⟨depth - 1, by omega⟩
  rw [typeBodyAt_succ, bind_eq_ok]
  have hloop : ∀ {l body}, ts = ⟨.punct .openBrace, l⟩ :: body →
      (readBody site ctx body = .ok (x, rest) ↔
        loop ([], []) (bodyRound depth site.name site.around) ctx body = .ok (x, rest)) := by
    rintro l body rfl
    rw [List.length_cons] at h
    exact loop_nested_eq_ok (fun depth => bodyRound depth site.name site.around)
      (Nat.le_refl _) fun d s => IgnoresBound.enough (p := (bodyRound · site.name site.around s))
        (Nat.lt_of_succ_lt_succ h) d
  constructor
  · rintro ⟨_, body, hbrace, hbody⟩
    obtain ⟨l, rfl⟩ := expect_eq_ok.1 hbrace
    exact ⟨l, body, rfl, (hloop rfl).2 hbody⟩
  · rintro ⟨l, body, rfl, hbody⟩
    exact ⟨(), body, expect_eq_ok.2 ⟨l, rfl⟩, (hloop rfl).1 hbody⟩

/-- The tokens behind a semicolon, if one comes next. -/
def behindSemicolon (ts : List Token) : List Token :=
  if headKind ts = some (.punct .semicolon) then ts.drop 1 else ts

theorem acceptSemicolon_eq_ok
    {α : Type} {a b : α} :
    (do
      let _ ← accept .semicolon
      return a : Parse α) ctx ts = .ok (b, rest) ↔ a = b ∧ behindSemicolon ts = rest := by
  rw [accept_bind, behindSemicolon]
  split <;> exact pure_eq_ok

/-- Read a type up to the brace in front of its members. -/
def typeFront
    (kind : DeclarationKind) (attributes : List AttributeUse) (words : List String)
    (around : Surroundings) : Parse TypeDeclaration := do
  if kind = .delegateType ∨ kind = .enumType then fail (.expected .openBrace)
  declarationKeyword kind
  let head ← typeHead kind attributes words around
  expect .openBrace
  return head

/-- Behind its front a type is its body, and perhaps a semicolon. -/
theorem typeDeclaration_front
    {kind : DeclarationKind} {attributes : List AttributeUse} {words : List String}
    {around : Surroundings} {head : TypeDeclaration} {types : List TypeDeclaration}
    (hfront : typeFront kind attributes words around ctx ts = .ok (head, body)) :
    typeDeclaration kind attributes words around ctx ts = .ok (types, rest) ↔
      ∃ x mid, readBody (around.site head) ctx body = .ok (x, mid) ∧
        types = { head with members := x.1 } :: x.2 ∧ rest = behindSemicolon mid := by
  unfold typeFront at hfront
  dsimp only at hfront
  by_cases hkind : kind = .delegateType ∨ kind = .enumType
  · rw [if_pos hkind] at hfront
    cases hfront
  rw [if_neg hkind] at hfront
  obtain ⟨hdelegate, henum⟩ := not_or.1 hkind
  obtain ⟨_, ts₁, hkeyword, hfront⟩ := bind_eq_ok.1 hfront
  obtain ⟨head, ts₂, hhead, hfront⟩ := bind_eq_ok.1 hfront
  obtain ⟨_, body, hbrace, hfront⟩ := bind_eq_ok.1 hfront
  obtain ⟨rfl, rfl⟩ := pure_eq_ok.1 hfront
  obtain ⟨l, rfl⟩ := expect_eq_ok.1 hbrace
  have hle := Drops.length_le hkeyword
  have hlt := Eats.shorter hhead
  -- What is read behind the head, where a brace comes next.
  have hread : typeDeclaration kind attributes words around ctx ts =
      (do
        let x ← typeBodyAt ts.length head.name
          { around with containing := around.containing ++ [head.name] }
        let _ ← accept .semicolon
        return { head with members := x.1 } :: x.2) ctx (⟨.punct .openBrace, l⟩ :: body) := by
    change typeDeclarationAt (ts.length + 1) kind attributes words around ctx ts = _
    unfold typeDeclarationAt
    dsimp only
    rw [bind_of_ok hkeyword, if_neg hdelegate, bind_of_ok hhead, if_neg henum]
    split
    · rw [accept_bind, if_neg (by simp)]
      rfl
    · rfl
  have hbound : (⟨.punct .openBrace, l⟩ :: body : List Token).length < ts.length :=
    Nat.lt_of_lt_of_le hlt hle
  have hreadBody := fun x mid => @typeBodyAt_eq_ok ctx _ mid _ (around.site head) x hbound
  rw [hread, bind_eq_ok]
  constructor
  · rintro ⟨x, mid, hbody, h⟩
    obtain ⟨_, _, heq, hbody⟩ := (hreadBody x mid).1 hbody
    obtain ⟨-, rfl⟩ := List.cons.inj heq
    obtain ⟨rfl, rfl⟩ := acceptSemicolon_eq_ok.1 h
    exact ⟨x, mid, hbody, rfl, rfl⟩
  · rintro ⟨x, mid, hbody, rfl, rfl⟩
    exact ⟨x, mid, (hreadBody x mid).2 ⟨l, body, rfl, hbody⟩,
      acceptSemicolon_eq_ok.2 ⟨rfl, rfl⟩⟩

/-! ## Fronts of types -/

/-- Go on with the front of a type behind its attributes and modifiers. -/
def frontItem
    (attributes : List AttributeUse) (words : List String) (around : Surroundings)
    (kind : Option DeclarationKind) : Parse TypeDeclaration :=
  match kind with
  | some kind => typeFront kind attributes words around
  | none => fail (.expected .openBrace)

/-- Read a type up to the brace in front of its members, from its attributes on. -/
def bodyFront (around : Surroundings) : Parse TypeDeclaration := do
  let attributes ← attributeSections
  let words ← modifiers
  frontItem attributes words around (← seesType)

section

variable (kind : DeclarationKind) (attributes : List AttributeUse) (words : List String)
  (around : Surroundings)

instance : Drops (typeFront kind attributes words around) := by
  unfold typeFront
  dsimp only
  infer_instance

instance : Eats (typeFront kind attributes words around) := by
  unfold typeFront
  dsimp only
  infer_instance

instance : Carries (typeFront kind attributes words around) := by
  unfold typeFront
  dsimp only
  infer_instance

instance : Ends (typeFront kind attributes words around) := by
  unfold typeFront
  dsimp only
  infer_instance

instance (kind : Option DeclarationKind) : Drops (frontItem attributes words around kind) := by
  unfold frontItem
  split <;> infer_instance

instance (kind : Option DeclarationKind) : Eats (frontItem attributes words around kind) := by
  unfold frontItem
  split <;> infer_instance

instance (kind : Option DeclarationKind) : Carries (frontItem attributes words around kind) := by
  unfold frontItem
  split <;> infer_instance

instance (kind : Option DeclarationKind) : Ends (frontItem attributes words around kind) := by
  unfold frontItem
  split <;> infer_instance

instance : Drops (bodyFront around) := by
  unfold bodyFront
  infer_instance

instance : Eats (bodyFront around) := by
  unfold bodyFront
  infer_instance

instance : Carries (bodyFront around) := by
  unfold bodyFront
  infer_instance

instance : Ends (bodyFront around) := by
  unfold bodyFront
  infer_instance

end

/-- Attributes that are read start with a bracket; otherwise there are none. -/
theorem attributeSections_of_head
    (h : headKind ts ≠ some (.punct .openBracket)) :
    attributeSections ctx ts = .ok ([], ts) := by
  unfold attributeSections
  refine loop_of_done ?_
  rw [sees_bind, List.drop_zero, if_neg (by simpa using h)]
  rfl

/-- The words that start the front of a type. -/
def frontWords : List String :=
  ["class", "interface", "struct", "record"] ++ modifierWords

theorem seesType_eq_ok
    {kind : Option DeclarationKind} :
    seesType ctx ts = .ok (kind, rest) ↔
      ((headKind ts).bind TokenKind.keyword?).bind typeKeyword? = kind ∧ ts = rest := by
  unfold seesType
  rw [peek_bind, List.drop_zero]
  exact pure_eq_ok

/-- The front of a type behind its modifiers starts with the keyword of the type. -/
theorem frontItem_head
    {attributes : List AttributeUse} {words : List String} {around : Surroundings}
    {head : TypeDeclaration}
    (h : (seesType >>= frontItem attributes words around) ctx ts = .ok (head, body)) :
    ∃ word ∈ ["class", "interface", "struct", "record"],
      (headKind ts).bind TokenKind.keyword? = some word := by
  obtain ⟨kind, _, hsees, h⟩ := bind_eq_ok.1 h
  obtain ⟨hkind, rfl⟩ := seesType_eq_ok.1 hsees
  cases kind with
  | none => cases h
  | some kind =>
    obtain ⟨word, hword, hkind⟩ := Option.bind_eq_some_iff.1 hkind
    refine ⟨word, ?_, hword⟩
    unfold typeKeyword? at hkind
    split at hkind
    · simp
    · simp
    · simp
    · cases hkind
      cases h
    · simp
    · cases hkind
      cases h
    · cases hkind

/-- A type starts with a bracket, a modifier or its keyword. -/
theorem bodyFront_head
    {around : Surroundings} {head : TypeDeclaration}
    (h : bodyFront around ctx ts = .ok (head, body)) :
    headKind ts = some (.punct .openBracket) ∨
      ∃ word ∈ frontWords, (headKind ts).bind TokenKind.keyword? = some word := by
  refine or_iff_not_imp_left.2 fun hbracket => ?_
  unfold bodyFront at h
  rw [bind_of_ok (attributeSections_of_head hbracket)] at h
  obtain ⟨words, mid, hmodifiers, h⟩ := bind_eq_ok.1 h
  obtain ⟨word, hmem, hword⟩ := frontItem_head h
  have hsplit : splitModifiers ts = (words, mid) := Except.ok.inj hmodifiers
  cases ts with
  | nil =>
    cases hsplit
    cases hword
  | cons t ts =>
    rw [splitModifiers] at hsplit
    split at hsplit
    · cases hsplit
      exact ⟨word, List.mem_append_left _ hmem, hword⟩
    · rename_i first hfirst
      dsimp only at hsplit
      split at hsplit
      · rename_i hmodifier
        refine ⟨first, List.mem_append_right _ ?_, hfirst⟩
        exact List.contains_iff_mem.1 (Bool.and_eq_true_iff.1 hmodifier).1
      · cases hsplit
        exact ⟨word, List.mem_append_left _ hmem, hword⟩

/-- A word is no mark. -/
theorem headKind_ne_punct
    {word : String} (h : (headKind ts).bind TokenKind.keyword? = some word) (p : Punct) :
    headKind ts ≠ some (.punct p) := by
  intro hp
  rw [hp] at h
  cases h

theorem bodyFront_ne_punct
    {around : Surroundings} {head : TypeDeclaration} {p : Punct}
    (h : bodyFront around ctx ts = .ok (head, body)) (hp : p ≠ .openBracket) :
    headKind ts ≠ some (.punct p) := by
  obtain hbracket | ⟨word, -, hword⟩ := bodyFront_head h
  · rw [hbracket]
    simpa using hp.symm
  · exact headKind_ne_punct hword p

theorem bodyFront_isNone
    {around : Surroundings} {head : TypeDeclaration}
    (h : bodyFront around ctx ts = .ok (head, body)) :
    (headKind ts).isNone = false := by
  obtain hbracket | ⟨word, -, hword⟩ := bodyFront_head h
  · rw [hbracket]
    rfl
  · obtain ⟨k, hk, -⟩ := Option.bind_eq_some_iff.1 hword
    rw [hk]
    rfl

/-- What the readers of declarations make of the front of a type: the tokens behind its modifiers. -/
theorem bodyFront_parts
    {around : Surroundings} {head : TypeDeclaration}
    (h : bodyFront around ctx ts = .ok (head, body)) :
    ∃ attributes words kind mid, mid.length ≤ ts.length ∧
      (∀ {β : Type} (f : List AttributeUse → List String → Option DeclarationKind → Parse β),
        (do
          let attributes ← attributeSections
          let words ← modifiers
          f attributes words (← seesType)) ctx ts = f attributes words (some kind) ctx mid) ∧
      typeFront kind attributes words around ctx mid = .ok (head, body) := by
  unfold bodyFront at h
  obtain ⟨attributes, ts₁, hattributes, h⟩ := bind_eq_ok.1 h
  obtain ⟨words, ts₂, hmodifiers, h⟩ := bind_eq_ok.1 h
  obtain ⟨kind, _, hsees, h⟩ := bind_eq_ok.1 h
  obtain rfl := TakesNothing.same hsees
  cases kind with
  | none => cases h
  | some kind =>
    have hle₁ := Drops.length_le hattributes
    have hle₂ := Drops.length_le hmodifiers
    refine ⟨attributes, words, kind, _, Nat.le_trans hle₂ hle₁, fun f => ?_, h⟩
    rw [bind_of_ok hattributes, bind_of_ok hmodifiers, bind_of_ok hsees]

/-- The head of a part of a body: there is one, and it neither ends the body nor is a part. -/
def StartsPart (k : Option TokenKind) : Prop :=
  k.isNone = false ∧ k ≠ some (.punct .closeBrace) ∧ k ≠ some (.punct .semicolon)

/-- A part of a body is read from its attributes on. -/
theorem bodyRound_apply
    {depth : Nat} {name : String} {around : Surroundings} {s : List Member × List TypeDeclaration}
    (h : StartsPart (headKind ts)) :
    bodyRound depth name around s ctx ts =
      (do
        let attributes ← attributeSections
        let words ← modifiers
        bodyItem depth name around s attributes words (← seesType)) ctx ts := by
  obtain ⟨hnone, hbrace, hsemicolon⟩ := h
  rw [bodyRound_eq, peek_bind, List.drop_zero, hnone]
  dsimp only
  rw [if_neg Bool.false_ne_true, accept_bind, if_neg hbrace, if_neg Bool.false_ne_true,
    accept_bind, if_neg hsemicolon, if_neg Bool.false_ne_true]

/-- Where a type comes next in a body, the step goes over its front, its body and a semicolon. -/
theorem bodyStep_front
    {site : TypeSite} {s : List Member × List TypeDeclaration} {head : TypeDeclaration}
    {r : Round (List Member × List TypeDeclaration) (List Member × List TypeDeclaration)}
    (hfront : bodyFront site.around ctx ts = .ok (head, body)) :
    bodyStep site s ctx ts = .ok (r, rest) ↔
      ∃ x mid, readBody (site.around.site head) ctx body = .ok (x, mid) ∧
        r = .again (s.1, s.2 ++ { head with members := x.1 } :: x.2) ∧
        rest = behindSemicolon mid := by
  obtain ⟨attributes, words, kind, mid, hle, hparts, htype⟩ := bodyFront_parts hfront
  have hread : bodyStep site s ctx ts =
      (do
        let types ← typeDeclarationAt (ts.length + 1) kind attributes words site.around
        return Round.again (s.1, s.2 ++ types)) ctx mid := by
    change bodyRound (ts.length + 1) site.name site.around s ctx ts = _
    have hstart : StartsPart (headKind ts) :=
      ⟨bodyFront_isNone hfront, bodyFront_ne_punct hfront (by decide),
        bodyFront_ne_punct hfront (by decide)⟩
    rw [bodyRound_apply hstart, hparts]
    rfl
  have htypes : ∀ {types rest}, typeDeclarationAt (ts.length + 1) kind attributes words site.around
      ctx mid = .ok (types, rest) ↔
      typeDeclaration kind attributes words site.around ctx mid = .ok (types, rest) :=
    (nested_eq_ok (p := (typeDeclarationAt · kind attributes words site.around))
      (Nat.lt_succ_of_le hle)).symm
  rw [hread, bind_eq_ok]
  constructor
  · rintro ⟨types, _, h, hr⟩
    obtain ⟨rfl, rfl⟩ := pure_eq_ok.1 hr
    obtain ⟨x, mid, hbody, rfl, rfl⟩ := (typeDeclaration_front htype).1 (htypes.1 h)
    exact ⟨x, mid, hbody, rfl, rfl⟩
  · rintro ⟨x, mid, hbody, rfl, rfl⟩
    exact ⟨_, _, htypes.2 ((typeDeclaration_front htype).2 ⟨x, mid, hbody, rfl, rfl⟩), rfl⟩

/-! ## Members -/

/-- The line on which what comes next stands. -/
def headLine (ctx : ParseContext) (ts : List Token) : Nat :=
  (ts.head?.map (·.line)).getD ctx.endLine

/-- The members that one declaration declares. -/
def membersOf
    (attributes : List AttributeUse) (words : List String) (line : Nat)
    (kinds : List (String × MemberKind)) : List Member :=
  kinds.map fun x => ⟨x.1, x.2, attributes, words, line⟩

/-- Where members come next in a body, the step goes over their attributes, modifiers and kinds. -/
theorem bodyStep_member
    {site : TypeSite} {s : List Member × List TypeDeclaration} {attributes : List AttributeUse}
    {words : List String} {ts₁ ts₂ : List Token}
    {r : Round (List Member × List TypeDeclaration) (List Member × List TypeDeclaration)}
    (hstart : StartsPart (headKind ts))
    (hattributes : attributeSections ctx ts = .ok (attributes, ts₁))
    (hmodifiers : modifiers ctx ts₁ = .ok (words, ts₂))
    (hsees : seesType ctx ts₂ = .ok (none, ts₂)) :
    bodyStep site s ctx ts = .ok (r, rest) ↔
      ∃ kinds, memberKinds site.name ctx ts₂ = .ok (kinds, rest) ∧
        r = .again (s.1 ++ membersOf attributes words (headLine ctx ts₂) kinds, s.2) := by
  have hread : bodyStep site s ctx ts =
      (do
        let kinds ← memberKinds site.name
        return Round.again (s.1 ++ membersOf attributes words (headLine ctx ts₂) kinds, s.2))
          ctx ts₂ := by
    change bodyRound (ts.length + 1) site.name site.around s ctx ts = _
    rw [bodyRound_apply hstart, bind_of_ok hattributes, bind_of_ok hmodifiers, bind_of_ok hsees]
    change ((members site.name attributes words) >>= _) ctx ts₂ = _
    unfold members
    rw [bind_assoc_apply, line_bind, bind_assoc_apply]
    rfl
  rw [hread, bind_eq_ok]
  constructor
  · rintro ⟨kinds, _, hkinds, hr⟩
    obtain ⟨rfl, rfl⟩ := pure_eq_ok.1 hr
    exact ⟨kinds, hkinds, rfl⟩
  · rintro ⟨kinds, hkinds, rfl⟩
    exact ⟨kinds, rest, hkinds, rfl⟩

/-- Where the step adds a member, members come next. -/
theorem members_of_bodyStep
    {site : TypeSite} {s : List Member × List TypeDeclaration} {x : Member}
    (h : bodyStep site s ctx ts = .ok (.again (s.1 ++ [x], s.2), rest)) :
    StartsPart (headKind ts) ∧ ∃ attributes words ts₁ ts₂,
      attributeSections ctx ts = .ok (attributes, ts₁) ∧ modifiers ctx ts₁ = .ok (words, ts₂) ∧
        seesType ctx ts₂ = .ok (none, ts₂) := by
  have hmore : s.1 ≠ s.1 ++ [x] := by simp
  have hround : bodyRound (ts.length + 1) site.name site.around s ctx ts =
      .ok (.again (s.1 ++ [x], s.2), rest) := h
  have hstart : StartsPart (headKind ts) := by
    have hround := hround
    rw [bodyRound_eq, peek_bind, List.drop_zero] at hround
    dsimp only at hround
    rw [ite_apply] at hround
    split at hround
    · cases hround
    rename_i hnone
    rw [accept_bind] at hround
    split at hround
    · rw [if_pos rfl] at hround
      cases hround
    rename_i hbrace
    rw [if_neg Bool.false_ne_true, accept_bind] at hround
    split at hround
    · rw [if_pos rfl] at hround
      obtain ⟨heq, -⟩ := pure_eq_ok.1 hround
      exact absurd (congrArg Prod.fst (Round.again.inj heq)) hmore
    rename_i hsemicolon
    exact ⟨Bool.eq_false_iff.2 hnone, hbrace, hsemicolon⟩
  refine ⟨hstart, ?_⟩
  rw [bodyRound_apply hstart] at hround
  obtain ⟨attributes, ts₁, hattributes, hround⟩ := bind_eq_ok.1 hround
  obtain ⟨words, ts₂, hmodifiers, hround⟩ := bind_eq_ok.1 hround
  obtain ⟨kind, _, hsees, hround⟩ := bind_eq_ok.1 hround
  obtain rfl := TakesNothing.same hsees
  cases kind with
  | none => exact ⟨attributes, words, ts₁, _, hattributes, hmodifiers, hsees⟩
  | some kind =>
    obtain ⟨types, _, -, hround⟩ := bind_eq_ok.1 hround
    obtain ⟨heq, -⟩ := pure_eq_ok.1 hround
    exact absurd (congrArg Prod.fst (Round.again.inj heq)) hmore

end Parse
end CSharp
end ContentModels

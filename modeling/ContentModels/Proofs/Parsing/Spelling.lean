import ContentModels.Proofs.Parsing.Attributes

/-!
# Tokens that spell a type

Tokens spell a type if they are read as a type name, wherever they stand and whatever
follows them that does not continue a type name.  A single word does, and so does
everything that is read as one type name up to its end (`spellsType_of_typeName`).  A
qualified name spells a type without its qualifier as well.
-/

namespace ContentModels
namespace CSharp

open Parse

/-- The tokens of these kinds are read as a type name. -/
structure SpellsType (ks : List TokenKind) (name : TypeName) : Prop where
  reads : ∀ version, Reads version typeName ks endsType (· = name)
  balanced : Balanced ks
  ne_nil : ks ≠ []
  /-- A name starts with a word, and a tuple with a parenthesis. -/
  head : ks.head? = some (.punct .openParen) ∨ ∃ w b, ks.head? = some (.ident w b)
  /-- What stands behind the first word does not look like a call. -/
  no_call : ∀ w b js, ks = .ident w b :: js → js.head? ≠ some (.punct .openParen)

namespace Parse

variable {ctx : ParseContext} {ts rest : List Token}

/-- A type name is read again wherever tokens of its kinds stand. -/
theorem repeats_typeName
    {name : TypeName}
    (h : typeName ctx ts = .ok (name, rest)) (he : endsType (headKind rest)) :
    ∃ toks, ts = toks ++ rest ∧ toks ≠ [] ∧ Balanced (kindsOf toks) ∧
      ∀ version, Reads version typeName (kindsOf toks) endsType (Eq name) := by
  obtain ⟨toks, rfl, hne, hbalanced, hreads⟩ :=
    (isStable_readers (ts.length + 1)).1 ctx ts name rest h he
  refine ⟨toks, rfl, hne, hbalanced, ?_⟩
  intro version endLine toks' rest' hk hrest
  have hlength : toks'.length = toks.length := by
    simpa using congrArg List.length hk
  exact hreads _ (by rw [List.length_append]; omega) version endLine toks' rest' hk hrest

theorem dropTypeSuffixes_openParen
    (endLine l : Nat) (us : List Token) :
    dropTypeSuffixes endLine false (⟨.punct .openParen, l⟩ :: us) =
      .ok (⟨.punct .openParen, l⟩ :: us) := by
  rfl

/-- A word behind which a parenthesis opens is a type name of its own. -/
theorem typeName_call
    {w : String} {b : Bool} {l l' : Nat} {us : List Token} {name : TypeName}
    (h : typeName ctx (⟨.ident w b, l⟩ :: ⟨.punct .openParen, l'⟩ :: us) = .ok (name, rest)) :
    rest = ⟨.punct .openParen, l'⟩ :: us := by
  obtain ⟨path, arity, fromGlobal, hname, -⟩ := typeNameAt_succ_eq_ok.1 h
  rw [nameAt_apply, if_neg (by simp), if_neg (by simp)] at hname
  obtain ⟨n, mid, u, hrounds, hsuffixes, -⟩ := namePath_eq_ok hname
  have hmid : mid = ⟨.punct .openParen, l'⟩ :: us := by
    cases n with
    | zero => cases hrounds
    | succ n =>
      rw [rounds_succ, bind_eq_ok] at hrounds
      obtain ⟨r, mid', hround, hr⟩ := hrounds
      rw [nameRound_ident, if_neg (by simp), afterSegment,
        if_neg (endsSegments_spec (by simp [endsSegments, isMark])).1] at hround
      cases hround
      exact (pure_eq_ok.1 hr).2.symm
  rw [typeSuffixes_eq_ok, hmid, dropTypeSuffixes_openParen] at hsuffixes
  exact (Except.ok.inj hsuffixes).symm

theorem headKind_of_typeName
    {name : TypeName}
    (h : typeName ctx ts = .ok (name, rest)) :
    headKind ts = some (.punct .openParen) ∨ ∃ w b, headKind ts = some (.ident w b) := by
  obtain ⟨path, arity, fromGlobal, hname, -⟩ := typeNameAt_succ_eq_ok.1 h
  rw [nameAt_apply] at hname
  split at hname
  · rename_i hparen
    exact .inl hparen
  · right
    split at hname
    · rename_i hglobal
      obtain ⟨k, hk, hkeyword⟩ := Option.bind_eq_some_iff.1 hglobal.1
      rw [hk]
      cases k with
      | ident w b => exact ⟨w, b, rfl⟩
      | str | character | number | punct => cases hkeyword
    · obtain ⟨n, mid, u, hrounds, -⟩ := namePath_eq_ok hname
      cases n with
      | zero => cases hrounds
      | succ n =>
        rw [rounds_succ, bind_eq_ok] at hrounds
        obtain ⟨r, mid', hround, -⟩ := hrounds
        obtain ⟨w, b, l, us, rfl⟩ := nameRound_eq_ok hround
        exact ⟨w, b, rfl⟩

end Parse

/-- Tokens that are read as one type name up to their end spell a type. -/
theorem spellsType_of_typeName
    {ctx : ParseContext} {toks : List Token} {name : TypeName}
    (h : typeName ctx toks = .ok (name, [])) :
    SpellsType (kindsOf toks) name := by
  obtain ⟨toks', htoks, hne, hbalanced, hreads⟩ :=
    repeats_typeName h (by simp [endsType, isMark])
  obtain rfl : toks = toks' := by simpa using htoks
  refine ⟨?_, hbalanced, by simpa using hne, ?_, ?_⟩
  · intro version endLine us rest hk hrest
    obtain ⟨_, hname, rfl⟩ := hreads version endLine us rest hk hrest
    exact ⟨name, hname, rfl⟩
  · have hhead := headKind_of_typeName h
    cases toks with
    | nil => exact absurd rfl hne
    | cons t toks => exact hhead
  · intro w b js hks hjs
    obtain ⟨l, us, rfl, hus⟩ := kindsOf_eq_cons.1 hks
    cases us with
    | nil =>
      subst hus
      cases hjs
    | cons t us =>
      subst hus
      obtain ⟨k, l'⟩ := t
      obtain rfl : k = .punct .openParen := by simpa using hjs
      cases typeName_call h

/-- The kinds of the tokens of a qualifier: words with a dot behind each. -/
def qualifierKinds (segments : List String) : List TokenKind :=
  segments.flatMap fun s => [.ident s false, .punct .dot]

@[simp] theorem qualifierKinds_nil :
    qualifierKinds [] = [] := by
  rfl

@[simp] theorem qualifierKinds_cons
    (s : String) (segments : List String) :
    qualifierKinds (s :: segments) = .ident s false :: .punct .dot :: qualifierKinds segments := by
  rfl

theorem length_qualifierKinds
    (segments : List String) :
    (qualifierKinds segments).length = 2 * segments.length := by
  induction segments with
  | nil => rfl
  | cons s segments ih =>
    rw [qualifierKinds_cons, List.length_cons, List.length_cons, List.length_cons, ih]
    omega

namespace Parse

variable {ctx : ParseContext} {ts rest : List Token}

/-- The rounds in which the segments of a qualifier are read. -/
theorem rounds_qualifier
    {arguments : Parse Nat} {segments : List String} {toks : List Token}
    (h : kindsOf toks = qualifierKinds segments)
    (hrest : ((headKind rest).bind TokenKind.ident?).isSome = true)
    (n : Nat) (before : List String) :
    rounds (nameRound arguments) (n + segments.length) before ctx (toks ++ rest) =
      rounds (nameRound arguments) n (before ++ segments) ctx rest := by
  induction segments generalizing toks before with
  | nil =>
    obtain rfl := kindsOf_eq_nil.1 h
    simp
  | cons s segments ih =>
    rw [qualifierKinds_cons] at h
    obtain ⟨l, us, rfl, hus⟩ := kindsOf_eq_cons.1 h
    obtain ⟨l', vs, rfl, htoks⟩ := kindsOf_eq_cons.1 hus
    have hnext : ((headKind (vs ++ rest)).bind TokenKind.ident?).isSome = true := by
      cases segments with
      | nil =>
        obtain rfl := kindsOf_eq_nil.1 htoks
        exact hrest
      | cons s' segments =>
        rw [qualifierKinds_cons] at htoks
        obtain ⟨l'', ws, rfl, -⟩ := kindsOf_eq_cons.1 htoks
        rfl
    have hround : nameRound arguments before ctx
        (⟨.ident s false, l⟩ :: ⟨.punct .dot, l'⟩ :: (vs ++ rest)) =
          .ok (.again (before ++ [s]), vs ++ rest) := by
      rw [nameRound_ident, if_neg (by simp), afterSegment, if_pos ⟨.inl rfl, hnext⟩]
      rfl
    rw [List.length_cons, ← Nat.add_assoc, rounds_succ, List.cons_append, List.cons_append,
      bind_of_ok hround]
    change rounds (nameRound arguments) (n + segments.length) (before ++ [s]) ctx _ = _
    rw [ih htoks, List.append_assoc, List.singleton_append]

/-- A name that starts with a word and not at the global namespace. -/
theorem nameAt_of_word
    {arguments : Parse Nat}
    (hword : ((headKind ts).bind TokenKind.ident?).isSome = true)
    (hglobal : (headKind ts).bind TokenKind.keyword? = some "global" →
      headKind (ts.drop 1) ≠ some (.punct .doubleColon)) :
    nameAt arguments ctx ts = namePath arguments false ctx ts := by
  rw [nameAt_apply, if_neg, if_neg]
  · rintro ⟨hkeyword, hmark⟩
    exact hglobal hkeyword hmark
  · intro hparen
    rw [hparen] at hword
    cases hword

/-- A name behind a qualifier starts with a word and not at the global namespace. -/
theorem nameAt_qualified
    {arguments : Parse Nat} {segments : List String} {qualifier toks : List Token}
    (hqualifier : kindsOf qualifier = qualifierKinds segments)
    (htoks : ((headKind toks).bind TokenKind.ident?).isSome = true)
    (hglobal : (headKind toks).bind TokenKind.keyword? = some "global" →
      headKind (toks.drop 1) ≠ some (.punct .doubleColon)) :
    nameAt arguments ctx (qualifier ++ toks) =
      namePath arguments false ctx (qualifier ++ toks) := by
  cases segments with
  | nil =>
    obtain rfl := kindsOf_eq_nil.1 hqualifier
    exact nameAt_of_word htoks hglobal
  | cons s segments =>
    rw [qualifierKinds_cons] at hqualifier
    obtain ⟨l, us, rfl, hus⟩ := kindsOf_eq_cons.1 hqualifier
    obtain ⟨l', vs, rfl, -⟩ := kindsOf_eq_cons.1 hus
    exact nameAt_of_word rfl fun _ => by simp

/-- The last segment of a name. -/
theorem nameRound_last
    (arguments : Parse Nat) (path : List String) (w : String) (b : Bool) (l : Nat)
    {us : List Token}
    (h : endsSegments (headKind us)) :
    nameRound arguments path ctx (⟨.ident w b, l⟩ :: us) = .ok (.done (path ++ [w], 0), us) := by
  obtain ⟨hgoes, hless⟩ := endsSegments_spec h
  rw [nameRound_ident, if_neg hless, afterSegment, if_neg hgoes]

/-- A dotted name is read as its segments. -/
theorem typeName_dotted
    {segments : List String} {last : String} {toks : List Token}
    (h : kindsOf toks = qualifierKinds segments ++ [.ident last false]) :
    typeName ctx toks = .ok (⟨render toks, segments ++ [last], 0, false⟩, []) := by
  obtain ⟨us, vs, rfl, hus, hvs⟩ := kindsOf_eq_append.1 h
  obtain ⟨l, ws, rfl, hws⟩ := kindsOf_eq_cons.1 hvs
  obtain rfl := kindsOf_eq_nil.1 hws
  refine typeNameAt_succ_eq_ok.2 ⟨segments ++ [last], 0, false, ?_, by
    rw [List.length_nil, Nat.sub_zero, List.take_length]⟩
  rw [nameAt_qualified hus rfl fun _ => by simp]
  refine bind_eq_ok.2 ⟨(segments ++ [last], 0), [], ?_, rfl⟩
  have hrounds : rounds
      (nameRound (typeArgumentsAt (us ++ [(⟨.ident last false, l⟩ : Token)]).length))
      (1 + segments.length) [] ctx (us ++ [⟨.ident last false, l⟩]) =
        .ok ((segments ++ [last], 0), []) := by
    rw [rounds_qualifier hus rfl, rounds_succ,
      bind_of_ok (nameRound_last _ _ _ _ _ (by simp [endsSegments, isMark]))]
    rfl
  refine rounds_mono hrounds ?_
  have hlength := congrArg List.length hus
  rw [length_kindsOf, length_qualifierKinds] at hlength
  rw [List.length_append, hlength]
  omega

end Parse

/-- Behind a qualifier there is a word if all is read as one type name. -/
theorem isSome_of_qualified
    {ctx : ParseContext} {qualifier toks : List Token} {segments : List String} {name : TypeName}
    (h : typeName ctx (qualifier ++ toks) = .ok (name, []))
    (hqualifier : kindsOf qualifier = qualifierKinds segments) (hne : segments ≠ []) :
    ((headKind toks).bind TokenKind.ident?).isSome = true := by
  obtain ⟨init, last, rfl⟩ : ∃ init last, segments = init ++ [last] :=
    ⟨segments.dropLast, segments.getLast hne, (List.dropLast_concat_getLast hne).symm⟩
  rw [show qualifierKinds (init ++ [last]) =
    qualifierKinds init ++ [.ident last false, .punct .dot] by simp [qualifierKinds]] at hqualifier
  obtain ⟨us, vs, rfl, hus, hvs⟩ := kindsOf_eq_append.1 hqualifier
  obtain ⟨l, ws, rfl, hws⟩ := kindsOf_eq_cons.1 hvs
  obtain ⟨l', nothing, rfl, hnothing⟩ := kindsOf_eq_cons.1 hws
  obtain rfl := kindsOf_eq_nil.1 hnothing
  obtain ⟨path, arity, fromGlobal, hname, -⟩ := typeNameAt_succ_eq_ok.1 h
  rw [List.append_assoc, nameAt_qualified hus rfl fun _ => by simp] at hname
  obtain ⟨n, mid, u, hrounds, hsuffixes, -⟩ := namePath_eq_ok hname
  have hlast := rounds_mono hrounds (Nat.le_add_right n init.length)
  rw [rounds_qualifier hus rfl] at hlast
  cases htoks : ((headKind toks).bind TokenKind.ident?).isSome with
  | true => rfl
  | false =>
    exfalso
    -- Otherwise the name ends at its last dot, which is left over.
    have hmid : mid = ⟨.punct .dot, l'⟩ :: toks := by
      cases n with
      | zero => cases hlast
      | succ n =>
        rw [rounds_succ, bind_eq_ok] at hlast
        obtain ⟨r, mid', hround, hr⟩ := hlast
        simp only [List.cons_append, List.nil_append] at hround
        rw [nameRound_ident, if_neg (by simp), afterSegment, if_neg] at hround
        · cases hround
          exact (pure_eq_ok.1 hr).2.symm
        · rintro ⟨-, hword⟩
          rw [List.drop_succ_cons, List.drop_zero, htoks] at hword
          cases hword
    rw [typeSuffixes_eq_ok, hmid] at hsuffixes
    have hdot : dropTypeSuffixes ctx.endLine false (⟨.punct .dot, l'⟩ :: toks) =
        .ok (⟨.punct .dot, l'⟩ :: toks) := rfl
    rw [hdot] at hsuffixes
    cases hsuffixes

/-- What a qualified name names spells a type without the qualifier. -/
theorem spellsType_of_qualified
    {ctx : ParseContext} {qualifier toks : List Token} {segments : List String} {name : TypeName}
    (h : typeName ctx (qualifier ++ toks) = .ok (name, []))
    (hqualifier : kindsOf qualifier = qualifierKinds segments)
    (htoks : ((headKind toks).bind TokenKind.ident?).isSome = true)
    (hglobal : (headKind toks).bind TokenKind.keyword? ≠ some "global") :
    ∃ simple : TypeName, simple.text = render toks ∧ SpellsType (kindsOf toks) simple := by
  have hnot : (headKind toks).bind TokenKind.keyword? = some "global" →
      headKind (toks.drop 1) ≠ some (.punct .doubleColon) := fun hword => absurd hword hglobal
  obtain ⟨path, arity, fromGlobal, hname, -⟩ := typeNameAt_succ_eq_ok.1 h
  rw [nameAt_qualified hqualifier htoks hnot] at hname
  obtain ⟨n, mid, u, hrounds, hsuffixes, -⟩ := namePath_eq_ok hname
  have hbehind := rounds_mono hrounds (Nat.le_add_right n segments.length)
  rw [rounds_qualifier hqualifier htoks, List.nil_append] at hbehind
  -- The segments behind the qualifier are read alike without it.
  obtain ⟨toks', htoks', -, -, hreads⟩ :=
    repeats_namePath (isStable_readers _).2.1 hbehind hsuffixes
      (by simp [endsType, isMark]) false
  obtain rfl : toks = toks' := by simpa using htoks'
  obtain ⟨⟨path', arity', fromGlobal'⟩, hpath, -, -⟩ :=
    hreads (toks.length + 1) (Nat.le_succ _) ctx.version ctx.endLine toks [] rfl
      (by simp [endsType, isMark])
  rw [List.append_nil] at hpath
  have hread : typeName ctx toks = .ok (⟨render toks, path', arity', fromGlobal'⟩, []) := by
    refine typeNameAt_succ_eq_ok.2 ⟨path', arity', fromGlobal', ?_, by
      rw [List.length_nil, Nat.sub_zero, List.take_length]⟩
    rw [nameAt_of_word htoks hnot]
    exact hpath
  exact ⟨_, rfl, spellsType_of_typeName hread⟩

/-- A word as the name of a type. -/
def wordType (w : String) : TypeName :=
  ⟨w, [w], 0, false⟩

/-- A word spells a type. -/
theorem spellsType_word
    (w : String) :
    SpellsType [.ident w false] (wordType w) := by
  have hread := @typeName_dotted ⟨default, 0⟩ [] w [⟨.ident w false, 0⟩] rfl
  have htext : render [⟨.ident w false, 0⟩] = w := by
    simp [render, renderings, TokenKind.text, TokenKind.isWord, String.join]
  rw [htext] at hread
  exact spellsType_of_typeName hread

end CSharp
end ContentModels

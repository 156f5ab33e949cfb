import ContentModels.Proofs.Parsing.Stability

/-!
# Type names read the same again

A type name is a path of segments with type arguments, or a tuple, and suffixes behind it.  It is
read the same again wherever tokens of the same kinds stand and no further part of a name follows
(`isStable_typeNameAt`): its segments one by one (`repeats_segments`), the suffixes, which end where
no suffix follows (`dropTypeSuffixes_stable`), and its text, which does not depend on lines
(`render_eq`).
-/

namespace ContentModels
namespace CSharp

/-- The kinds of the next token at which a type name does not go on. -/
def endsType (k : Option TokenKind) : Prop :=
  ¬ isMark [.dot, .doubleColon, .less, .question, .star, .openBracket] k

theorem dropTypeSuffixes_of_endsType
    {rest : List Token}
    (h : endsType (headKind rest)) (endLine : Nat) :
    dropTypeSuffixes endLine false rest = .ok rest := by
  cases rest with
  | nil => rfl
  | cons t rest =>
    unfold dropTypeSuffixes
    split <;> rename_i hk <;> simp [endsType, isMark, hk] at h ⊢

/-- What the suffixes of a type consist of, and that they are read again. -/
theorem dropTypeSuffixes_stable
    {endLine : Nat} {inRank : Bool} {ts rest : List Token}
    (h : dropTypeSuffixes endLine inRank ts = .ok rest) (he : endsType (headKind rest)) :
    ∃ toks, ts = toks ++ rest ∧ (inRank = true → toks ≠ []) ∧
      (inRank = false → ∀ k, headKind toks = some k →
        isMark [.question, .star, .openBracket] (some k)) ∧
      nestKinds (if inRank then [.closeBracket] else []) (kindsOf toks) = some [] ∧
      ∀ endLine' toks' rest', kindsOf toks' = kindsOf toks → endsType (headKind rest') →
        dropTypeSuffixes endLine' inRank (toks' ++ rest') = .ok rest' := by
  induction ts generalizing inRank with
  | nil =>
    cases inRank with
    | true => cases h
    | false =>
      cases h
      refine ⟨[], rfl, by simp, by simp, rfl, ?_⟩
      intro endLine' toks' rest' hk hrest
      obtain rfl := kindsOf_eq_nil.1 hk
      exact dropTypeSuffixes_of_endsType hrest endLine'
  | cons t ts ih =>
    obtain ⟨kind, l⟩ := t
    -- Suffixes behind one more token, where the reader goes over that token alike everywhere.
    have step : ∀ next, dropTypeSuffixes endLine next ts = .ok rest →
        nestKind (if inRank then [.closeBracket] else []) kind =
          some (if next then [.closeBracket] else []) →
        (∀ endLine' line us, headKind us = headKind ts ∨ next = false ∨ inRank = true →
          dropTypeSuffixes endLine' inRank (⟨kind, line⟩ :: us) =
            dropTypeSuffixes endLine' next us) →
        (inRank = false → isMark [.question, .star, .openBracket] (some kind)) →
        ∃ toks, ⟨kind, l⟩ :: ts = toks ++ rest ∧ (inRank = true → toks ≠ []) ∧
          (inRank = false → ∀ k, headKind toks = some k →
            isMark [.question, .star, .openBracket] (some k)) ∧
          nestKinds (if inRank then [.closeBracket] else []) (kindsOf toks) = some [] ∧
          ∀ endLine' toks' rest', kindsOf toks' = kindsOf toks → endsType (headKind rest') →
            dropTypeSuffixes endLine' inRank (toks' ++ rest') = .ok rest' := by
      intro next hnext hnest hover hhead
      obtain ⟨toks, rfl, hne, -, hks, hstable⟩ := ih hnext
      refine ⟨⟨kind, l⟩ :: toks, rfl, by simp, ?_, by simp [nestKinds, hnest, hks], ?_⟩
      · rintro hrank k ⟨⟩
        exact hhead hrank
      intro endLine' toks' rest' hk hrest
      rw [kindsOf_cons] at hk
      obtain ⟨line, toks', rfl, hks'⟩ := kindsOf_eq_cons.1 hk
      rw [List.cons_append, hover endLine' line]
      · exact hstable endLine' toks' rest' hks' hrest
      · cases next with
        | false => exact .inr (.inl rfl)
        | true =>
          left
          cases toks with
          | nil => exact absurd rfl (hne rfl)
          | cons u toks =>
            rw [kindsOf_cons] at hks'
            obtain ⟨line', toks', rfl, -⟩ := kindsOf_eq_cons.1 hks'
            rfl
    cases inRank with
    | true =>
      rw [dropTypeSuffixes] at h
      simp only at h
      split at h
      · exact step true h rfl (fun _ _ _ _ => rfl) (by simp)
      · exact step false h rfl (fun _ _ _ _ => rfl) (by simp [isMark])
      · cases h
    | false =>
      rw [dropTypeSuffixes] at h
      simp only at h
      split at h
      · exact step false h rfl (fun _ _ _ _ => rfl) (by simp [isMark])
      · exact step false h rfl (fun _ _ _ _ => rfl) (by simp [isMark])
      · split at h
        · rename_i hahead
          refine step true h rfl (fun endLine' line us hus => ?_) (by simp [isMark])
          have hus := hus.resolve_right (by simp)
          rw [dropTypeSuffixes]
          simp only
          rw [if_pos]
          cases ts with
          | nil => cases hahead
          | cons t ts =>
            obtain ⟨line', us, rfl⟩ := headKind_eq_some.1 hus
            exact hahead
        · cases h
          exact absurd (by simp [isMark]) he
      · cases h
        refine ⟨[], rfl, by simp, by simp, rfl, ?_⟩
        intro endLine' toks' rest' hk hrest
        obtain rfl := kindsOf_eq_nil.1 hk
        exact dropTypeSuffixes_of_endsType hrest endLine'

namespace Parse

variable {ctx : ParseContext} {ts rest : List Token}

/-- One segment of a name, with the type arguments behind it. -/
def nameRound (arguments : Parse Nat) (path : List String) :
    Parse (Round (List String) (List String × Nat)) := do
  let path := path ++ [← ident]
  let arity ← if ← sees .less then arguments else pure 0
  if ((← sees .dot) || (← sees .doubleColon)) && (← seesIdent 1) then
    advance
    return .again path
  return .done (path, arity)

/-- A name, which may be a tuple, with the suffixes behind it. -/
def nameAt (arguments : Parse Nat) : Parse (List String × Nat × Bool) := do
  if ← sees .openParen then
    skipGroup
    typeSuffixes
    return (["ValueTuple"], 0, false)
  let fromGlobal ← globalMark
  let (path, arity) ← loop [] (nameRound arguments)
  typeSuffixes
  return (path, arity, fromGlobal)

theorem typeNameAt_succ
    (depth : Nat) :
    typeNameAt (depth + 1) = do
      let ((path, arity, fromGlobal), read) ← withTokens (nameAt (typeArgumentsAt depth))
      return ⟨render read, path, arity, fromGlobal⟩ := by
  rw [typeNameAt]
  rfl

/-- One step in reading type arguments. -/
def argumentRound (depth arity : Nat) : Parse (Round Nat Nat) := do
  if ← accept .comma then return .again (arity + 1)
  if ← accept .greater then return .done arity
  if (← seesKeyword "in") || (← seesKeyword "out") then advance
  if ← sees .openBracket then
    let _ ← attributeSectionAt depth
  let _ ← typeNameAt depth
  if (← sees .comma) || (← sees .greater) then return .again arity
  fail (.expected .greater)

theorem typeArgumentsAt_succ
    (depth : Nat) :
    typeArgumentsAt (depth + 1) = (expect .less >>= fun _ => loop 1 (argumentRound depth)) := by
  rw [typeArgumentsAt]
  rfl

/-- Whether a name goes on with a further segment. -/
def goesOn (ts : List Token) : Prop :=
  (headKind ts = some (.punct .dot) ∨ headKind ts = some (.punct .doubleColon)) ∧
    ((headKind (ts.drop 1)).bind TokenKind.ident?).isSome = true

instance (ts : List Token) : Decidable (goesOn ts) :=
  inferInstanceAs (Decidable (_ ∧ _))

/-- What a segment asks for, by what stands behind it. -/
def afterSegment (path : List String) (arity : Nat) (mid : List Token) :
    Except Diagnostic (Round (List String) (List String × Nat) × List Token) :=
  if goesOn mid then .ok (.again path, mid.drop 1) else .ok (.done (path, arity), mid)

theorem nameRound_ident
    (arguments : Parse Nat) (path : List String) (w : String) (b : Bool) (l : Nat)
    (us : List Token) :
    nameRound arguments path ctx (⟨.ident w b, l⟩ :: us) =
      if headKind us = some (.punct .less) then
        match arguments ctx us with
        | .error d => .error d
        | .ok (arity, mid) => afterSegment (path ++ [w]) arity mid
      else afterSegment (path ++ [w]) 0 us := by
  have hnext : ∀ arity mid,
      (do if ((← sees .dot) || (← sees .doubleColon)) && (← seesIdent 1) then
            advance
            return .again (path ++ [w])
          return .done (path ++ [w], arity) :
        Parse (Round (List String) (List String × Nat))) ctx mid =
        afterSegment (path ++ [w]) arity mid := by
    intro arity mid
    simp [afterSegment, goesOn, -bind_pure_comp]
  simp only [nameRound, ident_bind, headKind_cons, Option.bind_some, TokenKind.ident?,
    List.drop_succ_cons, List.drop_zero, sees_bind, beq_iff_eq]
  split
  · rw [bind_apply]
    cases arguments ctx us with
    | error d => rfl
    | ok r => exact hnext r.1 r.2
  · exact hnext 0 us

theorem nameRound_eq_ok
    {arguments : Parse Nat} {path : List String} {r : Round (List String) (List String × Nat)}
    (h : nameRound arguments path ctx ts = .ok (r, rest)) :
    ∃ w b l us, ts = ⟨.ident w b, l⟩ :: us := by
  cases ts with
  | nil => simp [nameRound] at h
  | cons t us =>
    obtain ⟨kind, l⟩ := t
    cases kind with
    | ident w b => exact ⟨w, b, l, us, rfl⟩
    | str | character | number | punct => simp [nameRound, TokenKind.ident?] at h

theorem goesOn_iff :
    goesOn ts ↔ ∃ p l w b l' us, (p = .dot ∨ p = .doubleColon) ∧
      ts = ⟨.punct p, l⟩ :: ⟨.ident w b, l'⟩ :: us := by
  constructor
  · rintro ⟨hp, hw⟩
    obtain ⟨p, hmark, hhead⟩ : ∃ p, (p = .dot ∨ p = .doubleColon) ∧
        headKind ts = some (.punct p) := by
      rcases hp with hp | hp
      · exact ⟨.dot, .inl rfl, hp⟩
      · exact ⟨.doubleColon, .inr rfl, hp⟩
    obtain ⟨l, us, rfl⟩ := headKind_eq_some.1 hhead
    cases us with
    | nil => cases hw
    | cons t us =>
      obtain ⟨kind, l'⟩ := t
      cases kind with
      | ident w b => exact ⟨p, l, w, b, l', us, hmark, rfl⟩
      | str | character | number | punct => cases hw
  · rintro ⟨p, l, w, b, l', us, rfl | rfl, rfl⟩ <;> simp [goesOn, TokenKind.ident?]

/-- The kinds of the next token at which the segments of a name do not go on. -/
def endsSegments (k : Option TokenKind) : Prop :=
  ¬ isMark [.dot, .doubleColon, .less] k

theorem endsSegments_of_endsType
    {k : Option TokenKind}
    (h : endsType k) :
    endsSegments k := by
  unfold endsType endsSegments isMark at *
  split at h <;> simp_all

theorem endsSegments_spec
    (h : endsSegments (headKind ts)) :
    ¬ goesOn ts ∧ headKind ts ≠ some (.punct .less) := by
  constructor
  · rintro ⟨hp | hp, -⟩ <;> simp [endsSegments, isMark, hp] at h
  · intro hp
    simp [endsSegments, isMark, hp] at h

/-- The segments read behind some others are the same behind other ones. -/
def SamePath (before before' path path' : List String) : Prop :=
  ∃ segments, path = before ++ segments ∧ path' = before' ++ segments

/-- A segment can be repeated, behind whatever other segments. -/
theorem repeats_nameRound
    {depth : Nat} (harguments : IsStable typeArgumentsAt anything Eq depth)
    {before before' path path' : List String} {r : Round (List String) (List String × Nat)}
    (h : nameRound (typeArgumentsAt depth) path ctx ts = .ok (r, rest))
    (hpath : SamePath before before' path path') :
    Repeats (closesRound [] r) ts rest (fun d => nameRound (typeArgumentsAt (d - 1)) path')
      (followsRound endsSegments (headKind rest) r)
      (SameRound (SamePath before before')
        (fun a b => SamePath before before' a.1 b.1 ∧ a.2 = b.2) r) := by
  have hcloses : closesRound [] r = [] := by cases r <;> rfl
  rw [hcloses]
  obtain ⟨w, b, l, us, rfl⟩ := nameRound_eq_ok h
  obtain ⟨segments, rfl, rfl⟩ := hpath
  have hsame : SamePath before before' (before ++ segments ++ [w]) (before' ++ segments ++ [w]) :=
    ⟨segments ++ [w], by simp, by simp⟩
  -- What stands behind the segment and its arguments.
  have hnext : ∀ {arity mid}, afterSegment (before ++ segments ++ [w]) arity mid = .ok (r, rest) →
      ∃ toks, mid = toks ++ rest ∧ Balanced (kindsOf toks) ∧
        ∀ toks' rest', kindsOf toks' = kindsOf toks →
          followsRound endsSegments (headKind rest) r (headKind rest') →
          headKind (toks' ++ rest') ≠ some (.punct .less) ∧
          ∃ r', afterSegment (before' ++ segments ++ [w]) arity (toks' ++ rest') =
              .ok (r', rest') ∧
            SameRound (SamePath before before')
              (fun a b => SamePath before before' a.1 b.1 ∧ a.2 = b.2) r r' := by
    intro arity mid hafter
    unfold afterSegment at hafter
    split at hafter
    · rename_i hgoes
      cases hafter
      obtain ⟨p, l₁, w₁, b₁, l₂, us₁, hp, rfl⟩ := goesOn_iff.1 hgoes
      refine ⟨[⟨.punct p, l₁⟩], rfl, by rcases hp with rfl | rfl <;> rfl, ?_⟩
      intro toks' rest' hk hrest
      simp only [kindsOf_cons] at hk
      obtain ⟨l', toks', rfl, hk'⟩ := kindsOf_eq_cons.1 hk
      obtain rfl := kindsOf_eq_nil.1 hk'
      have hgoes' : goesOn (⟨.punct p, l'⟩ :: rest') := by
        refine ⟨by rcases hp with rfl | rfl <;> simp, ?_⟩
        rw [List.drop_succ_cons, List.drop_zero, show headKind rest' = some (.ident w₁ b₁) from hrest]
        rfl
      refine ⟨by rcases hp with rfl | rfl <;> simp, .again (before' ++ segments ++ [w]), ?_,
        .again hsame⟩
      rw [afterSegment, List.singleton_append, if_pos hgoes']
      rfl
    · cases hafter
      refine ⟨[], rfl, .nil, ?_⟩
      intro toks' rest' hk hrest
      obtain rfl := kindsOf_eq_nil.1 hk
      obtain ⟨hgoes, hless⟩ := endsSegments_spec hrest
      refine ⟨hless, .done (before' ++ segments ++ [w], arity), ?_, .done ⟨hsame, rfl⟩⟩
      rw [afterSegment, List.nil_append, if_neg hgoes]
  rw [nameRound_ident] at h
  split at h
  · rename_i hless
    split at h
    · cases h
    · rename_i arity mid harity
      obtain ⟨toks, rfl, hne, hbalanced, hreads⟩ := harguments _ _ _ _ harity trivial
      obtain ⟨more, rfl, hbalanced', hmore⟩ := hnext h
      refine ⟨⟨.ident w b, l⟩ :: toks ++ more, by simp, by simp, ?_, ?_⟩
      · rw [kindsOf_append, kindsOf_cons]
        exact ((Balanced.of_inert (by simp [isInert]) : Balanced [.ident w b]).append
          hbalanced).append hbalanced'
      · intro d hd version endLine toks' rest' hk hrest
        simp only [List.cons_append, kindsOf_cons, kindsOf_append] at hk
        obtain ⟨l', us', rfl, hk'⟩ := kindsOf_eq_cons.1 hk
        obtain ⟨toks', more', rfl, hk₁, hk₂⟩ := kindsOf_eq_append.1 hk'
        obtain ⟨-, r', hr', hround⟩ := hmore more' rest' hk₂ hrest
        simp only [List.cons_append, List.length_cons, List.length_append] at hd
        obtain ⟨_, ha, rfl⟩ := hreads (d - 1) (by omega) version endLine toks'
          (more' ++ rest') hk₁ trivial
        refine ⟨r', ?_, hround⟩
        have hhead := (headKind_append hk₁ hne (more ++ rest) (more' ++ rest')).trans hless
        change nameRound _ _ _ _ = _
        rw [List.cons_append, List.append_assoc, nameRound_ident, if_pos hhead, ha]
        exact hr'
  · obtain ⟨more, rfl, hbalanced', hmore⟩ := hnext h
    refine ⟨⟨.ident w b, l⟩ :: more, rfl, by simp, ?_, ?_⟩
    · exact (Balanced.of_inert (by simp [isInert]) : Balanced [.ident w b]).append hbalanced'
    · intro d hd version endLine toks' rest' hk hrest
      simp only [kindsOf_cons] at hk
      obtain ⟨l', more', rfl, hk'⟩ := kindsOf_eq_cons.1 hk
      obtain ⟨hless, r', hr', hround⟩ := hmore more' rest' hk' hrest
      refine ⟨r', ?_, hround⟩
      change nameRound _ _ _ _ = _
      rw [List.cons_append, nameRound_ident, if_neg hless]
      exact hr'

/-- The segments of a name can be repeated, behind whatever other segments. -/
theorem repeats_segments
    {depth n : Nat} (harguments : IsStable typeArgumentsAt anything Eq depth)
    {before path : List String} {arity : Nat}
    (h : rounds (nameRound (typeArgumentsAt depth)) n before ctx ts = .ok ((path, arity), rest))
    (he : endsSegments (headKind rest)) (before' : List String) :
    Repeats [] ts rest (fun d => loop before' (nameRound (typeArgumentsAt (d - 1)))) endsSegments
      (fun b => SamePath before before' path b.1 ∧ arity = b.2) :=
  @repeats_rounds _ _ ctx ts rest (fun d => nameRound (typeArgumentsAt (d - 1)))
    (SamePath before before') (fun a b => SamePath before before' a.1 b.1 ∧ a.2 = b.2)
    endsSegments [] (depth + 1) n before (path, arity)
    (fun s ctx ts r rest hr _ s' hs => repeats_nameRound harguments hr hs) h he
    before' ⟨[], by simp, by simp⟩

/-- The segments of a name with the suffixes behind them. -/
def namePath (arguments : Parse Nat) (fromGlobal : Bool) :
    Parse (List String × Nat × Bool) := do
  let (path, arity) ← loop [] (nameRound arguments)
  typeSuffixes
  return (path, arity, fromGlobal)

theorem typeSuffixes_eq_ok
    {u : Unit} :
    typeSuffixes ctx ts = .ok (u, rest) ↔ dropTypeSuffixes ctx.endLine false ts = .ok rest := by
  unfold typeSuffixes
  cases dropTypeSuffixes ctx.endLine false ts with
  | error d => simp [Except.map]
  | ok r => simp [Except.map]

theorem skipGroup_eq_ok
    {u : Unit} :
    skipGroup ctx ts = .ok (u, rest) ↔ closeGroups ctx.endLine [] ts = .ok rest := by
  unfold skipGroup
  cases closeGroups ctx.endLine [] ts with
  | error d => simp [Except.map]
  | ok r => simp [Except.map]

theorem typeSuffixes_stable
    {u : Unit}
    (h : typeSuffixes ctx ts = .ok (u, rest)) (he : endsType (headKind rest)) :
    ∃ toks, ts = toks ++ rest ∧ Balanced (kindsOf toks) ∧
      (∀ k, headKind toks = some k → isMark [.question, .star, .openBracket] (some k)) ∧
      ∀ version, Reads version typeSuffixes (kindsOf toks) endsType anyResult := by
  obtain ⟨toks, rfl, -, hhead, hbalanced, hstable⟩ :=
    dropTypeSuffixes_stable (typeSuffixes_eq_ok.1 h) he
  refine ⟨toks, rfl, hbalanced, hhead rfl, ?_⟩
  intro version endLine toks' rest' hk hrest
  exact ⟨(), typeSuffixes_eq_ok.2 (hstable endLine toks' rest' hk hrest), trivial⟩

theorem skipGroup_stable
    {u : Unit}
    (h : skipGroup ctx ts = .ok (u, rest)) :
    ∃ toks, ts = toks ++ rest ∧ toks ≠ [] ∧ Balanced (kindsOf toks) ∧
      ∀ version, Reads version skipGroup (kindsOf toks) anything anyResult := by
  obtain ⟨toks, rfl, hne, hbalanced, hstable⟩ := closeGroups_stable (skipGroup_eq_ok.1 h)
  refine ⟨toks, rfl, hne, hbalanced, ?_⟩
  intro version endLine toks' rest' hk _
  exact ⟨(), skipGroup_eq_ok.2 (hstable endLine toks' rest' hk), trivial⟩

/-- Segments and suffixes can be repeated as a name, behind whatever segments they stand. -/
theorem repeats_namePath
    {depth n : Nat} (harguments : IsStable typeArgumentsAt anything Eq depth)
    {before path : List String} {arity : Nat} {mid : List Token} {u : Unit}
    (h : rounds (nameRound (typeArgumentsAt depth)) n before ctx ts = .ok ((path, arity), mid))
    (hsuffixes : typeSuffixes ctx mid = .ok (u, rest)) (he : endsType (headKind rest))
    (fromGlobal : Bool) :
    Repeats [] ts rest (fun d => namePath (typeArgumentsAt (d - 1)) fromGlobal) endsType
      (fun a => path = before ++ a.1 ∧ a.2 = (arity, fromGlobal)) := by
  obtain ⟨suffixes, rfl, hbalanced', hhead, hreads'⟩ := typeSuffixes_stable hsuffixes he
  have hends : ∀ suffixes' rest', kindsOf suffixes' = kindsOf suffixes →
      endsType (headKind rest') → endsSegments (headKind (suffixes' ++ rest')) := by
    intro suffixes' rest' hk hrest
    cases suffixes with
    | nil =>
      obtain rfl := kindsOf_eq_nil.1 hk
      exact endsSegments_of_endsType hrest
    | cons t suffixes =>
      simp only [kindsOf_cons] at hk
      obtain ⟨l, suffixes', rfl, -⟩ := kindsOf_eq_cons.1 hk
      have ht := hhead t.kind rfl
      intro hmark
      unfold isMark at ht hmark
      simp only [List.cons_append, headKind_cons] at hmark
      split at ht
      · rename_i hp
        rw [Option.some.inj hp] at hmark
        simp only [List.mem_cons, List.not_mem_nil, or_false] at ht hmark
        rcases ht with rfl | rfl | rfl <;> simp at hmark
      · exact ht
  obtain ⟨toks, rfl, hne, hbalanced, hreads⟩ :=
    repeats_segments harguments h (hends suffixes rest rfl he) []
  refine ⟨toks ++ suffixes, by simp, by simp [hne], ?_, ?_⟩
  · rw [kindsOf_append]
    exact Balanced.append hbalanced hbalanced'
  · intro d hd version endLine toks' rest' hk hrest
    rw [List.length_append] at hd
    rw [kindsOf_append, kindsOf_eq_append] at hk
    obtain ⟨toks', suffixes', rfl, hks, hk'⟩ := hk
    obtain ⟨_, hsuffixes', -⟩ := hreads' version endLine suffixes' rest' hk' hrest
    obtain ⟨⟨path', arity'⟩, hloop', hpath, rfl⟩ :=
      hreads d (by omega) version endLine toks' _ hks (hends suffixes' rest' hk' hrest)
    obtain ⟨segments, hsegments, rfl⟩ := hpath
    refine ⟨(path', arity, fromGlobal), ?_, hsegments, rfl⟩
    change namePath _ _ _ _ = _
    unfold namePath
    rw [List.append_assoc, bind_of_ok hloop']
    exact bind_eq_ok.2 ⟨_, _, hsuffixes', rfl⟩

theorem namePath_eq_ok
    {arguments : Parse Nat} {fromGlobal : Bool} {a : List String × Nat × Bool}
    (h : namePath arguments fromGlobal ctx ts = .ok (a, rest)) :
    ∃ n mid u, rounds (nameRound arguments) n [] ctx ts = .ok ((a.1, a.2.1), mid) ∧
      typeSuffixes ctx mid = .ok (u, rest) ∧ a.2.2 = fromGlobal := by
  unfold namePath at h
  obtain ⟨⟨path, arity⟩, mid, hloop, h⟩ := bind_eq_ok.1 h
  obtain ⟨u, mid', hsuffixes, h⟩ := bind_eq_ok.1 h
  obtain ⟨rfl, rfl⟩ := pure_eq_ok.1 h
  exact ⟨ts.length + 1, mid, u, hloop, hsuffixes, rfl⟩

theorem repeats_namePath_eq
    {depth : Nat} (harguments : IsStable typeArgumentsAt anything Eq depth)
    {fromGlobal : Bool} {a : List String × Nat × Bool}
    (h : namePath (typeArgumentsAt depth) fromGlobal ctx ts = .ok (a, rest))
    (he : endsType (headKind rest)) :
    Repeats [] ts rest (fun d => namePath (typeArgumentsAt (d - 1)) fromGlobal) endsType (Eq a) := by
  obtain ⟨n, mid, u, hrounds, hsuffixes, hglobal⟩ := namePath_eq_ok h
  refine (repeats_namePath harguments hrounds hsuffixes he fromGlobal).mono (fun _ hk => hk) ?_
  rintro ⟨path, arity, g⟩ ⟨hpath, hrest⟩
  obtain ⟨path', arity', g'⟩ := a
  simp_all

theorem globalMark_apply :
    globalMark ctx ts =
      if (headKind ts).bind TokenKind.keyword? = some "global" ∧
          headKind (ts.drop 1) = some (.punct .doubleColon) then
        .ok (true, ts.drop 2)
      else .ok (false, ts) := by
  simp only [globalMark, seesKeyword_bind, sees_bind, List.drop_zero, Bool.and_eq_true,
    beq_iff_eq, ite_apply, advance_bind, pure_apply]

theorem nameAt_apply
    (arguments : Parse Nat) :
    nameAt arguments ctx ts =
      if headKind ts = some (.punct .openParen) then
        (skipGroup >>= fun _ => typeSuffixes >>= fun _ =>
          pure (["ValueTuple"], 0, false)) ctx ts
      else if (headKind ts).bind TokenKind.keyword? = some "global" ∧
          headKind (ts.drop 1) = some (.punct .doubleColon) then
        namePath arguments true ctx (ts.drop 2)
      else namePath arguments false ctx ts := by
  unfold nameAt
  simp only [sees_bind, List.drop_zero, beq_iff_eq, ite_apply]
  split
  · rfl
  · rw [bind_apply, globalMark_apply]
    split
    · rename_i hg
      split at hg
      · cases hg
      · cases hg
    · rename_i hg
      split at hg <;> cases hg <;> simp only [*, and_self, if_true, if_false] <;> rfl

theorem repeats_nameAt
    {depth : Nat} (harguments : IsStable typeArgumentsAt anything Eq depth)
    {a : List String × Nat × Bool}
    (h : nameAt (typeArgumentsAt depth) ctx ts = .ok (a, rest))
    (he : endsType (headKind rest)) :
    Repeats [] ts rest (fun d => nameAt (typeArgumentsAt (d - 1))) endsType (Eq a) := by
  rw [nameAt_apply] at h
  split at h
  · rename_i hparen
    obtain ⟨u, mid, hgroup, h⟩ := bind_eq_ok.1 h
    obtain ⟨u', mid', hsuffixes, h⟩ := bind_eq_ok.1 h
    obtain ⟨rfl, rfl⟩ := pure_eq_ok.1 h
    obtain ⟨toks, rfl, hne, hbalanced, hreads⟩ := skipGroup_stable hgroup
    obtain ⟨suffixes, rfl, hbalanced', -, hreads'⟩ := typeSuffixes_stable hsuffixes he
    refine ⟨toks ++ suffixes, by simp, by simp [hne], ?_, ?_⟩
    · rw [kindsOf_append]
      exact Balanced.append hbalanced hbalanced'
    · intro d _ version endLine toks' rest' hk hrest
      rw [kindsOf_append, kindsOf_eq_append] at hk
      obtain ⟨toks', suffixes', rfl, hk, hk'⟩ := hk
      obtain ⟨_, hsuffixes', -⟩ := hreads' version endLine suffixes' rest' hk' hrest
      obtain ⟨_, hgroup', -⟩ := hreads version endLine toks' (suffixes' ++ rest') hk trivial
      have hhead := (headKind_append hk hne (suffixes ++ mid') (suffixes' ++ rest')).trans hparen
      refine ⟨_, ?_, rfl⟩
      change nameAt _ _ _ = _
      rw [List.append_assoc, nameAt_apply, if_pos hhead, bind_of_ok hgroup',
        bind_of_ok hsuffixes']
      rfl
  · rename_i hparen
    split at h
    · rename_i hglobal
      obtain ⟨hword, hmark⟩ := hglobal
      obtain ⟨k, hk, hkeyword⟩ := Option.bind_eq_some_iff.1 hword
      obtain ⟨l, us, rfl⟩ := headKind_eq_some.1 hk
      rw [List.drop_succ_cons, List.drop_zero] at hmark
      obtain ⟨l', us, rfl⟩ := headKind_eq_some.1 hmark
      have hinert : isInert k = true := by
        cases k with
        | ident => rfl
        | str | character | number | punct => cases hkeyword
      have hk' : ¬ some k = some (.punct .openParen) := hparen
      obtain ⟨toks, rfl, hne, hbalanced, hreads⟩ := repeats_namePath_eq harguments h he
      refine ⟨⟨k, l⟩ :: ⟨.punct .doubleColon, l'⟩ :: toks, rfl, by simp, ?_, ?_⟩
      · refine (Balanced.of_inert ?_ : Balanced [k, .punct .doubleColon]).append hbalanced
        intro j hj
        simp only [List.mem_cons, List.not_mem_nil, or_false] at hj
        rcases hj with rfl | rfl
        · exact hinert
        · rfl
      · intro d hd version endLine toks' rest' hks hrest
        simp only [List.length_cons, kindsOf_cons] at hd hks
        obtain ⟨l₁, us', rfl, hus⟩ := kindsOf_eq_cons.1 hks
        obtain ⟨l₂, toks', rfl, hks'⟩ := kindsOf_eq_cons.1 hus
        obtain ⟨_, hpath, rfl⟩ := hreads d (by omega) version endLine toks' rest' hks' hrest
        refine ⟨_, ?_, rfl⟩
        simp only [nameAt_apply, List.cons_append, headKind_cons, if_neg hk', Option.bind_some,
          hkeyword, List.drop_succ_cons, List.drop_zero, and_self, if_true]
        exact hpath
    · rename_i hglobal
      obtain ⟨toks, rfl, hne, hbalanced, hreads⟩ := repeats_namePath_eq harguments h he
      refine ⟨toks, rfl, hne, hbalanced, ?_⟩
      intro d hd version endLine toks' rest' hk hrest
      have hhead := headKind_append hk hne rest rest'
      obtain ⟨_, hpath, rfl⟩ := hreads d hd version endLine toks' rest' hk hrest
      refine ⟨_, ?_, rfl⟩
      change nameAt _ _ _ = _
      rw [nameAt_apply, if_neg (hhead ▸ hparen), if_neg]
      · exact hpath
      rintro ⟨hword, hmark⟩
      by_cases hlen : 1 < toks.length
      · exact hglobal ⟨hhead ▸ hword, headKind_drop hk hlen rest rest' ▸ hmark⟩
      · have hlength : toks'.length = toks.length := by
          simpa using congrArg List.length hk
        rw [List.drop_append_of_le_length (by have := List.length_pos_iff.2 hne; omega),
          List.drop_eq_nil_of_le (by omega), List.nil_append] at hmark
        simp [endsType, isMark, hmark] at hrest

theorem withTokens_eq_ok
    {α : Type} {p : Parse α} {a : α} {read : List Token} :
    withTokens p ctx ts = .ok ((a, read), rest) ↔
      p ctx ts = .ok (a, rest) ∧ read = ts.take (ts.length - rest.length) := by
  unfold withTokens
  simp only [tokens_bind, bind_eq_ok, pure_eq_ok, Prod.mk.injEq]
  constructor
  · rintro ⟨b, mid, hp, ⟨rfl, rfl⟩, rfl⟩
    exact ⟨hp, rfl⟩
  · rintro ⟨hp, rfl⟩
    exact ⟨a, rest, hp, ⟨rfl, rfl⟩, rfl⟩

theorem typeNameAt_succ_eq_ok
    {depth : Nat} {name : TypeName} :
    typeNameAt (depth + 1) ctx ts = .ok (name, rest) ↔
      ∃ path arity fromGlobal,
        nameAt (typeArgumentsAt depth) ctx ts = .ok ((path, arity, fromGlobal), rest) ∧
        name = ⟨render (ts.take (ts.length - rest.length)), path, arity, fromGlobal⟩ := by
  rw [typeNameAt_succ, bind_eq_ok]
  constructor
  · rintro ⟨⟨⟨path, arity, fromGlobal⟩, read⟩, mid, hread, h⟩
    obtain ⟨rfl, rfl⟩ := pure_eq_ok.1 h
    obtain ⟨hname, rfl⟩ := withTokens_eq_ok.1 hread
    exact ⟨path, arity, fromGlobal, hname, rfl⟩
  · rintro ⟨path, arity, fromGlobal, hname, rfl⟩
    exact ⟨_, rest, withTokens_eq_ok.2 ⟨hname, rfl⟩, rfl⟩

end Parse

/-- The text of tokens does not depend on their lines. -/
theorem render_eq
    {toks toks' : List Token}
    (h : kindsOf toks' = kindsOf toks) :
    render toks' = render toks := by
  unfold render
  suffices ∀ afterWord, renderings afterWord toks' = renderings afterWord toks by rw [this]
  induction toks generalizing toks' with
  | nil =>
    obtain rfl := kindsOf_eq_nil.1 h
    intro afterWord
    rfl
  | cons t toks ih =>
    rw [kindsOf_cons] at h
    obtain ⟨l, toks', rfl, h'⟩ := kindsOf_eq_cons.1 h
    intro afterWord
    rw [renderings, renderings, ih h']

namespace Parse

variable {ctx : ParseContext} {ts rest : List Token}

/-- A type name is read the same again, if the type arguments in it are. -/
theorem isStable_typeNameAt
    {depth : Nat}
    (harguments : IsStable typeArgumentsAt anything Eq depth) :
    IsStable typeNameAt endsType Eq (depth + 1) := by
  intro ctx ts name rest h he
  obtain ⟨path, arity, fromGlobal, hname, rfl⟩ := typeNameAt_succ_eq_ok.1 h
  obtain ⟨toks, rfl, hne, hbalanced, hreads⟩ := repeats_nameAt harguments hname he
  refine ⟨toks, rfl, hne, hbalanced, ?_⟩
  intro d hd version endLine toks' rest' hk hrest
  obtain ⟨d, rfl⟩ : ∃ k, d = k + 1 := by
    have := List.length_pos_iff.2 hne
    exact ⟨d - 1, by omega⟩
  obtain ⟨_, hname', rfl⟩ := hreads (d + 1) hd version endLine toks' rest' hk hrest
  refine ⟨_, typeNameAt_succ_eq_ok.2 ⟨path, arity, fromGlobal, hname', rfl⟩, ?_⟩
  simp [render_eq hk]

end Parse
end CSharp
end ContentModels

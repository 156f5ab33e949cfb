import ContentModels.Proofs.Parsing.TypeNames

/-!
# Attributes read the same again

Type names, their arguments, attribute sections, the arguments of attributes and the values of
these are read by five readers that call each other under a bound.  Each of them is stable
(`isStable_readers`), type names only where no further part of them follows and values only where
an argument ends.  The induction is on the bound: for each reader one round of its loop is repeated
first (`repeats_argumentRound`, `repeats_sectionRound`, `repeats_argumentsRound`), where the readers
under the smaller bound are stable, and then the whole run.
-/

namespace ContentModels
namespace CSharp
namespace Parse

variable {ctx : ParseContext} {ts rest : List Token}

/-- A type argument, or a type parameter with what stands in front of it. -/
def argumentItem (depth : Nat) : Parse Unit := do
  if (← seesKeyword "in") || (← seesKeyword "out") then advance
  if ← sees .openBracket then
    let _ ← attributeSectionAt depth
  let _ ← typeNameAt depth

/-- Whether a word that says how a type parameter varies comes next. -/
def isVariance (k : Option TokenKind) : Prop :=
  k.bind TokenKind.keyword? = some "in" ∨ k.bind TokenKind.keyword? = some "out"

instance (k : Option TokenKind) : Decidable (isVariance k) :=
  inferInstanceAs (Decidable (_ ∨ _))

/-- A type with attributes in front of it. -/
def attributedType (depth : Nat) : Parse Unit := do
  if ← sees .openBracket then
    let _ ← attributeSectionAt depth
  let _ ← typeNameAt depth

theorem argumentItem_apply
    (depth : Nat) :
    argumentItem depth ctx ts =
      if isVariance (headKind ts) then attributedType depth ctx (ts.drop 1)
      else attributedType depth ctx ts := by
  simp only [argumentItem, seesKeyword_bind, List.drop_zero, Bool.or_eq_true, beq_iff_eq,
    ite_apply, advance_bind]
  rfl

theorem attributedType_apply
    (depth : Nat) :
    attributedType depth ctx ts =
      if headKind ts = some (.punct .openBracket) then
        (attributeSectionAt depth >>= fun _ => typeNameAt depth >>= fun _ => pure ()) ctx ts
      else (typeNameAt depth >>= fun _ => pure ()) ctx ts := by
  simp only [attributedType, sees_bind, List.drop_zero, beq_iff_eq, ite_apply]

theorem argumentRound_apply
    (depth arity : Nat) :
    argumentRound depth arity ctx ts =
      if headKind ts = some (.punct .comma) then .ok (.again (arity + 1), ts.drop 1)
      else if headKind ts = some (.punct .greater) then .ok (.done arity, ts.drop 1)
      else
        match argumentItem depth ctx ts with
        | .error d => .error d
        | .ok (_, mid) =>
          if headKind mid = some (.punct .comma) ∨ headKind mid = some (.punct .greater) then
            .ok (.again arity, mid)
          else .error ⟨(mid.head?.map (·.line)).getD ctx.endLine, .expected .greater⟩ := by
  have hround : argumentRound depth arity ctx ts =
      if headKind ts = some (.punct .comma) then .ok (.again (arity + 1), ts.drop 1)
      else if headKind ts = some (.punct .greater) then .ok (.done arity, ts.drop 1)
      else (argumentItem depth >>= fun _ => do
        if (← sees .comma) || (← sees .greater) then return .again arity
        fail (.expected .greater)) ctx ts := by
    unfold argumentRound
    simp only [accept_bind, if_true, pure_apply, Bool.false_eq_true, if_false]
    split
    · rfl
    · split
      · rfl
      · unfold argumentItem
        simp only [seesKeyword_bind, List.drop_zero, ite_apply, ite_bind_apply, bind_assoc_apply,
          advance_bind, sees_bind, bind_assoc, pure_bind]
  rw [hround, bind_apply]
  split
  · rfl
  · split
    · rfl
    · cases argumentItem depth ctx ts with
      | error d => rfl
      | ok r =>
        simp only [sees_bind, List.drop_zero, Bool.or_eq_true, beq_iff_eq, ite_apply, pure_apply,
          fail_apply]

/-- A type argument can be repeated, whether it stands by itself or behind a word or attributes. -/
theorem repeats_argumentItem
    {depth : Nat}
    (hsection : IsStable attributeSectionAt anything (fun _ _ => True) depth)
    (hname : IsStable typeNameAt endsType Eq depth)
    {u : Unit} (h : argumentItem depth ctx ts = .ok (u, rest)) (he : endsType (headKind rest)) :
    Repeats [] ts rest argumentItem endsType anyResult := by
  have htype : ∀ {ctx ts}, (typeNameAt depth >>= fun _ => pure ()) ctx ts = .ok (u, rest) →
      Repeats [] ts rest (fun d => typeNameAt d >>= fun _ => pure ()) endsType anyResult := by
    intro ctx ts h
    obtain ⟨name, mid, hn, h⟩ := bind_eq_ok.1 h
    obtain ⟨-, rfl⟩ := pure_eq_ok.1 h
    exact (hname _ _ _ _ hn he).map (fun _ _ => trivial)
      fun d ctx' us b vs _ _ hb => bind_eq_ok.2 ⟨b, vs, hb, rfl⟩
  have hattributed : ∀ {ctx ts}, attributedType depth ctx ts = .ok (u, rest) →
      Repeats [] ts rest attributedType endsType anyResult := by
    intro ctx ts h
    rw [attributedType_apply] at h
    split at h
    · rename_i hopen
      obtain ⟨uses, mid, hs, h⟩ := bind_eq_ok.1 h
      refine ((hsection _ _ _ _ hs trivial).seq (fun _ _ => htype h) trivial).congr_head ?_
      intro d ctx' us hus
      rw [attributedType_apply, if_pos (hus.trans hopen)]
    · rename_i hopen
      refine (htype h).congr_head ?_
      intro d ctx' us hus
      rw [attributedType_apply, if_neg (hus ▸ hopen)]
  rw [argumentItem_apply] at h
  split at h
  · rename_i hvariance
    cases ts with
    | nil => rcases hvariance with hv | hv <;> cases hv
    | cons t ts =>
      obtain ⟨k, l⟩ := t
      have hinert : nestKind [] k = some [] := by
        rcases hvariance with hv | hv <;> cases k <;> first | rfl | cases hv
      refine (hattributed h).cons hinert ?_
      intro d ctx' l' us
      rw [argumentItem_apply]
      exact if_pos hvariance
  · rename_i hvariance
    refine (hattributed h).congr_head ?_
    intro d ctx' us hus
    rw [argumentItem_apply, if_neg (hus ▸ hvariance)]

/-- One step through type arguments can be repeated: a comma, an argument or the end. -/
theorem repeats_argumentRound
    {depth : Nat}
    (hsection : IsStable attributeSectionAt anything (fun _ _ => True) depth)
    (hname : IsStable typeNameAt endsType Eq depth)
    {arity : Nat} {r : Round Nat Nat}
    (h : argumentRound depth arity ctx ts = .ok (r, rest)) :
    Repeats (closesRound [] r) ts rest (argumentRound · arity)
      (followsRound anything (headKind rest) r) (SameRound Eq Eq r) := by
  rw [argumentRound_apply] at h
  split at h
  · rename_i hcomma
    obtain ⟨l, us, rfl⟩ := headKind_eq_some.1 hcomma
    cases h
    exact .single rfl (fun d ctx' l' us _ => by rw [argumentRound_apply]; rfl) (.again rfl)
  · rename_i hcomma
    split at h
    · rename_i hgreater
      obtain ⟨l, us, rfl⟩ := headKind_eq_some.1 hgreater
      cases h
      exact .single rfl (fun d ctx' l' us _ => by rw [argumentRound_apply]; rfl) (.done rfl)
    · rename_i hgreater
      split at h
      · cases h
      · rename_i u mid hitem
        split at h
        · rename_i hmid
          cases h
          have hends : endsType (headKind rest) := by
            rcases hmid with hm | hm <;> simp [hm, endsType, isMark]
          obtain ⟨toks, rfl, hne, hbalanced, hreads⟩ :=
            repeats_argumentItem hsection hname hitem hends
          refine ⟨toks, rfl, hne, hbalanced, ?_⟩
          intro d hd version endLine toks' rest' hk hrest
          have hrest : headKind rest' = headKind rest := hrest
          obtain ⟨_, hitem', -⟩ := hreads d hd version endLine toks' rest' hk (hrest ▸ hends)
          have hhead := headKind_append hk hne rest rest'
          refine ⟨.again arity, ?_, .again rfl⟩
          change argumentRound _ _ _ _ = _
          rw [argumentRound_apply, if_neg (hhead ▸ hcomma), if_neg (hhead ▸ hgreater), hitem']
          simp only
          rw [if_pos (hrest ▸ hmid)]
        · cases h

/-- Type arguments are read the same again, under one more level of nesting. -/
theorem isStable_typeArgumentsAt
    {depth : Nat}
    (hsection : IsStable attributeSectionAt anything (fun _ _ => True) depth)
    (hname : IsStable typeNameAt endsType Eq depth) :
    IsStable typeArgumentsAt anything Eq (depth + 1) := by
  intro ctx ts arity rest h _
  rw [typeArgumentsAt_succ, expect_bind] at h
  split at h
  · rename_i hless
    obtain ⟨l, us, rfl⟩ := headKind_eq_some.1 hless
    have hloop := @repeats_rounds _ _ ctx us rest argumentRound Eq Eq anything [] depth _ 1 arity
      (fun s ctx ts r rest hr _ s' hs => hs ▸ repeats_argumentRound hsection hname hr)
      h trivial 1 rfl
    refine hloop.cons_nested rfl ?_
    intro d ctx' l' us
    rw [typeArgumentsAt_succ, expect_bind]
    rfl
  · cases h

/-- An attribute without its line. -/
def attributeUse (depth : Nat) : Parse (TypeName × List AttributeArgument) := do
  let name ← typeNameAt depth
  let arguments ← if ← sees .openParen then attributeArgumentsAt depth else pure []
  return (name, arguments)

/-- One attribute of a section, with the mark behind it. -/
def sectionRound (depth : Nat) (uses : List AttributeUse) :
    Parse (Round (List AttributeUse) (List AttributeUse)) := do
  let line ← line
  let name ← typeNameAt depth
  let arguments ← if ← sees .openParen then attributeArgumentsAt depth else pure []
  let uses := uses ++ [⟨name, arguments, line⟩]
  if ← accept .comma then
    if ← sees .closeBracket then return .done uses
    return .again uses
  return .done uses

/-- The attributes of a section and its end. -/
def sectionBody (depth : Nat) : Parse (List AttributeUse) := do
  let uses ← loop [] (sectionRound depth)
  expect .closeBracket
  return uses

/-- The attributes of a section behind what they are for. -/
def targetedSection (depth : Nat) : Parse (List AttributeUse) := do
  if (← seesIdent) && (← sees .colon 1) then advance 2
  sectionBody depth

theorem attributeSectionAt_succ
    (depth : Nat) :
    attributeSectionAt (depth + 1) = (expect .openBracket >>= fun _ => targetedSection depth) := by
  rw [attributeSectionAt]
  rfl

theorem targetedSection_apply
    (depth : Nat) :
    targetedSection depth ctx ts =
      if ((headKind ts).bind TokenKind.ident?).isSome = true ∧
          headKind (ts.drop 1) = some (.punct .colon) then
        sectionBody depth ctx (ts.drop 2)
      else sectionBody depth ctx ts := by
  simp only [targetedSection, seesIdent_bind, sees_bind, List.drop_zero, Bool.and_eq_true,
    beq_iff_eq, ite_apply, advance_bind]

theorem sectionRound_apply
    (depth : Nat) (uses : List AttributeUse) :
    sectionRound depth uses ctx ts =
      match attributeUse depth ctx ts with
      | .error d => .error d
      | .ok (a, mid) =>
        let uses := uses ++ [⟨a.1, a.2, (ts.head?.map (·.line)).getD ctx.endLine⟩]
        if headKind mid = some (.punct .comma) then
          if headKind (mid.drop 1) = some (.punct .closeBracket) then
            .ok (.done uses, mid.drop 1)
          else .ok (.again uses, mid.drop 1)
        else .ok (.done uses, mid) := by
  have hround : sectionRound depth uses ctx ts =
      (attributeUse depth >>= fun a => do
        let uses := uses ++ [⟨a.1, a.2, (ts.head?.map (·.line)).getD ctx.endLine⟩]
        if ← accept .comma then
          if ← sees .closeBracket then return .done uses
          return .again uses
        return .done uses) ctx ts := by
    simp only [sectionRound, attributeUse, line_bind, bind_assoc_apply, bind_assoc, pure_bind,
      ite_bind_eq]
  rw [hround, bind_apply]
  cases attributeUse depth ctx ts with
  | error d => rfl
  | ok r =>
    simp only [accept_bind, sees_bind, List.drop_zero, beq_iff_eq, ite_apply, pure_apply,
      if_true, Bool.false_eq_true, if_false]

/-- What may follow an attribute in a section. -/
def endsAttribute (k : Option TokenKind) : Prop :=
  k = some (.punct .comma) ∨ k = some (.punct .closeBracket)

theorem endsAttribute_spec
    {k : Option TokenKind}
    (h : endsAttribute k) :
    endsType k ∧ k ≠ some (.punct .openParen) := by
  rcases h with rfl | rfl <;> simp [endsType, isMark]

theorem attributeUse_apply
    (depth : Nat) :
    attributeUse depth ctx ts =
      match typeNameAt depth ctx ts with
      | .error d => .error d
      | .ok (name, mid) =>
        if headKind mid = some (.punct .openParen) then
          (attributeArgumentsAt depth >>= fun arguments => pure (name, arguments)) ctx mid
        else .ok ((name, []), mid) := by
  unfold attributeUse
  rw [bind_apply]
  cases typeNameAt depth ctx ts with
  | error d => rfl
  | ok r =>
    simp only [sees_bind, List.drop_zero, beq_iff_eq, ite_apply, pure_bind_apply, pure_apply]

/-- An attribute can be repeated; it ends at a comma or where its section does. -/
theorem repeats_attributeUse
    {depth : Nat}
    (hname : IsStable typeNameAt endsType Eq depth)
    (harguments : IsStable attributeArgumentsAt anything (fun _ _ => True) depth)
    {a : TypeName × List AttributeArgument}
    (h : attributeUse depth ctx ts = .ok (a, rest)) (he : endsAttribute (headKind rest)) :
    Repeats [] ts rest attributeUse endsAttribute anyResult := by
  rw [attributeUse_apply] at h
  split at h
  · cases h
  · rename_i name mid hn
    split at h
    · rename_i hparen
      obtain ⟨arguments, mid', ha, h⟩ := bind_eq_ok.1 h
      obtain ⟨rfl, rfl⟩ := pure_eq_ok.1 h
      have hends : endsType (headKind mid) := by
        rw [hparen]
        simp [endsType, isMark]
      have harguments' : Repeats [] mid mid' attributeArgumentsAt endsAttribute (fun _ => True) :=
        (harguments _ _ _ _ ha trivial).mono (fun _ _ => trivial) (fun _ h => h)
      -- The arguments start with the mark that was seen behind the name.
      refine (hname _ _ _ _ hn hends).seq (q := fun d name => do
          let arguments ← if ← sees .openParen then attributeArgumentsAt d else pure []
          return (name, arguments))
        (fun name' _ => by
          refine (harguments'.map (f := fun arguments => (name', arguments))
            (r := fun d => attributeArgumentsAt d >>= fun arguments => pure (name', arguments))
            (fun _ _ => trivial)
            (fun d ctx' us b vs _ _ hb => bind_eq_ok.2 ⟨b, vs, hb, rfl⟩)).congr_head ?_
          intro d ctx' us hus
          simp only [sees_bind, List.drop_zero, beq_iff_eq]
          rw [if_pos (hus.trans hparen)])
        hends
    · rename_i hparen
      cases h
      have hname' := (hname _ _ _ _ hn (endsAttribute_spec he).1).mono
        (fun _ hk => (endsAttribute_spec hk).1) (fun _ hg => hg)
      refine hname'.map (f := fun name => (name, [])) (fun _ _ => trivial) ?_
      intro d ctx' us b vs hvs _ hb
      rw [attributeUse_apply, hb]
      exact if_neg (endsAttribute_spec hvs).2

/-- One attribute of a section can be repeated, behind whatever other attributes. -/
theorem repeats_sectionRound
    {depth : Nat}
    (hname : IsStable typeNameAt endsType Eq depth)
    (harguments : IsStable attributeArgumentsAt anything (fun _ _ => True) depth)
    {uses uses' : List AttributeUse} {r : Round (List AttributeUse) (List AttributeUse)}
    (h : sectionRound depth uses ctx ts = .ok (r, rest))
    (hdone : ∀ b, r = .done b → headKind rest = some (.punct .closeBracket)) :
    Repeats (closesRound [] r) ts rest (sectionRound · uses')
      (followsRound (· = some (.punct .closeBracket)) (headKind rest) r)
      (SameRound (fun _ _ => True) (fun _ _ => True) r) := by
  have hcloses : closesRound [] r = [] := by cases r <;> rfl
  rw [hcloses]
  rw [sectionRound_apply] at h
  split at h
  · cases h
  · rename_i a mid huse
    simp only at h
    split at h
    · rename_i hcomma
      obtain ⟨l, us, rfl⟩ := headKind_eq_some.1 hcomma
      obtain ⟨toks, rfl, hne, hbalanced, hreads⟩ :=
        repeats_attributeUse hname harguments huse (.inl hcomma)
      have hks : nestKinds [] (kindsOf (toks ++ [⟨.punct .comma, l⟩])) = some [] := by
        rw [kindsOf_append]
        exact nestKinds_balanced_append hbalanced rfl
      obtain ⟨hus, more, hr⟩ : us = rest ∧
          ∃ more, r = if headKind us = some (.punct .closeBracket) then .done more
            else .again more := by
        rw [List.drop_succ_cons, List.drop_zero] at h
        split at h
        · rename_i hclose
          cases h
          exact ⟨rfl, _, (if_pos hclose).symm⟩
        · rename_i hclose
          cases h
          exact ⟨rfl, _, (if_neg hclose).symm⟩
      subst hus
      refine ⟨toks ++ [⟨.punct .comma, l⟩], by simp, by simp, hks, ?_⟩
      intro d hd version endLine toks' rest' hk hrest
      rw [List.length_append, List.length_singleton] at hd
      simp only [kindsOf_append, kindsOf_cons, kindsOf_nil] at hk
      obtain ⟨toks', comma, rfl, hks', hcomma'⟩ := kindsOf_eq_append.1 hk
      obtain ⟨l', nothing, rfl, hnothing⟩ := kindsOf_eq_cons.1 hcomma'
      obtain rfl := kindsOf_eq_nil.1 hnothing
      obtain ⟨a', ha', -⟩ := hreads d (by omega) version endLine toks'
        (⟨.punct .comma, l'⟩ :: rest') hks' (.inl rfl)
      have hrest' : headKind rest' = headKind us := by
        rw [hr] at hrest
        split at hrest
        · rename_i hclose
          exact hrest.trans hclose.symm
        · exact hrest
      have happly := @sectionRound_apply ⟨version, endLine⟩
        (toks' ++ [⟨.punct .comma, l'⟩] ++ rest') d uses'
      rw [List.append_assoc, List.singleton_append, ha'] at happly
      simp only [headKind_cons, List.drop_succ_cons, List.drop_zero, if_true, hrest'] at happly
      rw [List.append_assoc, List.singleton_append, hr]
      split at happly
      · rename_i hclose
        rw [if_pos hclose]
        exact ⟨_, happly, .done trivial⟩
      · rename_i hclose
        rw [if_neg hclose]
        exact ⟨_, happly, .again trivial⟩
    · rename_i hcomma
      cases h
      have hclose := hdone _ rfl
      have huse' : Repeats [] ts rest attributeUse (· = some (.punct .closeBracket)) anyResult :=
        (repeats_attributeUse hname harguments huse (.inr hclose)).mono
          (fun _ hk => .inr hk) (fun _ hg => hg)
      obtain ⟨toks, rfl, hne, hbalanced, hreads⟩ := huse'
      refine ⟨toks, rfl, hne, hbalanced, ?_⟩
      intro d hd version endLine toks' rest' hk hrest
      obtain ⟨a', ha', -⟩ := hreads d hd version endLine toks' rest' hk hrest
      have hrest' : headKind rest' = some (.punct .closeBracket) := hrest
      have happly := @sectionRound_apply ⟨version, endLine⟩ (toks' ++ rest') d uses'
      rw [ha'] at happly
      simp only [hrest', Option.some.injEq, TokenKind.punct.injEq, reduceCtorEq, if_false]
        at happly
      exact ⟨_, happly, .done trivial⟩

/-- The attributes of a section can be repeated up to the bracket that closes it. -/
theorem repeats_sectionBody
    {depth : Nat}
    (hname : IsStable typeNameAt endsType Eq depth)
    (harguments : IsStable attributeArgumentsAt anything (fun _ _ => True) depth)
    {uses : List AttributeUse} (h : sectionBody depth ctx ts = .ok (uses, rest)) :
    Repeats [.closeBracket] ts rest sectionBody anything anyResult ∧
      rest.length + 2 ≤ ts.length := by
  unfold sectionBody at h
  obtain ⟨uses, mid, hloop, h⟩ := bind_eq_ok.1 h
  obtain ⟨u, mid', hclose, h⟩ := bind_eq_ok.1 h
  obtain ⟨rfl, rfl⟩ := pure_eq_ok.1 h
  obtain ⟨l, rfl⟩ := expect_eq_ok.1 hclose
  have hloop' := @repeats_rounds _ _ ctx ts _ sectionRound (fun _ _ => True) (fun _ _ => True)
    (· = some (.punct .closeBracket)) [] depth _ [] uses
    (fun s ctx ts r rest hr hdone s' _ => repeats_sectionRound hname harguments hr hdone)
    hloop rfl [] trivial
  have hend : ∀ uses : List AttributeUse,
      Repeats [.closeBracket] (⟨.punct .closeBracket, l⟩ :: mid') mid'
        (fun _ => expect .closeBracket >>= fun _ => pure uses) anything anyResult :=
    fun uses => .single (b := uses) rfl (fun _ _ _ _ _ => by simp) trivial
  refine ⟨hloop'.seq (q := fun _ uses => expect .closeBracket >>= fun _ => pure uses)
    (fun uses _ => hend uses) rfl, ?_⟩
  have := hloop'.length_lt
  rw [List.length_cons] at this
  omega

/-- An attribute section is read the same again, also one that says what it is for. -/
theorem isStable_attributeSectionAt
    {depth : Nat}
    (hname : IsStable typeNameAt endsType Eq depth)
    (harguments : IsStable attributeArgumentsAt anything (fun _ _ => True) depth) :
    IsStable attributeSectionAt anything (fun _ _ => True) (depth + 1) := by
  intro ctx ts uses rest h _
  rw [attributeSectionAt_succ, expect_bind] at h
  split at h
  · rename_i hopen
    obtain ⟨l, us, rfl⟩ := headKind_eq_some.1 hopen
    rw [List.drop_succ_cons, List.drop_zero] at h
    have htargeted : Repeats [.closeBracket] us rest targetedSection anything anyResult := by
      rw [targetedSection_apply] at h
      split at h
      · rename_i htarget
        cases us with
        | nil => cases htarget.1
        | cons t us =>
          obtain ⟨k, l₁⟩ := t
          rw [List.drop_succ_cons, List.drop_zero] at htarget
          obtain ⟨l₂, us, rfl⟩ := headKind_eq_some.1 htarget.2
          have hinert : nestKind [.closeBracket] k = some [.closeBracket] := by
            cases k with
            | ident => rfl
            | str | character | number | punct => cases htarget.1
          have hbody := (repeats_sectionBody hname harguments h).1
          have hcolon : Repeats [.closeBracket] (⟨.punct .colon, l₂⟩ :: us) rest
              (fun d ctx us => sectionBody d ctx (us.drop 1)) anything anyResult :=
            hbody.cons rfl fun _ _ _ _ => rfl
          obtain ⟨toks, hts, hne, hnest, hreads⟩ := hcolon
          refine ⟨⟨k, l₁⟩ :: toks, by rw [hts]; rfl, by simp, ?_, ?_⟩
          · simp [nestKinds, hinert, hnest]
          · intro d hd version endLine toks' rest' hk hrest
            simp only [List.length_cons, kindsOf_cons] at hd hk
            obtain ⟨l', toks', rfl, hk'⟩ := kindsOf_eq_cons.1 hk
            obtain ⟨b, hb, hgood⟩ := hreads d (by omega) version endLine toks' rest' hk' hrest
            refine ⟨b, ?_, hgood⟩
            have hhead := headKind_append hk' hne rest rest'
            rw [List.cons_append, targetedSection_apply, if_pos]
            · exact hb
            · refine ⟨htarget.1, ?_⟩
              rw [List.drop_succ_cons, List.drop_zero, hhead, ← hts]
              rfl
      · rename_i htarget
        obtain ⟨hbody, hlen⟩ := repeats_sectionBody hname harguments h
        refine hbody.congr_two hlen ?_
        intro d ctx' us' hus hus'
        rw [targetedSection_apply, if_neg (by rw [hus, hus']; exact htarget)]
    refine (htargeted.cons_nested rfl ?_).mono (fun _ hk => hk) (fun _ _ => trivial)
    intro d ctx' l' us'
    rw [attributeSectionAt_succ, expect_bind]
    rfl
  · cases h

/-! ## Arguments of attributes -/

/-- What may follow an argument of an attribute. -/
def endsArgument (k : Option TokenKind) : Prop :=
  k = some (.punct .comma) ∨ k = some (.punct .closeParen)

instance (k : Option TokenKind) : Decidable (endsArgument k) :=
  inferInstanceAs (Decidable (_ ∨ _))

theorem argumentEnds_bind
    {β : Type} (n : Nat) (f : Bool → Parse β) :
    (argumentEnds n >>= f) ctx ts =
      f (headKind (ts.drop n) == some (.punct .comma) ||
        headKind (ts.drop n) == some (.punct .closeParen)) ctx ts := by
  simp only [argumentEnds, bind_assoc_apply, sees_bind, pure_bind_apply]

/-- The mark behind an argument. -/
def behindArgument (arguments : List AttributeArgument) :
    Parse (Round (List AttributeArgument) (List AttributeArgument)) := do
  if ← accept .comma then return .again arguments
  expect .closeParen
  return .done arguments

/-- One argument behind its name, with the mark behind it. -/
def namedArgument (depth : Nat) (arguments : List AttributeArgument) (name : Option String) :
    Parse (Round (List AttributeArgument) (List AttributeArgument)) := do
  let value ← attributeValueAt depth
  behindArgument (arguments ++ [⟨name, value⟩])

theorem attributeArgumentsAt_succ
    (depth : Nat) :
    attributeArgumentsAt (depth + 1) = (expect .openParen >>= fun _ => do
      if ← accept .closeParen then return []
      loop [] fun arguments => argumentName >>= namedArgument depth arguments) := by
  rw [attributeArgumentsAt]
  rfl

theorem argumentName_bind
    {β : Type} (f : Option String → Parse β) :
    (argumentName >>= f) ctx ts =
      if ((headKind ts).bind TokenKind.ident?).isSome = true ∧
          (headKind (ts.drop 1) = some (.punct .assign) ∨
            headKind (ts.drop 1) = some (.punct .colon)) then
        f ((headKind ts).bind TokenKind.ident?) ctx (ts.drop 2)
      else f none ctx ts := by
  simp only [argumentName, bind_assoc_apply, seesIdent_bind, sees_bind, List.drop_zero,
    Bool.and_eq_true, Bool.or_eq_true, beq_iff_eq, ite_bind_apply, ident_bind, pure_bind_apply,
    advance_bind]
  split
  · rename_i hname
    obtain ⟨w, hw⟩ := Option.isSome_iff_exists.1 hname.1
    rw [hw]
    simp
  · rfl

/-- An argument behind its name can be repeated, with the mark behind it. -/
theorem repeats_namedArgument
    {depth : Nat}
    (hvalue : IsStable attributeValueAt endsArgument (fun _ _ => True) depth)
    {arguments : List AttributeArgument} {name : Option String}
    {r : Round (List AttributeArgument) (List AttributeArgument)}
    (h : namedArgument depth arguments name ctx ts = .ok (r, rest))
    (arguments' : List AttributeArgument) (name' : Option String) :
    Repeats (closesRound [.closeParen] r) ts rest (namedArgument · arguments' name')
      (followsRound anything (headKind rest) r)
      (SameRound (fun _ _ => True) (fun _ _ => True) r) ∧ rest.length + 2 ≤ ts.length := by
  unfold namedArgument at h
  obtain ⟨value, mid, hv, h⟩ := bind_eq_ok.1 h
  have hnext : ∃ p l, mid = ⟨.punct p, l⟩ :: rest ∧
      (p = .comma ∧ r = .again (arguments ++ [⟨name, value⟩]) ∨
        p = .closeParen ∧ r = .done (arguments ++ [⟨name, value⟩])) := by
    simp only [behindArgument, accept_bind, if_true, Bool.false_eq_true, if_false, pure_apply,
      expect_bind] at h
    split at h
    · rename_i hcomma
      obtain ⟨l, us, rfl⟩ := headKind_eq_some.1 hcomma
      cases h
      exact ⟨.comma, l, rfl, .inl ⟨rfl, rfl⟩⟩
    · split at h
      · rename_i hclose
        obtain ⟨l, us, rfl⟩ := headKind_eq_some.1 hclose
        cases h
        exact ⟨.closeParen, l, rfl, .inr ⟨rfl, rfl⟩⟩
      · cases h
  obtain ⟨p, l, rfl, hp⟩ := hnext
  have hends : endsArgument (headKind (⟨.punct p, l⟩ :: rest)) := by
    rcases hp with ⟨rfl, -⟩ | ⟨rfl, -⟩ <;> simp [endsArgument]
  have hvalue' := hvalue _ _ _ _ hv hends
  constructor
  · refine hvalue'.seq (q := fun _ value => behindArgument (arguments' ++ [⟨name', value⟩]))
      (fun value' _ => ?_) hends
    rcases hp with ⟨rfl, rfl⟩ | ⟨rfl, rfl⟩
    · exact .single (b := .again (arguments' ++ [⟨name', value'⟩])) rfl
        (fun d ctx' l' us _ => by simp [behindArgument, -bind_pure_comp]) (.again trivial)
    · exact .single (b := .done (arguments' ++ [⟨name', value'⟩])) rfl
        (fun d ctx' l' us _ => by simp [behindArgument, -bind_pure_comp]) (.done trivial)
  · have := hvalue'.length_lt
    rw [List.length_cons] at this
    omega

/-- One argument of an attribute can be repeated, with a name or without one. -/
theorem repeats_argumentsRound
    {depth : Nat}
    (hvalue : IsStable attributeValueAt endsArgument (fun _ _ => True) depth)
    {arguments arguments' : List AttributeArgument}
    {r : Round (List AttributeArgument) (List AttributeArgument)}
    (h : (argumentName >>= namedArgument depth arguments) ctx ts = .ok (r, rest)) :
    Repeats (closesRound [.closeParen] r) ts rest
      (fun d => argumentName >>= namedArgument d arguments')
      (followsRound anything (headKind rest) r)
      (SameRound (fun _ _ => True) (fun _ _ => True) r) := by
  rw [argumentName_bind] at h
  split at h
  · rename_i hname
    cases ts with
    | nil => cases hname.1
    | cons t us =>
      obtain ⟨k, l⟩ := t
      rw [List.drop_succ_cons, List.drop_zero] at hname
      obtain ⟨p, hp, hmark⟩ : ∃ p, (p = .assign ∨ p = .colon) ∧ headKind us = some (.punct p) := by
        rcases hname.2 with hm | hm
        · exact ⟨.assign, .inl rfl, hm⟩
        · exact ⟨.colon, .inr rfl, hm⟩
      obtain ⟨l₁, us, rfl⟩ := headKind_eq_some.1 hmark
      have hvalue' := (repeats_namedArgument hvalue h arguments' (TokenKind.ident? k)).1
      have hinert : ∀ opened, nestKind opened k = some opened := by
        intro opened
        cases k with
        | ident => rfl
        | str | character | number | punct => cases hname.1
      have hmarked : Repeats (closesRound [.closeParen] r) (⟨.punct p, l₁⟩ :: us) rest
          (fun d ctx us => namedArgument d arguments' (TokenKind.ident? k) ctx (us.drop 1))
          (followsRound anything (headKind rest) r)
          (SameRound (fun _ _ => True) (fun _ _ => True) r) :=
        hvalue'.cons (by rcases hp with rfl | rfl <;> rfl) fun _ _ _ _ => rfl
      obtain ⟨toks, hts, hne, hnest, hreads⟩ := hmarked
      refine ⟨⟨k, l⟩ :: toks, by rw [hts]; rfl, by simp, ?_, ?_⟩
      · simp [nestKinds, hinert, hnest]
      · intro d hd version endLine toks' rest' hk hrest
        simp only [List.length_cons, kindsOf_cons] at hd hk
        obtain ⟨l', toks', rfl, hk'⟩ := kindsOf_eq_cons.1 hk
        obtain ⟨b, hb, hgood⟩ := hreads d (by omega) version endLine toks' rest' hk' hrest
        refine ⟨b, ?_, hgood⟩
        have hhead := headKind_append hk' hne rest rest'
        change (argumentName >>= namedArgument d arguments') _ _ = _
        rw [List.cons_append, argumentName_bind, if_pos]
        · exact hb
        · refine ⟨hname.1, ?_⟩
          rw [List.drop_succ_cons, List.drop_zero, hhead, ← hts]
          rcases hp with rfl | rfl <;> simp
  · rename_i hname
    obtain ⟨hvalue', hlen⟩ := repeats_namedArgument hvalue h arguments' none
    refine hvalue'.congr_two hlen ?_
    intro d ctx' us hus hus'
    rw [argumentName_bind, if_neg (by rw [hus, hus']; exact hname)]

/-- The arguments of an attribute are read the same again. -/
theorem isStable_attributeArgumentsAt
    {depth : Nat}
    (hvalue : IsStable attributeValueAt endsArgument (fun _ _ => True) depth) :
    IsStable attributeArgumentsAt anything (fun _ _ => True) (depth + 1) := by
  intro ctx ts arguments rest h _
  rw [attributeArgumentsAt_succ, expect_bind] at h
  split at h
  · rename_i hopen
    obtain ⟨l, us, rfl⟩ := headKind_eq_some.1 hopen
    rw [List.drop_succ_cons, List.drop_zero, accept_bind] at h
    have hinner : Repeats [.closeParen] us rest (fun d => (do
        if ← accept .closeParen then return []
        loop [] fun arguments => argumentName >>= namedArgument d arguments))
        anything (fun _ => True) := by
      split at h
      · rename_i hclose
        obtain ⟨l₁, us, rfl⟩ := headKind_eq_some.1 hclose
        cases h
        exact .single (b := []) rfl (fun _ _ _ _ _ => by simp) trivial
      · rename_i hclose
        have hloop := @repeats_rounds _ _ ctx us rest
          (fun d arguments => argumentName >>= namedArgument d arguments)
          (fun _ _ => True) (fun _ _ => True) anything [.closeParen] depth _ [] arguments
          (fun s ctx ts r rest hr _ s' _ => repeats_argumentsRound hvalue hr)
          h trivial [] trivial
        refine hloop.congr_head ?_
        intro d ctx' us' hus
        simp only [accept_bind]
        rw [if_neg (hus ▸ hclose)]
        simp
    refine hinner.cons_nested rfl ?_
    intro d ctx' l' us'
    rw [attributeArgumentsAt_succ, expect_bind]
    rfl
  · cases h

/-! ## Values of arguments -/

/-- The value of an argument that is passed over. -/
def plainValue : Parse AttributeValue := do
  let (_, read) ← withTokens (skipExpression listedExpressionEnds)
  return .expr (render read)

/-- The value of an argument that is an operator on a type, if it is, and else another reader's. -/
def operatorValue
    (word : String) (value : TypeName → AttributeValue) (other : Parse AttributeValue)
    (depth : Nat) :
    Parse AttributeValue := do
  if (← seesKeyword word) && (← sees .openParen 1) then
    advance 2
    let type ← typeNameAt depth
    expect .closeParen
    if ← argumentEnds 0 then return value type
  other

/-- The value of an argument that is no literal. -/
def nonliteralValue (depth : Nat) : Parse AttributeValue :=
  operatorValue "typeof" .typeOf
    (operatorValue "nameof" (fun t => .str t.simpleName) plainValue depth) depth

theorem attributeValueAt_succ
    (depth : Nat) :
    attributeValueAt (depth + 1) = (literalArgument >>= fun literal =>
      match literal with
      | some value => pure (.str value)
      | none => nonliteralValue depth) := by
  rw [attributeValueAt]
  funext ctx ts
  rw [bind_apply, bind_apply]
  cases literalArgument ctx ts with
  | error d => rfl
  | ok r =>
    obtain ⟨literal, mid⟩ := r
    cases literal with
    | some value => rfl
    | none =>
      simp only [nonliteralValue, operatorValue, plainValue]

theorem skipExpression_eq_ok
    {ends : List Punct} {u : Unit} :
    skipExpression ends ctx ts = .ok (u, rest) ↔
      dropToMark ends ctx.endLine [] ts = .ok rest ∧ rest.length ≠ ts.length := by
  have hskip : ∀ mid, skipTo ends ctx ts = .ok ((), mid) ↔
      dropToMark ends ctx.endLine [] ts = .ok mid := by
    intro mid
    unfold skipTo
    cases dropToMark ends ctx.endLine [] ts <;> simp [Except.map]
  unfold skipExpression
  simp only [tokens_bind, bind_eq_ok, ite_apply]
  constructor
  · rintro ⟨_, mid, hmid, h⟩
    split at h
    · cases h
    · rename_i hlen
      cases h
      exact ⟨(hskip _).1 hmid, hlen⟩
  · rintro ⟨hdrop, hlen⟩
    refine ⟨(), rest, (hskip rest).2 hdrop, ?_⟩
    rw [if_neg hlen]
    rfl

/-- A value that is passed over can be repeated. -/
theorem repeats_plainValue
    {value : AttributeValue} (h : plainValue ctx ts = .ok (value, rest))
    (he : endsArgument (headKind rest)) :
    Repeats [] ts rest (fun _ => plainValue) endsArgument anyResult := by
  unfold plainValue at h
  obtain ⟨⟨u, read⟩, mid, hread, h⟩ := bind_eq_ok.1 h
  obtain ⟨-, rfl⟩ := pure_eq_ok.1 h
  obtain ⟨hdrop, hlen⟩ := skipExpression_eq_ok.1 (withTokens_eq_ok.1 hread).1
  obtain ⟨-, toks, rfl, hnest, hstable⟩ := dropToMark_stable hdrop
  have hne : toks ≠ [] := by
    rintro rfl
    exact hlen rfl
  refine ⟨toks, rfl, hne, hnest, ?_⟩
  intro d _ version endLine toks' rest' hk hrest
  have hmark : isMark listedExpressionEnds (headKind rest') := by
    rcases hrest with hr | hr <;>
      simp [hr, isMark, listedExpressionEnds, expressionEnds]
  have hskip : skipExpression listedExpressionEnds ⟨version, endLine⟩ (toks' ++ rest') =
      .ok ((), rest') := by
    refine skipExpression_eq_ok.2 ⟨hstable endLine toks' rest' hk hmark, ?_⟩
    have hpos := List.length_pos_iff.2 hne
    rw [← length_kindsOf toks, ← hk, length_kindsOf] at hpos
    rw [List.length_append]
    omega
  exact ⟨_, bind_eq_ok.2 ⟨_, _, withTokens_eq_ok.2 ⟨hskip, rfl⟩, rfl⟩, trivial⟩

theorem operatorValue_apply
    (word : String) (value : TypeName → AttributeValue) (other : Parse AttributeValue)
    (depth : Nat) :
    operatorValue word value other depth ctx ts =
      if (headKind ts).bind TokenKind.keyword? = some word ∧
          headKind (ts.drop 1) = some (.punct .openParen) then
        (typeNameAt depth >>= fun type => expect .closeParen >>= fun _ => do
          if ← argumentEnds 0 then return value type
          other) ctx (ts.drop 2)
      else other ctx ts := by
  simp only [operatorValue, seesKeyword_bind, sees_bind, List.drop_zero, Bool.and_eq_true,
    beq_iff_eq, ite_apply, advance_bind]

/-- What an operator on a type can be followed by, inside its argument or behind it. -/
def behindOperator (value : AttributeValue) (other : Parse AttributeValue) :
    Parse AttributeValue := do
  if ← argumentEnds 0 then return value
  other

theorem behindOperator_apply
    (value : AttributeValue) (other : Parse AttributeValue) :
    behindOperator value other ctx ts =
      if endsArgument (headKind ts) then .ok (value, ts) else other ctx ts := by
  simp only [behindOperator, argumentEnds_bind, List.drop_zero, Bool.or_eq_true, beq_iff_eq,
    ite_apply, pure_apply]
  rfl

/-- A value that is a word with a type behind it can be repeated, where other values can. -/
theorem repeats_operatorValue
    {depth : Nat} (hname : IsStable typeNameAt endsType Eq depth)
    {word : String} {value : TypeName → AttributeValue} (other : Nat → Parse AttributeValue)
    (hother : ∀ {ctx ts a rest}, other (depth + 1) ctx ts = .ok (a, rest) →
      endsArgument (headKind rest) → Repeats [] ts rest other endsArgument anyResult)
    {a : AttributeValue}
    (h : operatorValue word value (other (depth + 1)) depth ctx ts = .ok (a, rest))
    (he : endsArgument (headKind rest)) :
    Repeats [] ts rest (fun d => operatorValue word value (other d) (d - 1)) endsArgument
      anyResult := by
  rw [operatorValue_apply] at h
  split at h
  · rename_i hword
    cases ts with
    | nil => cases hword.1
    | cons t us =>
      obtain ⟨k, l⟩ := t
      rw [List.drop_succ_cons, List.drop_zero] at hword
      obtain ⟨l₁, us, rfl⟩ := headKind_eq_some.1 hword.2
      have hinert : ∀ opened, nestKind opened k = some opened := by
        intro opened
        cases k with
        | ident => rfl
        | str | character | number | punct => cases hword.1
      obtain ⟨type, mid, htype, h⟩ := bind_eq_ok.1 h
      obtain ⟨u, mid', hclose, hbehind⟩ := bind_eq_ok.1 h
      obtain ⟨l₂, rfl⟩ := expect_eq_ok.1 hclose
      have hends : endsType (headKind (⟨.punct .closeParen, l₂⟩ :: mid')) := by
        simp [endsType, isMark]
      obtain ⟨toks, rfl, hne, hnest, hreads⟩ := hname _ _ _ _ htype hends
      -- What stands behind the operator: nothing, or tokens that are passed over.
      obtain ⟨more, hmore, hnest', hreads'⟩ : ∃ more, mid' = more ++ rest ∧
          Balanced (kindsOf more) ∧ ∀ d, more.length ≤ d → ∀ version type,
          Reads version (behindOperator (value type) (other d)) (kindsOf more) endsArgument
            anyResult := by
        change behindOperator _ _ _ _ = _ at hbehind
        rw [behindOperator_apply] at hbehind
        split at hbehind
        · cases hbehind
          refine ⟨[], rfl, .nil, ?_⟩
          intro d _ version type endLine toks' rest' hk hrest
          obtain rfl := kindsOf_eq_nil.1 hk
          exact ⟨value type, by rw [behindOperator_apply]; exact if_pos hrest, trivial⟩
        · rename_i hnot
          obtain ⟨more, rfl, hne', hnest', hreads'⟩ := hother hbehind he
          refine ⟨more, rfl, hnest', ?_⟩
          intro d hd version type endLine toks' rest' hk hrest
          obtain ⟨b, hb, -⟩ := hreads' d hd version endLine toks' rest' hk hrest
          refine ⟨b, ?_, trivial⟩
          rw [behindOperator_apply, if_neg, hb]
          rwa [headKind_append hk hne' rest rest']
      subst hmore
      refine ⟨⟨k, l⟩ :: ⟨.punct .openParen, l₁⟩ :: toks ++ ⟨.punct .closeParen, l₂⟩ :: more,
        by simp, by simp, ?_, ?_⟩
      · have hgroup : Balanced (.punct .openParen :: kindsOf toks ++ [.punct .closeParen]) :=
          Balanced.group rfl hnest
        have hall := (hgroup.append hnest')
        simp only [kindsOf_append, kindsOf_cons, List.cons_append, nestKinds, hinert,
          Option.bind_some]
        simpa [Balanced, nestKinds] using hall
      · intro d hd version endLine toks' rest' hk hrest
        simp only [List.cons_append, List.length_cons, List.length_append, kindsOf_cons,
          kindsOf_append] at hd hk
        obtain ⟨l', us₁, rfl, hk₁⟩ := kindsOf_eq_cons.1 hk
        obtain ⟨l₁', us₂, rfl, hk₂⟩ := kindsOf_eq_cons.1 hk₁
        obtain ⟨toks', us₃, rfl, hks, hk₃⟩ := kindsOf_eq_append.1 hk₂
        obtain ⟨l₂', more', rfl, hk₄⟩ := kindsOf_eq_cons.1 hk₃
        obtain ⟨type', ht, -⟩ := hreads (d - 1) (by omega) version endLine toks'
          (⟨.punct .closeParen, l₂'⟩ :: (more' ++ rest')) hks (by simp [endsType, isMark])
        obtain ⟨b, hb, -⟩ := hreads' d (by omega) version type' endLine more' rest' hk₄ hrest
        refine ⟨b, ?_, trivial⟩
        change operatorValue _ _ _ _ _ _ = _
        rw [operatorValue_apply, if_pos ⟨hword.1, rfl⟩]
        simp only [List.cons_append, List.append_assoc, List.drop_succ_cons, List.drop_zero]
        rw [bind_of_ok ht, expect_bind]
        exact hb
  · rename_i hword
    obtain ⟨toks, rfl, hne, hnest, hreads⟩ := hother h he
    refine ⟨toks, rfl, hne, hnest, ?_⟩
    intro d hd version endLine toks' rest' hk hrest
    obtain ⟨b, hb, -⟩ := hreads d hd version endLine toks' rest' hk hrest
    refine ⟨b, ?_, trivial⟩
    change operatorValue _ _ _ _ _ _ = _
    rw [operatorValue_apply, if_neg, hb]
    rintro ⟨hw, hp⟩
    rw [headKind_append hk hne rest rest'] at hw
    by_cases hlen : 1 < toks.length
    · exact hword ⟨hw, headKind_drop hk hlen rest rest' ▸ hp⟩
    · have hlength : toks'.length = toks.length := by
        simpa using congrArg List.length hk
      rw [List.drop_append_of_le_length (by have := List.length_pos_iff.2 hne; omega),
        List.drop_eq_nil_of_le (by omega), List.nil_append] at hp
      rcases hrest with hr | hr <;> simp [hr] at hp

/-- A value that is no literal can be repeated. -/
theorem repeats_nonliteralValue
    {depth : Nat} (hname : IsStable typeNameAt endsType Eq depth)
    {a : AttributeValue} (h : nonliteralValue depth ctx ts = .ok (a, rest))
    (he : endsArgument (headKind rest)) :
    Repeats [] ts rest (fun d => nonliteralValue (d - 1)) endsArgument anyResult :=
  repeats_operatorValue hname
    (fun d => operatorValue "nameof" (fun t => .str t.simpleName) plainValue (d - 1))
    (fun h he => repeats_operatorValue hname (fun _ => plainValue)
      (fun h he => repeats_plainValue h he) h he) h he

theorem literalArgument_apply :
    literalArgument ctx ts =
      match headKind ts with
      | some (.str value false _) =>
        if endsArgument (headKind (ts.drop 1)) then .ok (some value, ts.drop 1)
        else .ok (none, ts)
      | _ => .ok (none, ts) := by
  unfold literalArgument
  rw [peek_bind, List.drop_zero]
  generalize headKind ts = k
  cases k with
  | none => rfl
  | some k =>
    cases k with
    | str value interpolated raw =>
      cases interpolated with
      | true => rfl
      | false =>
        simp only [argumentEnds_bind, Bool.or_eq_true, beq_iff_eq, ite_apply, advance_bind,
          pure_apply]
        rfl
    | ident | character | number | punct => rfl

/-- The value of an argument is read the same again: a literal, a type or what is passed over. -/
theorem isStable_attributeValueAt
    {depth : Nat} (hname : IsStable typeNameAt endsType Eq depth) :
    IsStable attributeValueAt endsArgument (fun _ _ => True) (depth + 1) := by
  intro ctx ts a rest h he
  rw [attributeValueAt_succ] at h
  obtain ⟨literal, mid, hliteral, hnext⟩ := bind_eq_ok.1 h
  have hbound : ∀ {toks : List Token} {d : Nat}, toks ≠ [] → toks.length ≤ d → ∃ k, d = k + 1 := by
    intro toks d hne hd
    have := List.length_pos_iff.2 hne
    exact ⟨d - 1, by omega⟩
  rw [literalArgument_apply] at hliteral
  cases literal with
  | some value =>
    obtain ⟨rfl, rfl⟩ := pure_eq_ok.1 hnext
    split at hliteral
    · rename_i v raw hk
      obtain ⟨l, us, rfl⟩ := headKind_eq_some.1 hk
      split at hliteral
      · cases hliteral
        refine ⟨[⟨.str value false raw, l⟩], rfl, by simp, rfl, ?_⟩
        intro d hd version endLine toks' rest' hks hrest
        obtain ⟨d, rfl⟩ := hbound (by simp) hd
        simp only [kindsOf_cons] at hks
        obtain ⟨l', toks', rfl, hks'⟩ := kindsOf_eq_cons.1 hks
        obtain rfl := kindsOf_eq_nil.1 hks'
        refine ⟨.str value, ?_, trivial⟩
        rw [attributeValueAt_succ, bind_apply, literalArgument_apply]
        simp only [List.singleton_append, headKind_cons, List.drop_succ_cons, List.drop_zero,
          if_pos hrest]
        rfl
      · cases hliteral
    · cases hliteral
  | none =>
    obtain rfl : mid = ts := by
      split at hliteral
      · split at hliteral <;> cases hliteral
        rfl
      · cases hliteral
        rfl
    obtain ⟨toks, rfl, hne, hnest, hreads⟩ := repeats_nonliteralValue hname hnext he
    refine ⟨toks, rfl, hne, hnest, ?_⟩
    intro d hd version endLine toks' rest' hk hrest
    obtain ⟨b, hb, -⟩ := hreads d hd version endLine toks' rest' hk hrest
    obtain ⟨d, rfl⟩ := hbound hne hd
    refine ⟨b, ?_, trivial⟩
    have hnone : literalArgument ⟨version, endLine⟩ (toks' ++ rest') =
        .ok (none, toks' ++ rest') := by
      rw [literalArgument_apply, headKind_append hk hne rest rest']
      split
      · rename_i v raw hhead
        rw [if_neg]
        intro hends
        rw [hhead] at hliteral
        simp only at hliteral
        split at hliteral
        · cases hliteral
        · rename_i hnot
          by_cases hlen : 1 < toks.length
          · exact hnot (headKind_drop hk hlen rest rest' ▸ hends)
          · have hpos := List.length_pos_iff.2 hne
            rw [List.drop_append_of_le_length (by omega),
              List.drop_eq_nil_of_le (by omega)] at hnot
            exact hnot he
      · rfl
    rw [attributeValueAt_succ, bind_of_ok hnone]
    exact hb

/-- All five readers are stable, under every bound. -/
theorem isStable_readers
    (depth : Nat) :
    IsStable typeNameAt endsType Eq depth ∧ IsStable typeArgumentsAt anything Eq depth ∧
      IsStable attributeSectionAt anything (fun _ _ => True) depth ∧
      IsStable attributeArgumentsAt anything (fun _ _ => True) depth ∧
      IsStable attributeValueAt endsArgument (fun _ _ => True) depth := by
  induction depth with
  | zero =>
    refine ⟨?_, ?_, ?_, ?_, ?_⟩ <;> intro ctx ts a rest h
    · rw [typeNameAt] at h
      cases h
    · rw [typeArgumentsAt] at h
      cases h
    · rw [attributeSectionAt] at h
      cases h
    · rw [attributeArgumentsAt] at h
      cases h
    · rw [attributeValueAt] at h
      cases h
  | succ depth ih =>
    obtain ⟨hname, htypes, hsection, harguments, hvalue⟩ := ih
    exact ⟨isStable_typeNameAt htypes, isStable_typeArgumentsAt hsection hname,
      isStable_attributeSectionAt hname harguments, isStable_attributeArgumentsAt hvalue,
      isStable_attributeValueAt hname⟩

end Parse
end CSharp
end ContentModels

import ContentModels.Proofs.Parsing.Edits

/-!
# Qualified names of members

In front of the name of a member the interface may stand that it belongs to.  Reading the name
passes over such a qualifier, however many segments it has and whatever type arguments they have,
and answers with what it would answer without it (`memberName_qualified`).
-/

namespace ContentModels
namespace CSharp
namespace Parse

variable {ctx : ParseContext} {ts us rest : List Token}

/--
The tokens of a segment of a name and of the mark behind it: a word, perhaps with type arguments
that are read to their end.
-/
inductive IsSegmentTokens : List Token → Prop where
  | word (w : String) (b : Bool) (l l' : Nat) {p : Punct} (hp : p = .dot ∨ p = .doubleColon) :
    IsSegmentTokens [⟨.ident w b, l⟩, ⟨.punct p, l'⟩]
  | generic (w : String) (b : Bool) (l l' : Nat) {arguments : List Token} {ctx : ParseContext}
    {arity : Nat} (harguments : typeArguments ctx arguments = .ok (arity, []))
    (hnamed : headKind (arguments.drop 1) ≠ some (.punct .greater)) :
    IsSegmentTokens (⟨.ident w b, l⟩ :: (arguments ++ [⟨.punct .dot, l'⟩]))

/-- The tokens of the name of an interface and of the dot behind it. -/
inductive IsQualifier : List Token → Prop where
  | last {ts : List Token} (h : IsSegmentTokens ts) : IsQualifier ts
  | cons {ts us : List Token} (h : IsSegmentTokens ts) (hrest : IsQualifier us) :
    IsQualifier (ts ++ us)

theorem headKind_append_left
    (h : ts ≠ []) (us : List Token) :
    headKind (ts ++ us) = headKind ts := by
  obtain ⟨t, ts, rfl⟩ := List.exists_cons_of_ne_nil h
  rfl

/-- A word comes next. -/
def SeesWord (ts : List Token) : Prop :=
  ∃ w b, headKind ts = some (.ident w b)

theorem SeesWord.ne_nil
    (h : SeesWord ts) :
    ts ≠ [] := by
  rintro rfl
  obtain ⟨w, b, hword⟩ := h
  cases hword

theorem SeesWord.append
    (h : SeesWord ts) (us : List Token) :
    SeesWord (ts ++ us) := by
  obtain ⟨w, b, hword⟩ := h
  obtain ⟨l, vs, rfl⟩ := headKind_eq_some.1 hword
  exact ⟨w, b, rfl⟩

/-- A reader that takes something does not go on with what is left. -/
theorem ne_nil_of_eats
    {α : Type} {p : Parse α} {a : α} [Eats p] (h : p ctx (ts ++ us) = .ok (a, us)) :
    ts ≠ [] := by
  rintro rfl
  exact Nat.lt_irrefl _ (Eats.shorter h)

theorem IsSegmentTokens.seesWord
    (h : IsSegmentTokens ts) (us : List Token) :
    SeesWord (ts ++ us) := by
  cases h with
  | word w b => exact ⟨w, b, rfl⟩
  | generic w b => exact ⟨w, b, rfl⟩

theorem IsQualifier.seesWord
    (h : IsQualifier ts) :
    SeesWord ts := by
  cases h with
  | last h => exact List.append_nil ts ▸ h.seesWord []
  | cons h => exact h.seesWord _

/-- Type arguments are read again wherever they stand, and start with their mark. -/
theorem typeArguments_again
    {arguments : List Token} {arity : Nat} (h : typeArguments ctx arguments = .ok (arity, []))
    (ctx' : ParseContext) (us : List Token) :
    headKind arguments = some (.punct .less) ∧
      typeArguments ctx' (arguments ++ us) = .ok (arity, us) := by
  constructor
  · change typeArgumentsAt (arguments.length + 1) ctx arguments = _ at h
    rw [typeArgumentsAt_succ, expect_bind] at h
    split at h
    · assumption
    · cases h
  · obtain ⟨toks, htoks, hne, -, hreads⟩ :=
      (isStable_readers (arguments.length + 1)).2.1 ctx arguments arity [] h trivial
    obtain rfl : arguments = toks := by simpa using htoks
    obtain ⟨version, endLine⟩ := ctx'
    obtain ⟨_, hread, rfl⟩ := hreads ((arguments ++ us).length + 1)
      (by rw [List.length_append]; omega) version endLine arguments us rfl trivial
    exact hread

/-- Behind the first word of a segment a mark comes next. -/
theorem IsSegmentTokens.behind_word
    (h : IsSegmentTokens ts) (us : List Token) :
    isMark [.dot, .doubleColon, .less] (headKind ((ts ++ us).drop 1)) := by
  cases h with
  | word w b l l' hp => rcases hp with rfl | rfl <;> simp [isMark]
  | generic w b l l' harguments =>
    obtain ⟨hless, -⟩ := typeArguments_again harguments ⟨default, 0⟩ []
    obtain ⟨l₀, as, rfl⟩ := headKind_eq_some.1 hless
    simp [isMark]

theorem IsQualifier.behind_word
    (h : IsQualifier ts) (us : List Token) :
    isMark [.dot, .doubleColon, .less] (headKind ((ts ++ us).drop 1)) := by
  cases h with
  | last h => exact h.behind_word us
  | cons h => rw [List.append_assoc]; exact h.behind_word _

theorem memberName_eq_ok
    {name : String} :
    memberName ctx ts = .ok (name, rest) ↔
      ∃ w b l us, ts = ⟨.ident w b, l⟩ :: us ∧ loop w memberNameRound ctx us = .ok (name, rest) := by
  rw [memberName_eq, bind_eq_ok]
  constructor
  · rintro ⟨w, us, hident, hloop⟩
    obtain ⟨b, l, rfl⟩ := ident_eq_ok.1 hident
    exact ⟨w, b, l, us, rfl, hloop⟩
  · rintro ⟨w, b, l, us, rfl, hloop⟩
    exact ⟨w, us, ident_eq_ok.2 ⟨b, l, rfl⟩, hloop⟩

instance (name : String) : EatsAgain (memberNameRound name) :=
  ⟨fun h => EatsAgain.shorter (genericNameRound_again.2 h)⟩

/-- A round over a mark between segments goes on to the next word. -/
theorem memberNameRound_separator
    {name w : String} {b : Bool} {l l' : Nat} {p : Punct} (hp : p = .dot ∨ p = .doubleColon) :
    memberNameRound name ctx (⟨.punct p, l⟩ :: ⟨.ident w b, l'⟩ :: us) = .ok (.again w, us) := by
  unfold memberNameRound
  rcases hp with rfl | rfl <;> simp [TokenKind.ident?, -bind_pure_comp]

/-- Reading the name of a member passes over a segment with a mark behind it. -/
theorem memberName_segment
    {name : String} (h : IsSegmentTokens ts) (hname : memberName ctx us = .ok (name, rest)) :
    memberName ctx (ts ++ us) = .ok (name, rest) := by
  obtain ⟨v, b', l'', vs, rfl, hloop⟩ := memberName_eq_ok.1 hname
  refine memberName_eq_ok.2 ?_
  cases h with
  | word w b l l' hp =>
    have hround := @memberNameRound_separator ctx vs w v b' l' l'' _ hp
    exact ⟨w, b, l, _, rfl, loop_of_again hround (EatsAgain.shorter hround) hloop⟩
  | generic w b l l' harguments hnamed =>
    rename_i arguments _ arity
    obtain ⟨hless, hagain⟩ := typeArguments_again harguments ctx
      (⟨.punct .dot, l'⟩ :: ⟨.ident v b', l''⟩ :: vs)
    refine ⟨w, b, l, arguments ++ (⟨.punct .dot, l'⟩ :: ⟨.ident v b', l''⟩ :: vs), by simp, ?_⟩
    obtain ⟨l₀, as, rfl⟩ := headKind_eq_some.1 hless
    have hround : memberNameRound w ctx
        (⟨.punct .less, l₀⟩ :: as ++ (⟨.punct .dot, l'⟩ :: ⟨.ident v b', l''⟩ :: vs)) =
        .ok (.again w, ⟨.punct .dot, l'⟩ :: ⟨.ident v b', l''⟩ :: vs) := by
      rw [memberNameRound_of_less rfl, hagain]
      refine if_pos ⟨?_, rfl⟩
      cases as with
      | nil => simp
      | cons t as => exact hnamed
    have hseparator := @memberNameRound_separator ctx vs w v b' l' l'' _ (.inl rfl)
    exact loop_of_again hround (EatsAgain.shorter hround)
      (loop_of_again hseparator (EatsAgain.shorter hseparator) hloop)

/-- Reading the name of a member passes over a qualifier. -/
theorem memberName_qualified
    {name : String} (h : IsQualifier ts) (hname : memberName ctx us = .ok (name, rest)) :
    memberName ctx (ts ++ us) = .ok (name, rest) := by
  induction h with
  | last h => exact memberName_segment h hname
  | cons h _ ih =>
    rw [List.append_assoc]
    exact memberName_segment h ih

/-! ## Methods and properties -/

/-- Whether a member is a method or a property. -/
def isMethodOrProperty : MemberKind → Bool
  | .method _ _ | .property _ => true
  | _ => false

/-- What comes next is no event, operator, destructor or constructor, but may start with a type. -/
structure StartsWithType (className : String) (ts : List Token) : Prop where
  word : ∀ w ∈ memberWords, (headKind ts).bind TokenKind.keyword? ≠ some w
  tilde : headKind ts ≠ some (.punct .tilde)
  call : ¬((headKind ts).bind TokenKind.ident? = some className ∧
    headKind (ts.drop 1) = some (.punct .openParen))
  head : (headKind ts == some (.punct .openParen) ||
    ((headKind ts).bind TokenKind.ident?).isSome) = true

section

variable {className n : String} {kind : MemberKind}

theorem memberKinds_apply
    (h : StartsWithType className ts) :
    memberKinds className ctx ts = (typeName >>= behindType) ctx ts := by
  have hevent := h.word "event" (by decide)
  have himplicit := h.word "implicit" (by decide)
  have hexplicit := h.word "explicit" (by decide)
  have hcall : ((headKind ts).bind TokenKind.ident? == some className &&
      headKind (ts.drop 1) == some (.punct .openParen)) = false :=
    Bool.eq_false_iff.2 fun hcall => h.call (by simpa using hcall)
  unfold memberKinds
  simp only [seesKeyword_bind, accept_bind, peek_bind, sees_bind, List.drop_zero,
    beq_eq_false_iff_ne.2 hevent, beq_eq_false_iff_ne.2 himplicit, beq_eq_false_iff_ne.2 hexplicit,
    h.tilde, Bool.or_self, Bool.false_eq_true, if_false, hcall]
  rw [seesIdent_bind, List.drop_zero, h.head]
  rfl

/-- Methods and properties start with a type. -/
theorem startsWithType_of_memberKinds
    (h : memberKinds className ctx ts = .ok ([(n, kind)], rest))
    (hkind : isMethodOrProperty kind = true) :
    StartsWithType className ts := by
  have hnot : ∀ {p : Parse Unit} {us name other}, isMethodOrProperty other = false →
      (p >>= fun _ => pure [(name, other)] : Parse (List (String × MemberKind))) ctx us ≠
        .ok ([(n, kind)], rest) := by
    intro p us name other hother h
    obtain ⟨_, _, -, h⟩ := bind_eq_ok.1 h
    obtain ⟨heq, -⟩ := pure_eq_ok.1 h
    cases heq
    rw [hother] at hkind
    cases hkind
  unfold memberKinds at h
  simp only [seesKeyword_bind, accept_bind, peek_bind, sees_bind, seesIdent_bind, List.drop_zero,
    ite_apply, beq_iff_eq] at h
  split at h
  · obtain ⟨_, _, -, h⟩ := bind_eq_ok.1 h
    obtain ⟨_, _, -, h⟩ := bind_eq_ok.1 h
    obtain ⟨_, _, -, h⟩ := bind_eq_ok.1 h
    obtain ⟨chosen, _, -, h⟩ := bind_eq_ok.1 h
    cases chosen <;> exact absurd h (hnot rfl)
  rename_i hevent
  split at h
  · obtain ⟨_, _, -, h⟩ := bind_eq_ok.1 h
    exact absurd h (hnot rfl)
  rename_i hconversion
  split at h
  · rw [if_pos trivial] at h
    obtain ⟨_, _, -, h⟩ := bind_eq_ok.1 h
    obtain ⟨_, _, -, h⟩ := bind_eq_ok.1 h
    exact absurd h (hnot rfl)
  rename_i htilde
  rw [if_neg Bool.false_ne_true] at h
  split at h
  · obtain ⟨_, _, -, h⟩ := bind_eq_ok.1 h
    obtain ⟨_, _, -, h⟩ := bind_eq_ok.1 h
    obtain ⟨_, _, -, h⟩ := bind_eq_ok.1 h
    exact absurd h (hnot rfl)
  rename_i hcall
  split at h
  · cases h
  rename_i hhead
  refine ⟨?_, htilde, by simpa using hcall,
    by simpa only [Bool.not_eq_true', Bool.not_eq_false] using hhead⟩
  have hconversion : (headKind ts).bind TokenKind.keyword? ≠ some "implicit" ∧
      (headKind ts).bind TokenKind.keyword? ≠ some "explicit" := by
    simpa using hconversion
  simpa [memberWords] using ⟨hevent, hconversion⟩

/-- Behind the type of a method or a property its name comes next. -/
theorem namedMembers_of_behindType
    {type : TypeName} (h : behindType type ctx ts = .ok ([(n, kind)], rest))
    (hkind : isMethodOrProperty kind = true) :
    namedMembers type ctx ts = .ok ([(n, kind)], rest) := by
  unfold behindType at h
  simp only [seesKeyword_bind, sees_bind, List.drop_zero, ite_apply] at h
  split at h
  · obtain ⟨_, _, -, h⟩ := bind_eq_ok.1 h
    cases h
    cases hkind
  · split at h
    · obtain ⟨_, _, -, h⟩ := bind_eq_ok.1 h
      obtain ⟨_, _, -, h⟩ := bind_eq_ok.1 h
      obtain ⟨_, _, -, h⟩ := bind_eq_ok.1 h
      cases h
      cases hkind
    · exact h

/-- The name of a method or a property is a word. -/
theorem seesWord_of_namedMembers
    {type : TypeName} {kinds : List (String × MemberKind)}
    (h : namedMembers type ctx ts = .ok (kinds, rest)) :
    SeesWord ts := by
  rw [namedMembers_eq] at h
  obtain ⟨name, _, hname, -⟩ := bind_eq_ok.1 h
  obtain ⟨w, b, l, us, rfl, -⟩ := memberName_eq_ok.1 hname
  exact ⟨w, b, rfl⟩

/-- A qualifier is the start neither of an operator nor of an indexer. -/
theorem behindType_qualified
    {type : TypeName} (hq : IsQualifier ts)
    (hword : (headKind ts).bind TokenKind.keyword? ≠ some "operator")
    (h : namedMembers type ctx us = .ok ([(n, kind)], rest)) :
    behindType type ctx (ts ++ us) = .ok ([(n, kind)], rest) := by
  have hnamed : namedMembers type ctx (ts ++ us) = .ok ([(n, kind)], rest) := by
    rw [namedMembers_eq] at h ⊢
    obtain ⟨name, mid, hname, h⟩ := bind_eq_ok.1 h
    exact bind_eq_ok.2 ⟨name, mid, memberName_qualified hq hname, h⟩
  have hhead : headKind (ts ++ us) = headKind ts := headKind_append_left hq.seesWord.ne_nil us
  have hbracket : headKind ((ts ++ us).drop 1) ≠ some (.punct .openBracket) := by
    intro hbracket
    have hmark := hq.behind_word us
    rw [hbracket] at hmark
    simp [isMark] at hmark
  unfold behindType
  simp only [seesKeyword_bind, sees_bind, List.drop_zero, ite_apply, hhead,
    beq_eq_false_iff_ne.2 hword, beq_eq_false_iff_ne.2 hbracket, Bool.and_false,
    Bool.false_eq_true, if_false, hnamed]

/-- Behind the type that the reader finds the name of a method or a property comes next. -/
theorem namedMembers_of_memberKinds
    {type : TypeName} (htype : typeName ctx ts = .ok (type, us))
    (hkinds : memberKinds className ctx ts = .ok ([(n, kind)], rest))
    (hkind : isMethodOrProperty kind = true) :
    namedMembers type ctx us = .ok ([(n, kind)], rest) := by
  rw [memberKinds_apply (startsWithType_of_memberKinds hkinds hkind), bind_of_ok htype] at hkinds
  exact namedMembers_of_behindType hkinds hkind

/-- A type is read in front of another word as in front of a word. -/
theorem typeName_word
    {type : TypeName} {us' : List Token} (h : typeName ctx (ts ++ us) = .ok (type, us))
    (hus : SeesWord us) (hus' : SeesWord us') :
    typeName ctx (ts ++ us') = .ok (type, us') := by
  obtain ⟨w, b, hword⟩ := hus
  obtain ⟨w', b', hword'⟩ := hus'
  obtain ⟨toks, htoks, -, -, hreads⟩ := repeats_typeName h (by simp [hword, endsType, isMark])
  obtain rfl := List.append_cancel_right htoks
  obtain ⟨version, endLine⟩ := ctx
  obtain ⟨_, hread, rfl⟩ := hreads version endLine ts us' rfl (by simp [hword', endsType, isMark])
  exact hread

/-- A method or a property is read with a qualifier in front of its name as without one. -/
theorem memberKinds_qualified
    {type : TypeName} {toks : List Token} (htype : typeName ctx (toks ++ us) = .ok (type, us))
    (hkinds : memberKinds className ctx (toks ++ us) = .ok ([(n, kind)], rest))
    (hkind : isMethodOrProperty kind = true) (hq : IsQualifier ts)
    (hword : (headKind ts).bind TokenKind.keyword? ≠ some "operator") :
    memberKinds className ctx (toks ++ (ts ++ us)) = .ok ([(n, kind)], rest) := by
  have hstarts := startsWithType_of_memberKinds hkinds hkind
  have hnamed := namedMembers_of_memberKinds htype hkinds hkind
  have htype' := typeName_word htype (seesWord_of_namedMembers hnamed) (hq.seesWord.append us)
  obtain ⟨t, toks, rfl⟩ : ∃ t toks', toks = t :: toks' :=
    List.exists_cons_of_ne_nil (ne_nil_of_eats htype)
  obtain ⟨v, c, hts⟩ := hq.seesWord
  obtain ⟨l, vs, rfl⟩ := headKind_eq_some.1 hts
  have hstarts' : StartsWithType className (t :: toks ++ (⟨.ident v c, l⟩ :: vs ++ us)) := by
    refine ⟨hstarts.word, hstarts.tilde, ?_, hstarts.head⟩
    rintro ⟨hclass, hparen⟩
    cases toks with
    | nil => cases hparen
    | cons u toks => exact hstarts.call ⟨hclass, hparen⟩
  rw [memberKinds_apply hstarts', bind_of_ok htype']
  exact behindType_qualified hq hword hnamed

end

end Parse
end CSharp
end ContentModels

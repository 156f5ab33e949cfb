import ContentModels.Proofs.Parsing.Steps

/-!
# Groups of tokens

Tokens are balanced if every bracket among them is closed by its own counterpart among
them.  Readers that pass over tokens go over balanced ones without a trace: a group ends
where its opening mark is closed (`reads_skipGroup`), and an expression ends at the first
mark that ends it outside all groups (`dropToMark_balanced`).  The other way round, what
such a reader has passed over is balanced, and it stops at the same place whatever the
lines of the tokens and whatever comes after them.
-/

namespace ContentModels
namespace CSharp

/-- The closing marks of the open groups after one more token. -/
def nestKind (stack : List Punct) : TokenKind → Option (List Punct)
  | .punct p =>
    match p.closer? with
    | some closer => some (closer :: stack)
    | none =>
      if p.isCloser then
        match stack with
        | [] => none
        | closer :: outer => if closer = p then some outer else none
      else some stack
  | _ => some stack

/-- The closing marks of the open groups after some more tokens. -/
def nestKinds (stack : List Punct) : List TokenKind → Option (List Punct)
  | [] => some stack
  | k :: ks => (nestKind stack k).bind fun stack => nestKinds stack ks

/-- Every group that the tokens open is closed among them, and no other. -/
def Balanced (ks : List TokenKind) : Prop :=
  nestKinds [] ks = some []

/-- Tokens that neither open nor close a group. -/
def isInert : TokenKind → Bool
  | .punct p => p.closer?.isNone && !p.isCloser
  | _ => true

theorem Punct.closer?_eq_none_of_isCloser
    {q : Punct} (h : q.isCloser = true) :
    q.closer? = none := by
  cases q <;> first | rfl | cases h

theorem Punct.isCloser_of_closer?
    {p closer : Punct} (hp : p.closer? = some closer) :
    closer.isCloser = true := by
  cases p <;> cases hp <;> rfl

theorem nestKind_of_isInert
    {k : TokenKind} (h : isInert k = true) (stack : List Punct) :
    nestKind stack k = some stack := by
  cases k with
  | punct p =>
    simp only [isInert, Bool.and_eq_true, Option.isNone_iff_eq_none, Bool.not_eq_true'] at h
    simp [nestKind, h]
  | ident | str | character | number => rfl

theorem nestKind_opening
    {p closer : Punct} (hp : p.closer? = some closer) (stack : List Punct) :
    nestKind stack (.punct p) = some (closer :: stack) := by
  simp [nestKind, hp]

/-- A closing mark closes the innermost open group, if it is the one that does. -/
theorem nestKind_closing
    {q : Punct} {stack outer : List Punct} (hq : q.isCloser = true) :
    nestKind stack (.punct q) = some outer ↔ stack = q :: outer := by
  simp only [nestKind, Punct.closer?_eq_none_of_isCloser hq, hq, if_true]
  cases stack with
  | nil => simp
  | cons closer rest => simp

theorem nestKind_counterpart
    {p closer : Punct} (hp : p.closer? = some closer) (stack : List Punct) :
    nestKind (closer :: stack) (.punct closer) = some stack :=
  (nestKind_closing (Punct.isCloser_of_closer? hp)).2 rfl

theorem nestKinds_append
    (stack : List Punct) (ks js : List TokenKind) :
    nestKinds stack (ks ++ js) = (nestKinds stack ks).bind fun stack => nestKinds stack js := by
  induction ks generalizing stack with
  | nil => rfl
  | cons k ks ih =>
    rw [List.cons_append, nestKinds, nestKinds]
    cases nestKind stack k with
    | none => rfl
    | some s => exact ih s

/-- Groups that are open further out make no difference. -/
theorem nestKind_append
    {stack inner : List Punct} {k : TokenKind}
    (h : nestKind stack k = some inner) (outer : List Punct) :
    nestKind (stack ++ outer) k = some (inner ++ outer) := by
  cases k with
  | punct p =>
    simp only [nestKind] at h ⊢
    cases hc : p.closer? with
    | some closer =>
      rw [hc] at h
      cases h
      rfl
    | none =>
      rw [hc] at h
      cases hp : p.isCloser with
      | false =>
        rw [hp] at h
        cases h
        rfl
      | true =>
        rw [hp] at h
        cases stack with
        | nil => cases h
        | cons closer stack =>
          simp only [if_true, List.cons_append] at h ⊢
          split at h
          · cases h
            simp [*]
          · cases h
  | ident | str | character | number =>
    cases h
    rfl

theorem nestKinds_extend
    {stack inner : List Punct} {ks : List TokenKind}
    (h : nestKinds stack ks = some inner) (outer : List Punct) :
    nestKinds (stack ++ outer) ks = some (inner ++ outer) := by
  induction ks generalizing stack with
  | nil =>
    cases h
    rfl
  | cons k ks ih =>
    rw [nestKinds] at h ⊢
    obtain ⟨s, hs, h⟩ := Option.bind_eq_some_iff.1 h
    rw [nestKind_append hs]
    exact ih h

namespace Balanced

variable {ks js : List TokenKind}

@[simp] theorem nil : Balanced [] := by
  rfl

theorem append
    (h : Balanced ks) (h' : Balanced js) :
    Balanced (ks ++ js) := by
  unfold Balanced at *
  rw [nestKinds_append, h]
  exact h'

theorem of_inert
    (h : ∀ k ∈ ks, isInert k = true) :
    Balanced ks := by
  induction ks with
  | nil => rfl
  | cons k ks ih =>
    unfold Balanced
    rw [nestKinds, nestKind_of_isInert (h k List.mem_cons_self)]
    exact ih fun j hj => h j (List.mem_cons_of_mem _ hj)

/-- A group. -/
theorem group
    {p closer : Punct}
    (hp : p.closer? = some closer) (h : Balanced ks) :
    Balanced (.punct p :: ks ++ [.punct closer]) := by
  have hinner : nestKinds [closer] ks = some [closer] := nestKinds_extend h [closer]
  unfold Balanced
  rw [nestKinds_append, nestKinds, nestKind_opening hp, Option.bind_some, hinner]
  simp [nestKinds, nestKind_counterpart hp]

end Balanced

/-! ## Passing over groups -/

/-- Inside a group a token has the effect of its kind. -/
theorem nest_cons_eq_ok
    {closer : Punct} {outer s : List Punct} {t : Token} :
    nest (closer :: outer) t = .ok s ↔ nestKind (closer :: outer) t.kind = some s := by
  unfold nest nestKind
  cases t.kind with
  | punct p =>
    simp only
    cases p.closer? with
    | some c => simp
    | none =>
      cases p.isCloser with
      | true =>
        simp only [if_true]
        split <;> simp
      | false => simp
  | ident | str | character | number => simp

/-- Outside all groups there is only a token that opens one. -/
theorem nest_nil_eq_ok
    {s : List Punct} {t : Token} :
    nest [] t = .ok s ↔ ∃ p closer, t.kind = .punct p ∧ p.closer? = some closer ∧ s = [closer] := by
  unfold nest
  cases t.kind with
  | punct p =>
    simp only
    cases hc : p.closer? with
    | some c => simp [hc, eq_comm]
    | none =>
      cases p.isCloser <;> simp [hc]
  | ident | str | character | number => simp

/-- A token after which a group is open has the effect of its kind, also outside all groups. -/
theorem nest_eq_ok
    {stack outer : List Punct} {t : Token}
    (h : nestKind stack t.kind = some outer) (hne : outer ≠ []) :
    nest stack t = .ok outer := by
  cases stack with
  | cons => exact nest_cons_eq_ok.2 h
  | nil =>
    cases hinert : isInert t.kind with
    | true =>
      cases (nestKind_of_isInert hinert []).symm.trans h
      exact absurd rfl hne
    | false =>
      cases hk : t.kind with
      | ident | str | character | number => rw [hk] at hinert; cases hinert
      | punct p =>
        rw [hk] at h hinert
        cases hp : p.closer? with
        | some closer =>
          cases (nestKind_opening hp []).symm.trans h
          exact nest_nil_eq_ok.2 ⟨p, closer, hk, hp, rfl⟩
        | none =>
          have hq : p.isCloser = true := by simpa [isInert, hp] using hinert
          cases (nestKind_closing hq).1 h

/-- A token has the effect of its kind. -/
theorem nest_eq_of_kind
    {stack s : List Punct} {t : Token}
    (h : nest stack t = .ok s) (line : Nat) :
    nest stack ⟨t.kind, line⟩ = .ok s := by
  cases stack with
  | nil =>
    rw [nest_nil_eq_ok] at h ⊢
    exact h
  | cons closer outer =>
    rw [nest_cons_eq_ok] at h ⊢
    exact h

/-- What a group that has ended consists of, and that it ends there whatever follows. -/
theorem closeGroups_stable
    {endLine : Nat} {stack : List Punct} {ts rest : List Token}
    (h : closeGroups endLine stack ts = .ok rest) :
    ∃ toks, ts = toks ++ rest ∧ toks ≠ [] ∧ nestKinds stack (kindsOf toks) = some [] ∧
      ∀ endLine' toks' rest', kindsOf toks' = kindsOf toks →
        closeGroups endLine' stack (toks' ++ rest') = .ok rest' := by
  induction ts generalizing stack with
  | nil => cases h
  | cons t ts ih =>
    rw [closeGroups] at h
    cases hn : nest stack t with
    | error d => rw [hn] at h; cases h
    | ok s =>
      rw [hn] at h
      have hkind : nestKind stack t.kind = some s := by
        cases stack with
        | nil =>
          obtain ⟨p, closer, hk, hc, rfl⟩ := nest_nil_eq_ok.1 hn
          simp [nestKind, hk, hc]
        | cons closer outer => exact nest_cons_eq_ok.1 hn
      cases s with
      | nil =>
        cases h
        refine ⟨[t], rfl, by simp, by simp [nestKinds, hkind], ?_⟩
        intro endLine' toks' rest' hk
        rw [kindsOf_cons] at hk
        obtain ⟨line, toks', rfl, hks'⟩ := kindsOf_eq_cons.1 hk
        obtain rfl := kindsOf_eq_nil.1 hks'
        rw [List.singleton_append, closeGroups, nest_eq_of_kind hn line]
      | cons closer outer =>
        obtain ⟨toks, rfl, -, hks, hstable⟩ := ih h
        refine ⟨t :: toks, rfl, by simp, by simp [nestKinds, hkind, hks], ?_⟩
        intro endLine' toks' rest' hk
        rw [kindsOf_cons] at hk
        obtain ⟨line, toks', rfl, hks'⟩ := kindsOf_eq_cons.1 hk
        rw [List.cons_append, closeGroups, nest_eq_of_kind hn line]
        exact hstable endLine' toks' rest' hks'

/-- As long as a group stays open, the tokens are taken one after the other. -/
theorem closeGroups_open
    {endLine : Nat} {stack outer : List Punct} {toks : List Token}
    (h : nestKinds stack (kindsOf toks) = some outer)
    (hopen : ∀ front, front ≠ [] → front <+: toks → nestKinds stack (kindsOf front) ≠ some [])
    (rest : List Token) :
    closeGroups endLine stack (toks ++ rest) = closeGroups endLine outer rest := by
  induction toks generalizing stack with
  | nil =>
    cases h
    rfl
  | cons t toks ih =>
    rw [kindsOf_cons, nestKinds, Option.bind_eq_some_iff] at h
    obtain ⟨inner, hinner, h⟩ := h
    have hne : inner ≠ [] := by
      rintro rfl
      exact hopen [t] (by simp) ⟨toks, rfl⟩ (by simp [nestKinds, hinner])
    rw [List.cons_append, closeGroups, nest_eq_ok hinner hne]
    obtain ⟨closer, inner, rfl⟩ := List.exists_cons_of_ne_nil hne
    refine ih h fun front _ hfront hclosed => ?_
    refine hopen (t :: front) (by simp) (List.cons_prefix_cons.2 ⟨rfl, hfront⟩) ?_
    rw [kindsOf_cons, nestKinds, hinner]
    exact hclosed

/-- Balanced tokens inside a group are passed over. -/
theorem closeGroups_balanced
    {endLine : Nat} {closer : Punct} {stack inner outer : List Punct} {toks : List Token}
    (h : nestKinds stack (kindsOf toks) = some inner) (rest : List Token) :
    closeGroups endLine (stack ++ closer :: outer) (toks ++ rest) =
      closeGroups endLine (inner ++ closer :: outer) rest := by
  refine closeGroups_open (nestKinds_extend h _) (fun front _ hfront => ?_) rest
  obtain ⟨back, rfl⟩ := hfront
  rw [kindsOf_append, nestKinds_append, Option.bind_eq_some_iff] at h
  obtain ⟨between, hbetween, -⟩ := h
  rw [nestKinds_extend hbetween]
  simp

/-- Whether no token outside all groups is one of some marks, given the groups that are open. -/
def noneOutside (marks : List Punct) : List Punct → List TokenKind → Bool
  | _, [] => true
  | stack, k :: ks =>
    !(stack.isEmpty && marks.any fun p => k == .punct p) &&
      match nestKind stack k with
      | some inner => noneOutside marks inner ks
      | none => true

/-- Tokens that are not there at all are not outside groups. -/
theorem noneOutside_of_notMem
    {p : Punct} {ks : List TokenKind}
    (h : .punct p ∉ ks) (stack : List Punct) :
    noneOutside [p] stack ks = true := by
  induction ks generalizing stack with
  | nil => rfl
  | cons k ks ih =>
    rw [List.mem_cons, not_or] at h
    have hk : (k == .punct p) = false := beq_eq_false_iff_ne.2 (Ne.symm h.1)
    rw [noneOutside]
    cases nestKind stack k with
    | none => simp [hk]
    | some inner => simp [hk, ih h.2]

/-- Balanced tokens are passed over up to marks of which none stands outside groups in them. -/
theorem dropToMark_undivided
    {marks outside : List Punct} {endLine : Nat} {stack inner : List Punct} {toks : List Token}
    (hmarks : ∀ p ∈ marks, p.isCloser = true ∨ p ∈ outside)
    (h : nestKinds stack (kindsOf toks) = some inner)
    (hnone : noneOutside outside stack (kindsOf toks) = true) (rest : List Token) :
    dropToMark marks endLine stack (toks ++ rest) = dropToMark marks endLine inner rest := by
  induction toks generalizing stack with
  | nil =>
    cases h
    rfl
  | cons t toks ih =>
    rw [kindsOf_cons, nestKinds, Option.bind_eq_some_iff] at h
    obtain ⟨s, hs, hks⟩ := h
    rw [kindsOf_cons, noneOutside, hs, Bool.and_eq_true] at hnone
    rw [List.cons_append]
    cases stack with
    | cons closer outer =>
      rw [dropToMark, nest_cons_eq_ok.2 hs]
      exact ih hks hnone.2
    | nil =>
      rw [dropToMark]
      cases hk : t.kind with
      | punct p =>
        rw [hk] at hs hnone
        cases hc : p.closer? with
        | some closer =>
          have hn : nest [] t = .ok [closer] := nest_nil_eq_ok.2 ⟨p, closer, hk, hc, rfl⟩
          simp only [nestKind, hc, Option.some.injEq] at hs
          subst hs
          rw [if_pos (by simp [Token.opensGroup, hk, hc]), hn]
          exact ih hks hnone.2
        | none =>
          have hp : p.isCloser = false := by
            cases hp : p.isCloser with
            | false => rfl
            | true => simp [nestKind, hc, hp] at hs
          have hmark : p ∉ marks := by
            intro hmem
            have hout := (hmarks p hmem).resolve_left (by simp [hp])
            simp only [List.isEmpty_nil, Bool.true_and, Bool.not_eq_true',
              List.any_eq_false, beq_iff_eq, TokenKind.punct.injEq] at hnone
            exact hnone.1 p hout rfl
          simp only [nestKind, hc, hp, Bool.false_eq_true, if_false, Option.some.injEq] at hs
          subst hs
          rw [if_neg (by simp [Token.opensGroup, hk, hc]),
            if_neg (by simp [Token.isOneOf, hk, hmark])]
          exact ih hks hnone.2
      | ident | str | character | number =>
        rw [hk] at hs hnone
        cases hs
        rw [if_neg (by simp [Token.opensGroup, hk]), if_neg (by simp [Token.isOneOf, hk])]
        exact ih hks hnone.2

/-- Outside groups and marks, balanced tokens of an expression are passed over. -/
theorem dropToMark_balanced
    {endLine : Nat} {stack inner : List Punct} {toks : List Token}
    (h : nestKinds stack (kindsOf toks) = some inner)
    (hsemicolon : .punct .semicolon ∉ kindsOf toks) (rest : List Token) :
    dropToMark Parse.expressionEnds endLine stack (toks ++ rest) =
      dropToMark Parse.expressionEnds endLine inner rest :=
  dropToMark_undivided (by decide) h (noneOutside_of_notMem hsemicolon stack) rest

/-- Whether a token of a kind is one of some marks. -/
def isMark (marks : List Punct) : Option TokenKind → Prop
  | some (.punct p) => p ∈ marks
  | _ => False

theorem isOneOf_iff
    {marks : List Punct} {t : Token} :
    t.isOneOf marks = true ↔ isMark marks (some t.kind) := by
  unfold Token.isOneOf isMark
  cases t.kind <;> simp

/-- What stands in front of a mark outside all groups, and that it ends there whatever follows. -/
theorem dropToMark_stable
    {endLine : Nat} {stack : List Punct} {ts rest : List Token}
    (h : dropToMark Parse.listedExpressionEnds endLine stack ts = .ok rest) :
    isMark Parse.listedExpressionEnds (headKind rest) ∧
    ∃ toks, ts = toks ++ rest ∧ nestKinds stack (kindsOf toks) = some [] ∧
      ∀ endLine' toks' rest', kindsOf toks' = kindsOf toks →
        isMark Parse.listedExpressionEnds (headKind rest') →
        dropToMark Parse.listedExpressionEnds endLine' stack (toks' ++ rest') = .ok rest' := by
  have hopens : ∀ t : Token, isMark Parse.listedExpressionEnds (some t.kind) →
      t.opensGroup = false := by
    intro t ht
    unfold isMark at ht
    unfold Token.opensGroup
    split
    · rename_i p hk
      rw [hk] at ht
      revert ht
      cases p <;> simp [Parse.listedExpressionEnds, Parse.expressionEnds, Punct.closer?]
    · rfl
  induction ts generalizing stack with
  | nil => cases stack <;> cases h
  | cons t ts ih =>
    cases stack with
    | cons closer outer =>
      rw [dropToMark] at h
      cases hn : nest (closer :: outer) t with
      | error d => rw [hn] at h; cases h
      | ok s =>
        rw [hn] at h
        obtain ⟨hmark, toks, rfl, hks, hstable⟩ := ih h
        refine ⟨hmark, t :: toks, rfl, ?_, ?_⟩
        · simp [nestKinds, nest_cons_eq_ok.1 hn, hks]
        · intro endLine' toks' rest' hk hrest
          rw [kindsOf_cons] at hk
          obtain ⟨line, toks', rfl, hks'⟩ := kindsOf_eq_cons.1 hk
          rw [List.cons_append, dropToMark, nest_eq_of_kind hn line]
          exact hstable endLine' toks' rest' hks' hrest
    | nil =>
      rw [dropToMark] at h
      split at h
      · rename_i hopen
        cases hn : nest [] t with
        | error d => rw [hn] at h; cases h
        | ok s =>
          rw [hn] at h
          obtain ⟨hmark, toks, rfl, hks, hstable⟩ := ih h
          obtain ⟨p, closer, hk, hc, rfl⟩ := nest_nil_eq_ok.1 hn
          refine ⟨hmark, t :: toks, rfl, ?_, ?_⟩
          · simp [nestKinds, nestKind, hk, hc, hks]
          · intro endLine' toks' rest' hk' hrest
            rw [kindsOf_cons] at hk'
            obtain ⟨line, toks', rfl, hks'⟩ := kindsOf_eq_cons.1 hk'
            rw [List.cons_append, dropToMark,
              if_pos (show Token.opensGroup ⟨t.kind, line⟩ = true from hopen),
              nest_eq_of_kind hn line]
            exact hstable endLine' toks' rest' hks' hrest
      · rename_i hopen
        split at h
        · rename_i hone
          cases h
          refine ⟨isOneOf_iff.1 hone, [], rfl, rfl, ?_⟩
          intro endLine' toks' rest' hk hrest
          obtain rfl : toks' = [] := by simpa using hk
          cases rest' with
          | nil => exact hrest.elim
          | cons t' rest' =>
            rw [List.nil_append, dropToMark, if_neg (by simp [hopens t' hrest]),
              if_pos (isOneOf_iff.2 hrest)]
        · rename_i hone
          obtain ⟨hmark, toks, rfl, hks, hstable⟩ := ih h
          refine ⟨hmark, t :: toks, rfl, ?_, ?_⟩
          · have hinert : nestKind [] t.kind = some [] := by
              unfold Token.opensGroup at hopen
              unfold Token.isOneOf at hone
              cases hk : t.kind with
              | punct p =>
                rw [hk] at hopen hone
                revert hopen hone
                cases p <;>
                  simp [nestKind, Punct.closer?, Punct.isCloser, Parse.listedExpressionEnds,
                    Parse.expressionEnds]
              | ident | str | character | number => rfl
            simp [nestKinds, hinert, hks]
          · intro endLine' toks' rest' hk' hrest
            rw [kindsOf_cons] at hk'
            obtain ⟨line, toks', rfl, hks'⟩ := kindsOf_eq_cons.1 hk'
            rw [List.cons_append, dropToMark,
              if_neg (show ¬ Token.opensGroup ⟨t.kind, line⟩ = true from hopen),
              if_neg (show ¬ Token.isOneOf _ ⟨t.kind, line⟩ = true from hone)]
            exact hstable endLine' toks' rest' hks' hrest

end CSharp
end ContentModels

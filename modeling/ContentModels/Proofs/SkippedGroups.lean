import ContentModels.Proofs.Parsing.Edits
import Mathlib.Data.List.Induction

/-!
# Skipped groups

Properly nested tokens are given by a grammar of groups of the three kinds of brackets.  A stack
of closing marks recognises it: after some tokens the stack holds the marks that the tokens still
call for, innermost first (`opens_iff`).  So the reader that passes over a group takes exactly the
group that starts at the next token.  If there is none, it fails on the line of the first closing
mark that does not close the innermost open group, or, if there is no such mark either, on the
line of the last token (`skipGroup_outcome`).  A group in an expression is passed over in the same
way (`skipTo_group`).
-/

namespace ContentModels
namespace CSharp

open Parse

/-! ## The grammar of groups -/

/-- Tokens in which every bracket has its counterpart and groups do not overlap. -/
inductive WellNested : List TokenKind → Prop where
  | nil : WellNested []
  | token {k : TokenKind} {ks : List TokenKind} (hk : isInert k = true) (h : WellNested ks) :
    WellNested (k :: ks)
  | group {p closer : Punct} {inner ks : List TokenKind} (hp : p.closer? = some closer)
    (hinner : WellNested inner) (h : WellNested ks) :
    WellNested (.punct p :: (inner ++ .punct closer :: ks))

/-- One group: a bracket, its counterpart, and properly nested tokens between them. -/
inductive IsGroup : List TokenKind → Prop where
  | mk {p closer : Punct} {inner : List TokenKind} (hp : p.closer? = some closer)
    (hinner : WellNested inner) : IsGroup (.punct p :: (inner ++ [.punct closer]))

/--
Tokens that are properly nested but for some groups that they leave open, given by the marks that
have to close these, innermost first.
-/
inductive Opens : List Punct → List TokenKind → Prop where
  | none {ks : List TokenKind} (h : WellNested ks) : Opens [] ks
  | group {stack : List Punct} {p closer : Punct} {ks js : List TokenKind} (h : Opens stack ks)
    (hp : p.closer? = some closer) (hjs : WellNested js) :
    Opens (closer :: stack) (ks ++ .punct p :: js)

variable {stack outer : List Punct} {p q closer missing : Punct} {k : TokenKind}
  {ks js inner : List TokenKind}

theorem isInert_opening
    (hp : p.closer? = some closer) :
    isInert (.punct p) = false := by
  simp [isInert, hp]

theorem WellNested.append
    (h : WellNested ks) (hjs : WellNested js) :
    WellNested (ks ++ js) := by
  induction h with
  | nil => exact hjs
  | token hk _ ih => exact .token hk ih
  | group hp hinner _ _ ih =>
    rw [List.cons_append, List.append_assoc]
    exact .group hp hinner ih

theorem WellNested.balanced
    (h : WellNested ks) :
    Balanced ks := by
  induction h with
  | nil => exact .nil
  | @token k ks hk _ ih =>
    have hone : Balanced [k] := .of_inert (by simpa using hk)
    exact hone.append ih
  | group hp _ _ ihinner ih =>
    simpa using (Balanced.group hp ihinner).append ih

/-- Tokens that start with a bracket start with the group that it opens. -/
theorem WellNested.exists_group
    (h : WellNested (.punct p :: ks)) (hp : p.closer? = some closer) :
    ∃ inner js, ks = inner ++ .punct closer :: js ∧ WellNested inner := by
  cases h with
  | token hk => rw [isInert_opening hp] at hk; cases hk
  | group hp' hinner =>
    cases hp.symm.trans hp'
    exact ⟨_, _, rfl, hinner⟩

/-! ## The stack of closing marks -/

/-- Only a closing mark can be out of place. -/
theorem nestKind_eq_none
    (h : nestKind stack k = none) :
    ∃ q, k = .punct q ∧ q.isCloser = true ∧ stack.head? ≠ some q := by
  have hinert : isInert k ≠ true := fun hk => by
    rw [nestKind_of_isInert hk] at h
    cases h
  cases k with
  | ident | str | character | number => exact absurd rfl hinert
  | punct q =>
    cases hc : q.closer? with
    | some closer => rw [nestKind_opening hc] at h; cases h
    | none =>
      have hq : q.isCloser = true := by simpa [isInert, hc] using hinert
      refine ⟨q, rfl, hq, fun hhead => ?_⟩
      obtain ⟨outer, rfl⟩ := List.head?_eq_some_iff.1 hhead
      rw [(nestKind_closing hq).2 rfl] at h
      cases h

theorem Opens.append
    (h : Opens stack ks) (hjs : WellNested js) :
    Opens stack (ks ++ js) := by
  cases h with
  | none h => exact .none (h.append hjs)
  | group h hp hinner =>
    rw [List.append_assoc, List.cons_append]
    exact .group h hp (hinner.append hjs)

/-- The mark that closes the innermost open group makes it a group among others. -/
theorem Opens.close
    (h : Opens (q :: outer) ks) :
    Opens outer (ks ++ [.punct q]) := by
  cases h with
  | group h hp hinner =>
    rw [List.append_assoc, List.cons_append]
    exact h.append (.group hp hinner .nil)

/-- What one more token makes of the open groups. -/
theorem Opens.step
    (h : Opens stack ks) (hk : nestKind stack k = some outer) :
    Opens outer (ks ++ [k]) := by
  cases hinert : isInert k with
  | true =>
    cases (nestKind_of_isInert hinert stack).symm.trans hk
    exact h.append (.token hinert .nil)
  | false =>
    cases k with
    | ident | str | character | number => cases hinert
    | punct p =>
      cases hp : p.closer? with
      | some closer =>
        cases (nestKind_opening hp stack).symm.trans hk
        exact h.group hp .nil
      | none =>
        have hq : p.isCloser = true := by simpa [isInert, hp] using hinert
        obtain rfl := (nestKind_closing hq).1 hk
        exact h.close

theorem Opens.nestKinds_eq
    (h : Opens stack ks) :
    nestKinds [] ks = some stack := by
  induction h with
  | none h => exact h.balanced
  | @group stack p closer ks js _ hp hjs ih =>
    rw [nestKinds_append, ih, Option.bind_some, nestKinds, nestKind_opening hp, Option.bind_some]
    exact nestKinds_extend hjs.balanced (closer :: stack)

/-- The stack holds what the tokens leave open. -/
theorem opens_iff :
    Opens stack ks ↔ nestKinds [] ks = some stack := by
  refine ⟨Opens.nestKinds_eq, fun h => ?_⟩
  -- The grammar grows at the end, as the stack does, so the tokens are taken off from there.
  induction ks using List.reverseRecOn generalizing stack with
  | nil =>
    cases h
    exact .none .nil
  | append_singleton ks k ih =>
    rw [nestKinds_append, Option.bind_eq_some_iff] at h
    obtain ⟨before, hks, hk⟩ := h
    exact (ih hks).step (by simpa [nestKinds] using hk)

theorem balanced_iff_wellNested :
    Balanced ks ↔ WellNested ks := by
  refine ⟨fun h => ?_, WellNested.balanced⟩
  cases opens_iff.2 h with
  | none h => exact h

/-! ## Closing marks in place -/

/-- Tokens behind which it takes this mark to close the innermost open group. -/
def AwaitsCloser (ks : List TokenKind) (closer : Punct) : Prop :=
  ∃ outer, Opens (closer :: outer) ks

/-- Every closing mark closes the innermost group that is open in front of it. -/
def ClosesInOrder (ks : List TokenKind) : Prop :=
  ∀ front q back, ks = front ++ .punct q :: back → q.isCloser = true → AwaitsCloser front q

/-- Closing marks are in place exactly as long as there is a stack of open groups. -/
theorem closesInOrder_iff :
    ClosesInOrder ks ↔ ∃ stack, Opens stack ks := by
  constructor
  · intro h
    induction ks using List.reverseRecOn with
    | nil => exact ⟨[], .none .nil⟩
    | append_singleton ks k ih =>
      obtain ⟨stack, hstack⟩ := ih fun front q back hks =>
        h front q (back ++ [k]) (by rw [hks, List.append_assoc, List.cons_append])
      cases hk : nestKind stack k with
      | some outer => exact ⟨outer, hstack.step hk⟩
      | none =>
        obtain ⟨q, rfl, hq, hhead⟩ := nestKind_eq_none hk
        obtain ⟨outer, houter⟩ := h ks q [] rfl hq
        have hsame := hstack.nestKinds_eq.symm.trans houter.nestKinds_eq
        cases hsame
        exact absurd rfl hhead
  · rintro ⟨stack, hstack⟩ front q back rfl hq
    have hrun := hstack.nestKinds_eq
    rw [nestKinds_append, Option.bind_eq_some_iff] at hrun
    obtain ⟨before, hfront, hback⟩ := hrun
    rw [nestKinds, Option.bind_eq_some_iff] at hback
    obtain ⟨outer, hclose, -⟩ := hback
    obtain rfl := (nestKind_closing hq).1 hclose
    exact ⟨outer, opens_iff.2 hfront⟩

/-- Some tokens at the front are a group. -/
def StartsWithGroup (ts : List Token) : Prop :=
  ∃ group rest, IsGroup (kindsOf group) ∧ ts = group ++ rest

/-- All closing marks are in place, but the tokens end inside a group that a mark has to close. -/
structure EndsInside (ts : List Token) (missing : Punct) : Prop where
  inOrder : ClosesInOrder (kindsOf ts)
  awaits : AwaitsCloser (kindsOf ts) missing

/-- The first closing mark that does not close the innermost group open in front of it. -/
structure FirstMismatch (before : List Token) (t : Token) (missing : Punct) : Prop extends
    EndsInside before missing where
  differs : ∃ q, t.kind = .punct q ∧ q.isCloser = true ∧ q ≠ missing

/-! ## The reader -/

variable {t : Token} {ts toks front before after rest : List Token}

/-- In a group a token that is out of place is refused for the mark that is missing. -/
theorem nest_eq_error
    (hk : t.kind = .punct q) (hq : q.isCloser = true) (hne : q ≠ missing) (outer : List Punct) :
    nest (missing :: outer) t = .error ⟨t.line, .expected missing⟩ := by
  simp [nest, hk, Punct.closer?_eq_none_of_isCloser hq, hq, Ne.symm hne]

/-- Tokens are in place up to their end or up to the first that is not. -/
theorem nestKinds_cases
    (stack : List Punct) (ts : List Token) :
    (∃ outer, nestKinds stack (kindsOf ts) = some outer) ∨
      ∃ before t after outer, ts = before ++ t :: after ∧
        nestKinds stack (kindsOf before) = some outer ∧ nestKind outer t.kind = none := by
  induction ts generalizing stack with
  | nil => exact .inl ⟨stack, rfl⟩
  | cons t ts ih =>
    cases hk : nestKind stack t.kind with
    | none => exact .inr ⟨[], t, ts, stack, rfl, rfl, hk⟩
    | some inner =>
      obtain ⟨outer, h⟩ | ⟨before, u, after, outer, rfl, h, hu⟩ := ih inner
      · exact .inl ⟨outer, by rw [kindsOf_cons, nestKinds, hk]; exact h⟩
      · exact .inr ⟨t :: before, u, after, outer, rfl,
          by rw [kindsOf_cons, nestKinds, hk]; exact h, hu⟩

theorem skipGroup_of_isGroup
    (h : IsGroup (kindsOf toks)) (ctx : ParseContext) (rest : List Token) :
    skipGroup ctx (toks ++ rest) = .ok ((), rest) := by
  generalize hks : kindsOf toks = ks at h
  obtain ⟨hp, hinner⟩ := h
  have hreads : Reads ctx.version skipGroup _ anything anyResult :=
    reads_skipGroup hp hinner.balanced
  obtain ⟨_, hread, -⟩ := hreads ctx.endLine toks rest hks trivial
  exact hread

theorem skipGroup_eq_error
    {ctx : ParseContext} {d : Diagnostic} :
    skipGroup ctx ts = .error d ↔ closeGroups ctx.endLine [] ts = .error d := by
  unfold skipGroup
  cases closeGroups ctx.endLine [] ts with
  | error e => simp [Except.map]
  | ok r => simp [Except.map]

/-! ## Groups at the front -/

/-- Balanced tokens that start with a bracket start with a group. -/
theorem startsWithGroup_of_balanced
    (h : Balanced (kindsOf toks)) (hat : headKind toks = some (.punct p))
    (hp : p.closer? = some closer) :
    StartsWithGroup toks := by
  obtain ⟨line, us, rfl⟩ := headKind_eq_some.1 hat
  rw [kindsOf_cons] at h
  obtain ⟨inner, js, hus, hinner⟩ := (balanced_iff_wellNested.1 h).exists_group hp
  have hsplit : kindsOf us = (inner ++ [.punct closer]) ++ js := by
    rw [hus, List.append_assoc, List.singleton_append]
  obtain ⟨vs, ws, rfl, hvs, -⟩ := kindsOf_eq_append.1 hsplit
  refine ⟨⟨.punct p, line⟩ :: vs, ws, ?_, rfl⟩
  rw [kindsOf_cons, hvs]
  exact .mk hp hinner

section Front

variable {ctx : ParseContext} {d : Diagnostic}
  (hat : headKind ts = some (.punct p)) (hp : p.closer? = some closer)
include hat hp

/-- The reader takes the group at the front, and no more. -/
theorem skipGroup_eq_ok_iff :
    skipGroup ctx ts = .ok ((), rest) ↔
      ∃ group, IsGroup (kindsOf group) ∧ ts = group ++ rest := by
  constructor
  · intro h
    obtain ⟨toks, rfl, hne, hbalanced, -⟩ := skipGroup_stable h
    have hhead : headKind toks = some (.punct p) := by
      obtain ⟨t, toks, rfl⟩ := List.exists_cons_of_ne_nil hne
      exact hat
    obtain ⟨group, back, hgroup, rfl⟩ := startsWithGroup_of_balanced hbalanced hhead hp
    -- Behind the first group nothing is taken, though the tokens there may be balanced.
    rw [List.append_assoc, skipGroup_of_isGroup hgroup] at h
    have hback : back = [] := by simpa using h
    exact ⟨group, hgroup, by rw [hback, List.append_nil]⟩
  · rintro ⟨group, hgroup, rfl⟩
    exact skipGroup_of_isGroup hgroup ctx rest

/-- Where there is no group at the front, the first bracket stays open. -/
theorem not_closed_of_not_startsWithGroup
    (h : ¬ StartsWithGroup ts) (hne : front ≠ []) (hfront : front <+: ts) :
    nestKinds [] (kindsOf front) ≠ some [] := by
  intro hclosed
  obtain ⟨back, rfl⟩ := hfront
  have hhead : headKind front = some (.punct p) := by
    obtain ⟨t, front, rfl⟩ := List.exists_cons_of_ne_nil hne
    exact hat
  obtain ⟨group, more, hgroup, rfl⟩ := startsWithGroup_of_balanced hclosed hhead hp
  exact h ⟨group, more ++ back, hgroup, List.append_assoc ..⟩

/-- Where there is no group at the front, a mark is out of place or the tokens end too early. -/
theorem exists_fault_of_not_startsWithGroup
    (h : ¬ StartsWithGroup ts) :
    ∃ missing, (∃ before t after, ts = before ++ t :: after ∧ FirstMismatch before t missing) ∨
      EndsInside ts missing := by
  have hopen : ∀ {front outer}, front ≠ [] → front <+: ts →
      nestKinds [] (kindsOf front) = some outer →
      ∃ missing, EndsInside front missing ∧ outer.head? = some missing := by
    intro front outer hne hfront hrun
    cases outer with
    | nil => exact absurd hrun (not_closed_of_not_startsWithGroup hat hp h hne hfront)
    | cons missing outer =>
      have hopens := opens_iff.2 hrun
      exact ⟨missing, ⟨closesInOrder_iff.2 ⟨_, hopens⟩, outer, hopens⟩, rfl⟩
  obtain ⟨outer, hrun⟩ | ⟨before, t, after, outer, rfl, hrun, hnone⟩ := nestKinds_cases [] ts
  · have hne : ts ≠ [] := by
      rintro rfl
      cases hat
    obtain ⟨missing, hends, -⟩ := hopen hne (List.prefix_refl ts) hrun
    exact ⟨missing, .inr hends⟩
  · have hne : before ≠ [] := by
      rintro rfl
      cases hrun
      rw [show t.kind = .punct p by simpa using hat, nestKind_opening hp] at hnone
      cases hnone
    obtain ⟨missing, hends, hhead⟩ := hopen hne ⟨_, rfl⟩ hrun
    obtain ⟨q, hk, hq, hdiffers⟩ := nestKind_eq_none hnone
    refine ⟨missing, .inl ⟨before, t, after, rfl, hends, q, hk, hq, ?_⟩⟩
    rintro rfl
    exact hdiffers hhead

theorem skipGroup_of_firstMismatch
    (h : ¬ StartsWithGroup ts) (hts : ts = before ++ t :: after)
    (hfirst : FirstMismatch before t missing) :
    skipGroup ctx ts = .error ⟨t.line, .expected missing⟩ := by
  obtain ⟨outer, hopens⟩ := hfirst.awaits
  obtain ⟨q, hk, hq, hne⟩ := hfirst.differs
  rw [skipGroup_eq_error, hts, closeGroups_open hopens.nestKinds_eq ?_, closeGroups,
    nest_eq_error hk hq hne]
  intro front hfront hbefore
  refine not_closed_of_not_startsWithGroup hat hp h hfront (hbefore.trans ?_)
  exact ⟨t :: after, hts.symm⟩

theorem skipGroup_of_endsInside
    (h : ¬ StartsWithGroup ts) (hends : EndsInside ts missing) :
    skipGroup ctx ts = .error ⟨ctx.endLine, .expected missing⟩ := by
  obtain ⟨outer, hopens⟩ := hends.awaits
  have hrun : closeGroups ctx.endLine [] (ts ++ []) =
      closeGroups ctx.endLine (missing :: outer) [] :=
    closeGroups_open hopens.nestKinds_eq (fun _ => not_closed_of_not_startsWithGroup hat hp h) []
  rw [List.append_nil] at hrun
  rw [skipGroup_eq_error, hrun]
  rfl

/-- The faults of the reader. -/
theorem skipGroup_eq_error_iff :
    skipGroup ctx ts = .error d ↔
      ¬ StartsWithGroup ts ∧ ∃ missing,
        (∃ before t after, ts = before ++ t :: after ∧ FirstMismatch before t missing ∧
          d = ⟨t.line, .expected missing⟩) ∨
        (EndsInside ts missing ∧ d = ⟨ctx.endLine, .expected missing⟩) := by
  constructor
  · intro hd
    have hnone : ¬ StartsWithGroup ts := by
      rintro ⟨group, rest, hgroup, hts⟩
      have hok : skipGroup ctx ts = .ok ((), rest) :=
        (skipGroup_eq_ok_iff hat hp).2 ⟨group, hgroup, hts⟩
      cases hd.symm.trans hok
    refine ⟨hnone, ?_⟩
    obtain ⟨missing, ⟨before, t, after, hts, hfirst⟩ | hends⟩ :=
      exists_fault_of_not_startsWithGroup hat hp hnone
    · cases hd.symm.trans (skipGroup_of_firstMismatch hat hp hnone hts hfirst)
      exact ⟨missing, .inl ⟨before, t, after, hts, hfirst, rfl⟩⟩
    · cases hd.symm.trans (skipGroup_of_endsInside hat hp hnone hends)
      exact ⟨missing, .inr ⟨hends, rfl⟩⟩
  · rintro ⟨hnone, missing, ⟨before, t, after, hts, hfirst, rfl⟩ | ⟨hends, rfl⟩⟩
    · exact skipGroup_of_firstMismatch hat hp hnone hts hfirst
    · exact skipGroup_of_endsInside hat hp hnone hends

end Front

/-! ## Groups in expressions -/

/-- Once the open groups are closed, the rest is passed over as if there had been none. -/
theorem dropToMark_closeGroups
    (marks : List Punct) (endLine : Nat) (closer : Punct) (outer : List Punct) (ts : List Token) :
    dropToMark marks endLine (closer :: outer) ts =
      (closeGroups endLine (closer :: outer) ts).bind (dropToMark marks endLine []) := by
  induction ts generalizing closer outer with
  | nil => rfl
  | cons t ts ih =>
    rw [dropToMark, closeGroups]
    cases nest (closer :: outer) t with
    | error d => rfl
    | ok stack =>
      cases stack with
      | nil => rfl
      | cons closer outer => exact ih closer outer

/-- A group that an expression goes on with is passed over by the reader of groups. -/
theorem skipTo_group
    {ctx : ParseContext} (hat : headKind ts = some (.punct p)) (hp : p.closer? = some closer)
    (marks : List Punct) :
    skipTo marks ctx ts = (skipGroup >>= fun _ => skipTo marks) ctx ts := by
  obtain ⟨line, us, rfl⟩ := headKind_eq_some.1 hat
  have hopens : Token.opensGroup ⟨.punct p, line⟩ = true := by simp [Token.opensGroup, hp]
  have hnest : nest [] ⟨.punct p, line⟩ = .ok [closer] := nest_nil_eq_ok.2 ⟨p, closer, rfl, hp, rfl⟩
  rw [bind_apply, skipGroup, skipTo, dropToMark, if_pos hopens, closeGroups, hnest]
  simp only
  rw [dropToMark_closeGroups]
  cases closeGroups ctx.endLine [closer] us <;> rfl

/-! ## The position in a file -/

/--
At a bracket in a file, the reader of groups succeeds exactly if some tokens from there on are a
group, and goes on behind these.  Otherwise it fails on the line of the first closing mark that
does not close the innermost open group, or, if all do, on the line of the last token of the file.
An expression that goes on with the bracket goes on behind the same group, or fails alike.
-/
theorem skipGroup_outcome
    {stream : List Token} {position : Nat}
    (hat : headKind (stream.drop position) = some (.punct p)) (hp : p.closer? = some closer)
    (version : LanguageVersion) :
    (∀ rest, skipGroup (fileContext version stream) (stream.drop position) = .ok ((), rest) ↔
      ∃ group, IsGroup (kindsOf group) ∧ stream.drop position = group ++ rest) ∧
    (∀ d, skipGroup (fileContext version stream) (stream.drop position) = .error d ↔
      ¬ StartsWithGroup (stream.drop position) ∧ ∃ missing,
        (∃ before t after, stream.drop position = before ++ t :: after ∧
          FirstMismatch before t missing ∧ d = ⟨t.line, .expected missing⟩) ∨
        (EndsInside (stream.drop position) missing ∧
          ∃ last, stream.getLast? = some last ∧ d = ⟨last.line, .expected missing⟩)) ∧
    ∀ marks, skipTo marks (fileContext version stream) (stream.drop position) =
      (skipGroup >>= fun _ => skipTo marks) (fileContext version stream)
        (stream.drop position) := by
  refine ⟨fun rest => skipGroup_eq_ok_iff hat hp, fun d => ?_, skipTo_group hat hp⟩
  obtain ⟨line, us, hdrop⟩ := headKind_eq_some.1 hat
  have hne : stream ≠ [] := by
    rintro rfl
    rw [List.drop_nil] at hat
    cases hat
  have hlast := List.getLast?_eq_some_getLast hne
  have hline : (fileContext version stream).endLine = (stream.getLast hne).line := by
    simp [fileContext, endLine, hlast]
  rw [skipGroup_eq_error_iff hat hp, hline, hlast]
  simp only [Option.some.injEq, exists_eq_left']

/-- The tokens of a method in which a call is not closed. -/
def openCallTokens : List Token :=
  [⟨.ident "void" false, 1⟩, ⟨.ident "M" false, 1⟩, ⟨.punct .openParen, 1⟩,
    ⟨.punct .closeParen, 1⟩, ⟨.punct .openBrace, 1⟩, ⟨.ident "Call" false, 2⟩,
    ⟨.punct .openParen, 2⟩, ⟨.punct .semicolon, 2⟩, ⟨.punct .closeBrace, 3⟩,
    ⟨.punct .closeBrace, 4⟩]

/-- The body is left at the brace behind the call, in front of the last token. -/
theorem skipGroup_outcome_openCall :
    tokenize "void M() \x7b\n  Call(;\n\x7d\n\x7d" = .ok ⟨openCallTokens, []⟩ ∧
      headKind (openCallTokens.drop 4) = some (.punct .openBrace) ∧
      Punct.openBrace.closer? = some .closeBrace ∧
      skipGroup (fileContext .standard openCallTokens) (openCallTokens.drop 4) =
        .error ⟨3, .expected .closeParen⟩ ∧
      ¬ StartsWithGroup (openCallTokens.drop 4) ∧ ∃ missing,
        (∃ before t after, openCallTokens.drop 4 = before ++ t :: after ∧
          FirstMismatch before t missing ∧
          (⟨3, .expected .closeParen⟩ : Diagnostic) = ⟨t.line, .expected missing⟩) ∨
        (EndsInside (openCallTokens.drop 4) missing ∧
          ∃ last, openCallTokens.getLast? = some last ∧
            (⟨3, .expected .closeParen⟩ : Diagnostic) = ⟨last.line, .expected missing⟩) := by
  have herror : skipGroup (fileContext .standard openCallTokens) (openCallTokens.drop 4) =
      .error ⟨3, .expected .closeParen⟩ := rfl
  exact ⟨by decide +kernel, rfl, rfl, herror,
    ((skipGroup_outcome rfl rfl .standard).2.1 _).1 herror⟩

end CSharp
end ContentModels

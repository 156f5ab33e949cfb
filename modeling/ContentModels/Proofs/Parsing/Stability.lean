import ContentModels.Proofs.Parsing.Groups

/-!
# Readers that read the same again

A reader whose argument bounds nesting is stable if what it has read, it reads again
wherever tokens of the same kinds stand: on other lines, with something else behind them,
and under every bound that their number meets.  Stability passes from parts to sequences,
choices and loops.
-/

namespace ContentModels
namespace CSharp
namespace Parse

variable {α β σ : Type} {ctx : ParseContext} {ts rest : List Token}

/--
A run of a reader, from some tokens to others, can be repeated: what it has read closes
some groups that are open and no other, and a family of readers reads tokens of these
kinds with results that are as they should be.
-/
def Repeats
    (opened : List Punct) (ts rest : List Token) (p : Nat → Parse β)
    (follow : Option TokenKind → Prop) (good : β → Prop) :
    Prop :=
  ∃ toks, ts = toks ++ rest ∧ toks ≠ [] ∧ nestKinds opened (kindsOf toks) = some [] ∧
    ∀ d, toks.length ≤ d → ∀ version, Reads version (p d) (kindsOf toks) follow good

/-- Every run under a bound can be repeated, with a result that is the same. -/
def IsStable
    (p : Nat → Parse α) (follow : Option TokenKind → Prop) (same : α → α → Prop)
    (depth : Nat) :
    Prop :=
  ∀ ctx ts a rest, p depth ctx ts = .ok (a, rest) → follow (headKind rest) →
    Repeats [] ts rest p follow (same a)

/-- The kind of the head of two lists with the same tokens in front. -/
theorem headKind_append
    {toks toks' : List Token}
    (hk : kindsOf toks' = kindsOf toks) (hne : toks ≠ []) (rest rest' : List Token) :
    headKind (toks' ++ rest') = headKind (toks ++ rest) := by
  simpa using headKind_drop hk (List.length_pos_iff.2 hne) rest rest'

theorem nestKinds_balanced_append
    {ks js : List TokenKind} {opened : List Punct}
    (h : Balanced ks) (h' : nestKinds opened js = some []) :
    nestKinds opened (ks ++ js) = some [] := by
  have hks : nestKinds opened ks = some opened := nestKinds_extend h opened
  rw [nestKinds_append, hks]
  exact h'

namespace Repeats

variable {opened : List Punct} {p q : Nat → Parse β} {follow : Option TokenKind → Prop}
variable {good : β → Prop}

/-- A run may be repeated by readers that do the same on tokens with the same head. -/
theorem congr_head
    (h : Repeats opened ts rest p follow good)
    (heq : ∀ d ctx' us, headKind us = headKind ts → q d ctx' us = p d ctx' us) :
    Repeats opened ts rest q follow good := by
  obtain ⟨toks, rfl, hne, hnest, hreads⟩ := h
  refine ⟨toks, rfl, hne, hnest, ?_⟩
  intro d hd version endLine toks' rest' hk hrest
  obtain ⟨b, hb, hgood⟩ := hreads d hd version endLine toks' rest' hk hrest
  exact ⟨b, (heq d _ _ (headKind_append hk hne rest rest')).trans hb, hgood⟩

/-- A run of two tokens at least may be repeated by readers that look at two tokens. -/
theorem congr_two
    (h : Repeats opened ts rest p follow good) (hlen : rest.length + 2 ≤ ts.length)
    (heq : ∀ d ctx' us, headKind us = headKind ts →
      headKind (us.drop 1) = headKind (ts.drop 1) → q d ctx' us = p d ctx' us) :
    Repeats opened ts rest q follow good := by
  obtain ⟨toks, rfl, hne, hnest, hreads⟩ := h
  rw [List.length_append] at hlen
  refine ⟨toks, rfl, hne, hnest, ?_⟩
  intro d hd version endLine toks' rest' hk hrest
  obtain ⟨b, hb, hgood⟩ := hreads d hd version endLine toks' rest' hk hrest
  exact ⟨b, (heq d _ _ (headKind_append hk hne rest rest')
    (headKind_drop hk (by omega) rest rest')).trans hb, hgood⟩

theorem length_lt
    (h : Repeats opened ts rest p follow good) :
    rest.length < ts.length := by
  obtain ⟨toks, rfl, hne, -⟩ := h
  have := List.length_pos_iff.2 hne
  rw [List.length_append]
  omega

/-- One more token in front, behind which the readers may nest one level less deep. -/
theorem cons_nested
    {k : TokenKind} {l : Nat} {outer : List Punct}
    (h : Repeats opened ts rest p follow good) (hk : nestKind outer k = some opened)
    (heq : ∀ d ctx' l' us, q (d + 1) ctx' (⟨k, l'⟩ :: us) = p d ctx' us) :
    Repeats outer (⟨k, l⟩ :: ts) rest q follow good := by
  obtain ⟨toks, rfl, hne, hnest, hreads⟩ := h
  refine ⟨⟨k, l⟩ :: toks, rfl, by simp, by simp [nestKinds, hk, hnest], ?_⟩
  intro d hd version endLine toks' rest' hks hrest
  simp only [kindsOf_cons] at hks
  obtain ⟨l', toks', rfl, hks'⟩ := kindsOf_eq_cons.1 hks
  rw [List.length_cons] at hd
  obtain ⟨d, rfl⟩ : ∃ n, d = n + 1 := ⟨d - 1, by omega⟩
  obtain ⟨b, hb, hgood⟩ := hreads d (by omega) version endLine toks' rest' hks' hrest
  exact ⟨b, (heq d _ l' _).trans hb, hgood⟩

/-- Readers with a larger bound. -/
theorem bound_mono
    (h : Repeats opened ts rest p follow good) {f : Nat → Nat} (hf : ∀ d, d ≤ f d) :
    Repeats opened ts rest (fun d => p (f d)) follow good := by
  obtain ⟨toks, rfl, hne, hnest, hreads⟩ := h
  exact ⟨toks, rfl, hne, hnest, fun d hd => hreads (f d) (Nat.le_trans hd (hf d))⟩

/-- One more token in front, which the readers drop. -/
theorem cons
    {k : TokenKind} {l : Nat} {outer : List Punct}
    (h : Repeats opened ts rest p follow good) (hk : nestKind outer k = some opened)
    (heq : ∀ d ctx' l' us, q d ctx' (⟨k, l'⟩ :: us) = p d ctx' us) :
    Repeats outer (⟨k, l⟩ :: ts) rest q follow good :=
  (h.bound_mono Nat.le_succ).cons_nested hk fun d => heq (d + 1)

/-- A single token. -/
theorem single
    {k : TokenKind} {l : Nat} {b : β}
    (hk : nestKind opened k = some [])
    (heq : ∀ d ctx' l' us, follow (headKind us) → q d ctx' (⟨k, l'⟩ :: us) = .ok (b, us))
    (hb : good b) :
    Repeats opened (⟨k, l⟩ :: rest) rest q follow good := by
  refine ⟨[⟨k, l⟩], rfl, by simp, by simp [nestKinds, hk], ?_⟩
  intro d _ version endLine toks' rest' hks hrest
  simp only [kindsOf_cons] at hks
  obtain ⟨l', toks', rfl, hks'⟩ := kindsOf_eq_cons.1 hks
  obtain rfl := kindsOf_eq_nil.1 hks'
  exact ⟨b, heq d _ l' rest' hrest, hb⟩

theorem mono
    {follow' : Option TokenKind → Prop} {good' : β → Prop}
    (h : Repeats opened ts rest p follow good) (hfollow : ∀ k, follow' k → follow k)
    (hgood : ∀ b, good b → good' b) :
    Repeats opened ts rest p follow' good' := by
  obtain ⟨toks, rfl, hne, hnest, hreads⟩ := h
  refine ⟨toks, rfl, hne, hnest, ?_⟩
  intro d hd version endLine toks' rest' hk hrest
  obtain ⟨b, hb, hb'⟩ := hreads d hd version endLine toks' rest' hk (hfollow _ hrest)
  exact ⟨b, hb, hgood b hb'⟩

/-- The result of a run may be changed. -/
theorem map
    {γ : Type} {good' : γ → Prop} {f : β → γ} {r : Nat → Parse γ}
    (h : Repeats opened ts rest p follow good) (hgood : ∀ b, good b → good' (f b))
    (heq : ∀ d ctx' us b vs, follow (headKind vs) → good b → p d ctx' us = .ok (b, vs) →
      r d ctx' us = .ok (f b, vs)) :
    Repeats opened ts rest r follow good' := by
  obtain ⟨toks, rfl, hne, hnest, hreads⟩ := h
  refine ⟨toks, rfl, hne, hnest, ?_⟩
  intro d hd version endLine toks' rest' hk hrest
  obtain ⟨b, hb, hb'⟩ := hreads d hd version endLine toks' rest' hk hrest
  exact ⟨f b, heq d _ _ b _ hrest hb' hb, hgood b hb'⟩

/-- A run behind another one. -/
theorem seq
    {mid : List Token} {p : Nat → Parse α} {q : Nat → α → Parse β}
    {follow₁ : Option TokenKind → Prop} {good₁ : α → Prop}
    (h₁ : Repeats [] ts mid p follow₁ good₁)
    (h₂ : ∀ a, good₁ a → Repeats opened mid rest (q · a) follow good)
    (hmid : follow₁ (headKind mid)) :
    Repeats opened ts rest (fun d => p d >>= q d) follow good := by
  obtain ⟨toks, rfl, hne, hbalanced, hreads⟩ := h₁
  obtain ⟨a₀, -, ha₀⟩ := hreads toks.length (Nat.le_refl _) default 0 toks mid rfl hmid
  obtain ⟨toks₂, hts₂, hne₂, hnest₂, -⟩ := h₂ a₀ ha₀
  refine ⟨toks ++ toks₂, by rw [hts₂, List.append_assoc], by simp [hne], ?_, ?_⟩
  · rw [kindsOf_append]
    exact nestKinds_balanced_append hbalanced hnest₂
  · intro d hd version endLine toks' rest' hk hrest
    rw [List.length_append] at hd
    rw [kindsOf_append, kindsOf_eq_append] at hk
    obtain ⟨toks', toks₂', rfl, hk, hk₂⟩ := hk
    have hhead : headKind (toks₂' ++ rest') = headKind mid :=
      hts₂ ▸ headKind_append hk₂ hne₂ rest rest'
    obtain ⟨a, ha, hgood₁⟩ :=
      hreads d (by omega) version endLine toks' (toks₂' ++ rest') hk (hhead ▸ hmid)
    obtain ⟨toks₃, hts₃, -, -, hreads₃⟩ := h₂ a hgood₁
    obtain rfl : toks₂ = toks₃ := List.append_cancel_right (hts₂.symm.trans hts₃)
    obtain ⟨b, hb, hgood⟩ := hreads₃ d (by omega) version endLine toks₂' rest' hk₂ hrest
    refine ⟨b, ?_, hgood⟩
    rw [List.append_assoc]
    exact (bind_of_ok ha).trans hb

end Repeats

/-- Rounds that decide alike. -/
inductive SameRound (sameState : σ → σ → Prop) (same : β → β → Prop) :
    Round σ β → Round σ β → Prop where
  | again {s s' : σ} (h : sameState s s') : SameRound sameState same (.again s) (.again s')
  | done {b b' : β} (h : same b b') : SameRound sameState same (.done b) (.done b')

/--
What may follow a round: after the last one what may follow the loop, after others the
head that did.
-/
def followsRound (follow : Option TokenKind → Prop) (next : Option TokenKind) :
    Round σ β → Option TokenKind → Prop
  | .again _ => (· = next)
  | .done _ => follow

/-- The groups that a round closes: only the last one closes those that are open. -/
def closesRound (opened : List Punct) : Round σ β → List Punct
  | .again _ => []
  | .done _ => opened

/-- Rounds that end can be repeated as a loop if each of them can be repeated. -/
theorem repeats_rounds
    {step : Nat → σ → Parse (Round σ β)} {sameState : σ → σ → Prop} {same : β → β → Prop}
    {follow : Option TokenKind → Prop} {opened : List Punct} {depth n : Nat} {s : σ} {b : β}
    (hround : ∀ s ctx ts r rest, step depth s ctx ts = .ok (r, rest) →
      (∀ b, r = .done b → follow (headKind rest)) → ∀ s', sameState s s' →
      Repeats (closesRound opened r) ts rest (step · s')
        (followsRound follow (headKind rest) r) (SameRound sameState same r))
    (h : rounds (step depth) n s ctx ts = .ok (b, rest)) (hfollow : follow (headKind rest))
    {s' : σ} (hs : sameState s s') :
    Repeats opened ts rest (fun d => loop s' (step d)) follow (same b) := by
  refine rounds_induction (motive := fun s ts => ∀ s', sameState s s' →
    Repeats opened ts rest (fun d => loop s' (step d)) follow (same b)) h ?_ ?_ s' hs
  · intro s ts hstep s' hs
    refine (hround s _ _ _ _ hstep (fun _ _ => hfollow) s' hs).map (f := fun r =>
      match r with
      | .done b' => b'
      | .again _ => b) ?_ ?_
    · rintro _ ⟨⟩
      assumption
    · rintro d ctx' us _ vs - ⟨⟩ hr
      exact loop_of_done hr
  · intro s ts s₁ mid hstep ih s' hs
    obtain ⟨toks, rfl, hne, hbalanced, hreads⟩ :=
      hround s _ _ _ _ hstep (fun _ h => by cases h) s' hs
    -- Some round starts where this one ends, and so what is left is not empty.
    obtain ⟨s₂, hs₂⟩ : ∃ s₂, sameState s₁ s₂ := by
      obtain ⟨r', -, hsame⟩ := hreads toks.length (Nat.le_refl _) default 0 toks mid rfl rfl
      cases hsame with
      | again h => exact ⟨_, h⟩
    obtain ⟨toks₁, hmid, hne₁, hnest₁, -⟩ := ih s₂ hs₂
    refine ⟨toks ++ toks₁, by rw [hmid, List.append_assoc], by simp [hne], ?_, ?_⟩
    · rw [kindsOf_append]
      exact nestKinds_balanced_append hbalanced hnest₁
    · intro d hd version endLine toks' rest' hk hrest
      rw [List.length_append] at hd
      rw [kindsOf_append, kindsOf_eq_append] at hk
      obtain ⟨toks', toks₁', rfl, hk, hk₁⟩ := hk
      have hhead : headKind (toks₁' ++ rest') = headKind mid :=
        hmid ▸ headKind_append hk₁ hne₁ rest rest'
      obtain ⟨r', hr', hsame⟩ :=
        hreads d (by omega) version endLine toks' (toks₁' ++ rest') hk hhead
      cases hsame with
      | @again _ s₃ hs₃ =>
        obtain ⟨toks₂, hts₂, -, -, hreads₂⟩ := ih s₃ hs₃
        obtain rfl : toks₁ = toks₂ := List.append_cancel_right (hmid.symm.trans hts₂)
        obtain ⟨b', hb', hsame'⟩ := hreads₂ d (by omega) version endLine toks₁' rest' hk₁ hrest
        refine ⟨b', ?_, hsame'⟩
        rw [List.append_assoc]
        refine loop_of_again hr' ?_ hb'
        have hpos : 0 < toks'.length := by
          rw [← length_kindsOf, hk, length_kindsOf]
          exact List.length_pos_iff.2 hne
        simp only [List.length_append]
        omega

end Parse
end CSharp
end ContentModels

import ContentModels.Proofs.Parsing.Nesting

/-!
# What stands behind a declaration

A declaration ends with a semicolon or a closing brace, attributes end with a bracket, and the
body of a type starts with a brace.  No reader looks past such a mark before it has taken it, so
it reads tokens that end with one alike whatever stands behind them (`Carries`).  Only at the
very end of a property or of a type a reader looks at one more token, for an initialiser or a
semicolon; what is put there must not start with such a mark (`IsFresh`, `Ends`).
-/

namespace ContentModels
namespace CSharp

/-- A mark that ends a declaration or a group, or starts a body. -/
def isBound : TokenKind → Bool
  | .punct .semicolon | .punct .openBrace => true
  | .punct p => p.isCloser
  | _ => false

/-- Tokens of which the last is such a mark. -/
def IsBounded (ts : List Token) : Prop :=
  ∃ front t, ts = front ++ [t] ∧ isBound t.kind = true

/-- Tokens that cannot go on with a declaration that could end in front of them. -/
def IsFresh (ts : List Token) : Prop :=
  headKind ts ≠ some (.punct .assign) ∧ headKind ts ≠ some (.punct .semicolon)

namespace IsBounded

variable {ts us : List Token} {t : Token}

theorem ne_nil
    (h : IsBounded ts) :
    ts ≠ [] := by
  obtain ⟨front, t, rfl, -⟩ := h
  simp

theorem single
    (h : isBound t.kind = true) :
    IsBounded [t] :=
  ⟨[], t, rfl, h⟩

/-- What is left of bounded tokens is bounded, if anything is. -/
theorem suffix
    (h : IsBounded ts) (hsuffix : us <:+ ts) (hne : us ≠ []) :
    IsBounded us := by
  obtain ⟨front, t, rfl, ht⟩ := h
  obtain ⟨gone, heq⟩ := hsuffix
  obtain ⟨front', t', rfl⟩ : ∃ front' t', us = front' ++ [t'] :=
    ⟨_, _, (List.dropLast_concat_getLast hne).symm⟩
  rw [← List.append_assoc] at heq
  obtain rfl := List.singleton_inj.1 (List.append_inj_right' heq rfl)
  exact ⟨front', t', rfl, ht⟩

theorem of_suffix
    (h : IsBounded us) (hsuffix : us <:+ ts) :
    IsBounded ts := by
  obtain ⟨front, t, rfl, ht⟩ := h
  obtain ⟨gone, rfl⟩ := hsuffix
  exact ⟨gone ++ front, t, (List.append_assoc _ _ _).symm, ht⟩

theorem cons
    (h : IsBounded ts) :
    IsBounded (t :: ts) :=
  h.of_suffix (List.suffix_cons _ _)

/-- Behind a token that is no such mark there are more. -/
theorem tail
    (h : IsBounded (t :: ts)) (ht : isBound t.kind = false) :
    IsBounded ts := by
  refine h.suffix (List.suffix_cons _ _) ?_
  rintro rfl
  obtain ⟨front, u, heq, hu⟩ := h
  cases front with
  | nil =>
    obtain rfl := List.singleton_inj.1 heq
    rw [hu] at ht
    cases ht
  | cons _ front => simp at heq

/-- The next token is one of those, whatever stands behind them. -/
theorem headKind_append
    (h : IsBounded ts) (rest rest' : List Token) :
    headKind (ts ++ rest') = headKind (ts ++ rest) := by
  cases ts with
  | nil => exact absurd rfl h.ne_nil
  | cons t ts => rfl

/-- Behind a token that is no such mark the next one is one of those too. -/
theorem headKind_drop_one
    {k : TokenKind} {rest : List Token} (h : IsBounded ts) (hk : headKind (ts ++ rest) = some k)
    (hbound : isBound k = false) (rest' : List Token) :
    headKind ((ts ++ rest').drop 1) = headKind ((ts ++ rest).drop 1) := by
  cases ts with
  | nil => exact absurd rfl h.ne_nil
  | cons t ts =>
    cases hk
    exact (h.tail hbound).headKind_append rest rest'

end IsBounded

theorem suffix_of_append
    {us vs rest : List Token} (h : us ++ rest <:+ vs ++ rest) :
    us <:+ vs := by
  obtain ⟨gone, heq⟩ := h
  rw [← List.append_assoc] at heq
  exact ⟨gone, List.append_cancel_right heq⟩

namespace Parse

variable {α β σ : Type}

/-- What a reader reads with bounded tokens left, it reads again where others stand behind. -/
class Carries (p : Parse α) : Prop where
  carried : ∀ {ctx pre mid rest rest' a}, IsBounded mid →
    p ctx (pre ++ rest) = .ok (a, mid ++ rest) → p ctx (pre ++ rest') = .ok (a, mid ++ rest')

/--
What a reader takes ends with a mark that ends a declaration, and it reads that again in front
of fresh tokens.
-/
class Ends (p : Parse α) : Prop where
  ended : ∀ {ctx pre rest a}, p ctx (pre ++ rest) = .ok (a, rest) → pre ≠ [] →
    IsBounded pre ∧ ∀ {rest'}, IsFresh rest' → p ctx (pre ++ rest') = .ok (a, rest')

/-- A reader that takes nothing. -/
class TakesNothing (p : Parse α) : Prop where
  same : ∀ {ctx ts rest a}, p ctx ts = .ok (a, rest) → rest = ts

/-- Where a reader takes nothing, it takes nothing of fresh tokens. -/
class Idles (p : Parse α) : Prop where
  idle : ∀ {ctx rest rest' a}, IsFresh rest' → p ctx rest = .ok (a, rest) →
    p ctx rest' = .ok (a, rest')

/-! ## Sequences -/

/-- What the first part of a sequence leaves. -/
theorem exists_between
    {p : Parse α} {f : α → Parse β} [hp : Drops p] [hf : ∀ a, Drops (f a)] {ctx : ParseContext}
    {pre mid rest : List Token} {b : β} (h : (p >>= f) ctx (pre ++ rest) = .ok (b, mid ++ rest)) :
    ∃ a mid₁, mid₁ <:+ pre ∧ mid <:+ mid₁ ∧ p ctx (pre ++ rest) = .ok (a, mid₁ ++ rest) ∧
      f a ctx (mid₁ ++ rest) = .ok (b, mid ++ rest) := by
  obtain ⟨a, m, ha, hb⟩ := bind_eq_ok.1 h
  have hsuffix := (hf a).suffix hb
  obtain ⟨mid₁, rfl⟩ := (List.suffix_append mid rest).trans hsuffix
  exact ⟨a, mid₁, suffix_of_append (hp.suffix ha), suffix_of_append hsuffix, ha, hb⟩

section

variable {p : Parse α} {f : α → Parse β} [Drops p] [∀ a, Drops (f a)]

theorem Carries.bind
    (hp : Carries p) (hf : ∀ a, Carries (f a)) :
    Carries (p >>= f) where
  carried hmid h := by
    obtain ⟨a, mid₁, -, hsuffix, ha, hb⟩ := exists_between h
    exact bind_eq_ok.2 ⟨a, _, hp.carried (hmid.of_suffix hsuffix) ha, (hf a).carried hmid hb⟩

namespace Ends

/-- A second part that takes a token comes to the end. -/
theorem bind_eats
    [heats : ∀ a, Eats (f a)] (hp : Carries p) (hf : ∀ a, Ends (f a)) :
    Ends (p >>= f) where
  ended {ctx pre rest b} h hne := by
    have h : (p >>= f) ctx (pre ++ rest) = .ok (b, [] ++ rest) := h
    obtain ⟨a, mid, hsuffix, -, ha, hb⟩ := exists_between h
    have hmid : mid ≠ [] := by
      rintro rfl
      exact Nat.lt_irrefl _ ((heats a).shorter hb)
    obtain ⟨hbounded, hcarried⟩ := (hf a).ended hb hmid
    refine ⟨hbounded.of_suffix hsuffix, fun hrest => ?_⟩
    exact bind_eq_ok.2 ⟨a, _, hp.carried hbounded ha, hcarried hrest⟩

/-- A second part may also take nothing, and then the first one comes to the end. -/
theorem bind_idles
    (hcarries : Carries p) (hp : Ends p) (hf : ∀ a, Ends (f a)) (hidles : ∀ a, Idles (f a)) :
    Ends (p >>= f) where
  ended {ctx pre rest b} h hne := by
    have h : (p >>= f) ctx (pre ++ rest) = .ok (b, [] ++ rest) := h
    obtain ⟨a, mid, hsuffix, -, ha, hb⟩ := exists_between h
    by_cases hmid : mid = []
    · subst hmid
      obtain ⟨hbounded, hcarried⟩ := hp.ended ha hne
      exact ⟨hbounded, fun hrest =>
        bind_eq_ok.2 ⟨a, _, hcarried hrest, (hidles a).idle hrest hb⟩⟩
    · obtain ⟨hbounded, hcarried⟩ := (hf a).ended hb hmid
      exact ⟨hbounded.of_suffix hsuffix, fun hrest =>
        bind_eq_ok.2 ⟨a, _, hcarries.carried hbounded ha, hcarried hrest⟩⟩

end Ends

end

/-- A first part that takes nothing leaves all to the second one. -/
theorem Ends.bind_nothing
    {p : Parse α} {f : α → Parse β} [hnothing : TakesNothing p] (hp : Carries p) (hf : ∀ a, Ends (f a)) :
    Ends (p >>= f) where
  ended {ctx pre rest b} h hne := by
    obtain ⟨a, mid, ha, hb⟩ := bind_eq_ok.1 h
    obtain rfl := hnothing.same ha
    obtain ⟨hbounded, hcarried⟩ := (hf a).ended hb hne
    exact ⟨hbounded, fun hrest => bind_eq_ok.2 ⟨a, _, hp.carried hbounded ha, hcarried hrest⟩⟩

/-! ## Loops -/

section

variable {init : σ} {step : σ → Parse (Round σ β)} [hdrops : ∀ s, Drops (step s)]

theorem Carries.loop
    [heats : ∀ s, EatsAgain (step s)] (hstep : ∀ s, Carries (step s)) :
    Carries (Parse.loop init step) where
  carried {ctx pre mid rest rest' b} hmid h := by
    -- The tokens left after any round end with those that are left at last.
    have hgo := rounds_induction (motive := fun s ts => mid ++ rest <:+ ts ∧
      ∀ pre, ts = pre ++ rest → Parse.loop s step ctx (pre ++ rest') = .ok (b, mid ++ rest'))
      h ?_ ?_
    · exact hgo.2 pre rfl
    · intro s ts hdone
      refine ⟨(hdrops s).suffix hdone, fun pre hts => ?_⟩
      subst hts
      exact loop_of_done ((hstep s).carried hmid hdone)
    · intro s ts s₁ m hagain ih
      refine ⟨ih.1.trans ((hdrops s).suffix hagain), fun pre hts => ?_⟩
      subst hts
      obtain ⟨mid₁, rfl⟩ := (List.suffix_append mid rest).trans ih.1
      have hlt := (heats s).shorter hagain
      refine loop_of_again
        ((hstep s).carried (hmid.of_suffix (suffix_of_append ih.1)) hagain) ?_ (ih.2 mid₁ rfl)
      simp only [List.length_append] at hlt ⊢
      omega

/-- A loop of which each round takes a token comes to the end in its last round. -/
theorem Ends.loop
    [heats : ∀ s, Eats (step s)] (hcarries : ∀ s, Carries (step s)) (hstep : ∀ s, Ends (step s)) :
    Ends (Parse.loop init step) where
  ended {ctx pre rest b} h hne := by
    have hgo := rounds_induction (motive := fun s ts => rest <:+ ts ∧ rest.length < ts.length ∧
      ∀ pre, ts = pre ++ rest → IsBounded pre ∧
        ∀ {rest'}, IsFresh rest' → Parse.loop s step ctx (pre ++ rest') = .ok (b, rest')) h ?_ ?_
    · exact hgo.2.2 pre rfl
    · intro s ts hdone
      have hlt := (heats s).shorter hdone
      refine ⟨(hdrops s).suffix hdone, hlt, fun pre hts => ?_⟩
      subst hts
      obtain ⟨hbounded, hcarried⟩ := (hstep s).ended hdone (by
        rintro rfl
        exact Nat.lt_irrefl _ hlt)
      exact ⟨hbounded, fun hrest => loop_of_done (hcarried hrest)⟩
    · intro s ts s₁ m hagain ih
      obtain ⟨⟨mid, rfl⟩, hlt, ih⟩ := ih
      obtain ⟨hbounded, hcarried⟩ := ih mid rfl
      have hsuffix := (hdrops s).suffix hagain
      have hlt' := (heats s).shorter hagain
      refine ⟨(List.suffix_append _ _).trans hsuffix, Nat.lt_trans hlt hlt', fun pre hts => ?_⟩
      subst hts
      refine ⟨hbounded.of_suffix (suffix_of_append hsuffix), fun hrest => ?_⟩
      refine loop_of_again ((hcarries s).carried hbounded hagain) ?_ (hcarried hrest)
      simp only [List.length_append] at hlt' ⊢
      omega

end

/-! ## Conditions -/

/-- A condition that bounded tokens decide, whatever stands behind them. -/
def IsDecided (c : List Token → Bool) : Prop :=
  ∀ pre rest rest', IsBounded pre → c (pre ++ rest') = c (pre ++ rest)

theorem isDecided_head
    (c : Option TokenKind → Bool) :
    IsDecided fun ts => c (headKind ts) := by
  intro pre rest rest' hpre
  dsimp only
  rw [hpre.headKind_append rest rest']

/-- A look at one token, which alone may call for a look behind it. -/
theorem IsDecided.behind
    {c : Option TokenKind → Bool} {d : List Token → Bool} (hd : IsDecided d)
    (hc : ∀ k, c (some k) = true → isBound k = false) :
    IsDecided fun ts => c (headKind ts) && d (ts.drop 1) := by
  intro pre rest rest' hpre
  dsimp only
  rw [hpre.headKind_append rest rest']
  cases pre with
  | nil => exact absurd rfl hpre.ne_nil
  | cons t pre =>
    cases hk : c (headKind (t :: pre ++ rest)) with
    | false => rw [Bool.false_and, Bool.false_and]
    | true => exact congrArg (true && ·) (hd pre rest rest' (hpre.tail (hc _ hk)))

theorem IsDecided.or
    {c d : List Token → Bool} (hc : IsDecided c) (hd : IsDecided d) :
    IsDecided fun ts => c ts || d ts := by
  intro pre rest rest' hpre
  dsimp only
  rw [hc pre rest rest' hpre, hd pre rest rest' hpre]

/-- A look at one token and then at the one behind it, which only the first may call for. -/
theorem isDecided_two
    {c d : Option TokenKind → Bool} (hc : ∀ k, c (some k) = true → isBound k = false) :
    IsDecided fun ts => c (headKind ts) && d (headKind (ts.drop 1)) :=
  (isDecided_head d).behind hc

section

variable {c : List Token → Bool} {r p q : Parse α}

theorem Carries.ite
    [hdrops : Drops r] (hc : IsDecided c) (hr : ∀ ctx ts, r ctx ts = if c ts then p ctx ts else q ctx ts)
    (hp : Carries p) (hq : Carries q) :
    Carries r where
  carried {ctx pre mid rest rest' a} hmid h := by
    have hpre := hmid.of_suffix (suffix_of_append (hdrops.suffix h))
    rw [hr] at h ⊢
    rw [hc _ rest _ hpre]
    split at h
    · rename_i htrue
      rw [if_pos htrue]
      exact hp.carried hmid h
    · rename_i hfalse
      rw [if_neg hfalse]
      exact hq.carried hmid h

theorem Ends.ite
    (hc : IsDecided c) (hr : ∀ ctx ts, r ctx ts = if c ts then p ctx ts else q ctx ts)
    (hp : Ends p) (hq : Ends q) :
    Ends r where
  ended {ctx pre rest a} h hne := by
    rw [hr] at h
    split at h
    · rename_i htrue
      obtain ⟨hbounded, hcarried⟩ := hp.ended h hne
      refine ⟨hbounded, fun hrest => ?_⟩
      rw [hr, hc _ rest _ hbounded, if_pos htrue]
      exact hcarried hrest
    · rename_i hfalse
      obtain ⟨hbounded, hcarried⟩ := hq.ended h hne
      refine ⟨hbounded, fun hrest => ?_⟩
      rw [hr, hc _ rest _ hbounded, if_neg hfalse]
      exact hcarried hrest

end

/-! ## Readers as instances -/

-- A reader with many branches is a large instance.
set_option synthInstance.maxSize 100000

theorem TakesNothing.carries
    {p : Parse α} [hnothing : TakesNothing p]
    (hp : ∀ {ctx pre rest rest' a}, IsBounded pre → p ctx (pre ++ rest) = .ok (a, pre ++ rest) →
      p ctx (pre ++ rest') = .ok (a, pre ++ rest')) :
    Carries p where
  carried hmid h := by
    obtain rfl := List.append_cancel_right (hnothing.same h)
    exact hp hmid h

/-- What is seen of the next token, or of none. -/
theorem Carries.of_head
    {p : Parse α} {f : ParseContext → Option Token → α}
    (h : ∀ ctx ts, p ctx ts = .ok (f ctx ts.head?, ts)) :
    Carries p where
  carried {ctx pre mid rest rest' a} hmid hp := by
    rw [h] at hp ⊢
    obtain ⟨rfl, heq⟩ := Prod.mk.inj (Except.ok.inj hp)
    obtain rfl := List.append_cancel_right heq
    cases pre with
    | nil => exact absurd rfl hmid.ne_nil
    | cons t pre => rfl

/-- A reader that takes nothing does not come to the end of any token. -/
instance (priority := low) (p : Parse α) [hnothing : TakesNothing p] : Ends p where
  ended h hne := absurd (List.self_eq_append_left.1 (hnothing.same h)) hne

theorem Carries.of_decided
    {p : Parse Bool} {c : List Token → Bool} (hc : IsDecided c)
    (h : ∀ ctx ts, p ctx ts = .ok (c ts, ts)) :
    Carries p where
  carried {ctx pre mid rest rest' a} hmid hp := by
    rw [h] at hp ⊢
    obtain ⟨rfl, heq⟩ := Prod.mk.inj (Except.ok.inj hp)
    obtain rfl := List.append_cancel_right heq
    rw [hc pre rest rest' hmid]

instance (a : α) : TakesNothing (pure a : Parse α) :=
  ⟨fun h => by cases h; rfl⟩

instance : TakesNothing line :=
  ⟨fun h => by cases h; rfl⟩

instance (n : Nat) : TakesNothing (peek n) :=
  ⟨fun h => by cases h; rfl⟩

instance (p : Punct) (n : Nat) : TakesNothing (sees p n) :=
  ⟨fun h => by cases h; rfl⟩

instance (word : String) (n : Nat) : TakesNothing (seesKeyword word n) :=
  ⟨fun h => by cases h; rfl⟩

instance (n : Nat) : TakesNothing (seesIdent n) :=
  ⟨fun h => by cases h; rfl⟩

instance (feature : Feature) (line : Nat) : TakesNothing (require feature line) where
  same h := by
    unfold require at h
    split at h <;> cases h
    rfl

instance (a : α) : Carries (pure a : Parse α) :=
  .of_head (f := fun _ _ => a) fun _ _ => rfl

instance : Carries line :=
  .of_head (f := fun ctx t => (t.map (·.line)).getD ctx.endLine) fun _ _ => rfl

instance (feature : Feature) (line : Nat) : Carries (require feature line) :=
  TakesNothing.carries fun {ctx pre rest rest' a} _ h => by
    unfold require at h ⊢
    split at h
    · rename_i hsupports
      rw [if_pos hsupports]
    · cases h

instance : Carries peek :=
  .of_head (f := fun _ t => t.map (·.kind)) fun _ ts => by cases ts <;> rfl

instance (p : Punct) : Carries (sees p) :=
  .of_head (f := fun _ t => t.map (·.kind) == some (.punct p)) fun _ ts => by cases ts <;> rfl

instance (word : String) : Carries (seesKeyword word) :=
  .of_head (f := fun _ t => (t.map (·.kind)).bind TokenKind.keyword? == some word)
    fun _ ts => by cases ts <;> rfl

instance : Carries seesIdent :=
  .of_head (f := fun _ t => ((t.map (·.kind)).bind TokenKind.ident?).isSome)
    fun _ ts => by cases ts <;> rfl

section

variable (p q : Parse α) (f : α → Parse β)

instance [Drops p] [∀ a, Drops (f a)] [hp : Carries p] [hf : ∀ a, Carries (f a)] :
    Carries (p >>= f) :=
  .bind hp hf

instance [TakesNothing p] [hp : Carries p] [hf : ∀ a, Ends (f a)] : Ends (p >>= f) :=
  .bind_nothing hp hf

instance [Drops p] [∀ a, Drops (f a)] [∀ a, Eats (f a)] [hp : Carries p] [hf : ∀ a, Ends (f a)] :
    Ends (p >>= f) :=
  .bind_eats hp hf

instance (priority := low) [Drops p] [∀ a, Drops (f a)] [hcarries : Carries p] [hp : Ends p]
    [hf : ∀ a, Ends (f a)] [hidles : ∀ a, Idles (f a)] : Ends (p >>= f) :=
  .bind_idles hcarries hp hf hidles

instance (c : Prop) [Decidable c] [hp : Carries p] [hq : Carries q] :
    Carries (if c then p else q) := by
  split
  · exact hp
  · exact hq

instance (c : Prop) [Decidable c] [hp : Ends p] [hq : Ends q] : Ends (if c then p else q) := by
  split
  · exact hp
  · exact hq

instance (fault : Fault) : Carries (fail fault : Parse α) :=
  ⟨fun _ => nofun⟩

instance (fault : Fault) : Ends (fail fault : Parse α) :=
  ⟨nofun⟩

/-! What would follow a failure is not read. -/

instance (fault : Fault) : Carries (fail fault >>= f) :=
  ⟨fun _ => nofun⟩

instance (fault : Fault) : Ends (fail fault >>= f) :=
  ⟨nofun⟩

end

section

variable (init : σ) (step : σ → Parse (Round σ β)) [∀ s, Drops (step s)]

instance [∀ s, EatsAgain (step s)] [hstep : ∀ s, Carries (step s)] : Carries (loop init step) :=
  .loop hstep

instance [∀ s, Eats (step s)] [hcarries : ∀ s, Carries (step s)] [hstep : ∀ s, Ends (step s)] :
    Ends (loop init step) :=
  .loop hcarries hstep

end

/-- The bound that the tokens give makes no difference, so neither does their number. -/
instance (p : Nat → Parse α) [hp : ∀ depth, Carries (p depth)] [hbound : IgnoresBound p] :
    Carries (nested p) where
  carried hmid h :=
    (hbound.enough (Nat.lt_succ_self _) _).reads (Nat.le_refl _) ((hp _).carried hmid h)

instance (p : Nat → Parse α) [hp : ∀ depth, Ends (p depth)] [hbound : IgnoresBound p] :
    Ends (nested p) where
  ended h hne := by
    obtain ⟨hbounded, hcarried⟩ := (hp _).ended h hne
    exact ⟨hbounded, fun hrest =>
      (hbound.enough (Nat.lt_succ_self _) _).reads (Nat.le_refl _) (hcarried hrest)⟩

/-! ### Looks at two tokens -/

/-- A look at the next token that is interested in no mark that ends a declaration. -/
class Guards (p : Parse Bool) : Prop where
  exists_kind : ∃ c : Option TokenKind → Bool, (∀ ctx ts, p ctx ts = .ok (c (headKind ts), ts)) ∧
    ∀ k, c (some k) = true → isBound k = false

/-- A look at the token behind the next one. -/
class LooksBehind (p : Parse Bool) : Prop where
  exists_kind : ∃ c : Option TokenKind → Bool, ∀ ctx ts, p ctx ts = .ok (c (headKind (ts.drop 1)), ts)

theorem isBound_of_ident?
    {k : TokenKind} (h : (TokenKind.ident? k).isSome = true) :
    isBound k = false := by
  cases k with
  | ident => rfl
  | str | character | number | punct => cases h

theorem isBound_of_keyword?
    {k : TokenKind} {word : String} (h : TokenKind.keyword? k = some word) :
    isBound k = false := by
  cases k with
  | ident => rfl
  | str | character | number | punct => cases h

instance (word : String) : Guards (seesKeyword word) where
  exists_kind := by
    refine ⟨fun k => k.bind TokenKind.keyword? == some word, fun ctx ts => ?_, fun k hk => ?_⟩
    · exact @seesKeyword_bind Bool ctx ts word 0 pure
    · exact isBound_of_keyword? (beq_iff_eq.1 hk)

instance : Guards seesIdent where
  exists_kind := by
    refine ⟨fun k => (k.bind TokenKind.ident?).isSome, fun ctx ts => ?_, fun k hk => ?_⟩
    · exact @seesIdent_bind Bool ctx ts 0 pure
    · exact isBound_of_ident? hk

/-- A mark that ends no declaration. -/
theorem Guards.sees
    {p : Punct} (hp : isBound (.punct p) = false) :
    Guards (Parse.sees p) where
  exists_kind := by
    refine ⟨fun k => k == some (.punct p), fun ctx ts => ?_, fun k hk => ?_⟩
    · exact @sees_bind Bool ctx ts p 0 pure
    · obtain rfl := Option.some.inj (beq_iff_eq.1 hk)
      exact hp

instance : Guards (sees .less) :=
  .sees rfl

instance : Guards (sees .dot) :=
  .sees rfl

instance : Guards (sees .doubleColon) :=
  .sees rfl

instance (p : Punct) : LooksBehind (sees p 1) :=
  ⟨fun k => k == some (.punct p), fun ctx ts => @sees_bind Bool ctx ts p 1 pure⟩

instance (word : String) : LooksBehind (seesKeyword word 1) :=
  ⟨fun k => k.bind TokenKind.keyword? == some word,
    fun ctx ts => @seesKeyword_bind Bool ctx ts word 1 pure⟩

instance : LooksBehind (seesIdent 1) :=
  ⟨fun k => (k.bind TokenKind.ident?).isSome, fun ctx ts => @seesIdent_bind Bool ctx ts 1 pure⟩

section

variable (a a' b b' : Parse Bool) (p q : Parse α) [ha : Guards a] [ha' : Guards a']
  [hb : LooksBehind b] [hb' : LooksBehind b']

/-- What a reader does that looks at two tokens, and whether bounded tokens decide it. -/
theorem exists_both :
    ∃ c, IsDecided c ∧ ∀ {β : Type} {ctx ts} (p q : Parse β),
      (do if (← a) && (← b) then p else q) ctx ts = if c ts then p ctx ts else q ctx ts := by
  obtain ⟨c, hc, hguards⟩ := ha.exists_kind
  obtain ⟨d, hd⟩ := hb.exists_kind
  refine ⟨_, isDecided_two (d := d) hguards, fun p q => ?_⟩
  rw [bind_of_ok (hc _ _), bind_of_ok (hd _ _), ite_apply]

theorem exists_eitherBoth :
    ∃ c, IsDecided c ∧ ∀ {β : Type} {ctx ts} (p q : Parse β),
      (do if ((← a) || (← a')) && (← b) then p else q) ctx ts =
        if c ts then p ctx ts else q ctx ts := by
  obtain ⟨c, hc, hguards⟩ := ha.exists_kind
  obtain ⟨c', hc', hguards'⟩ := ha'.exists_kind
  obtain ⟨d, hd⟩ := hb.exists_kind
  refine ⟨_, isDecided_two (c := fun k => c k || c' k) (d := d) (fun k hk => ?_), fun p q => ?_⟩
  · exact (Bool.or_eq_true_iff.1 hk).elim (hguards k) (hguards' k)
  · rw [bind_of_ok (hc _ _), bind_of_ok (hc' _ _), bind_of_ok (hd _ _), ite_apply]

theorem exists_bothEither :
    ∃ c, IsDecided c ∧ ∀ {β : Type} {ctx ts} (p q : Parse β),
      (do if (← a) && ((← b) || (← b')) then p else q) ctx ts =
        if c ts then p ctx ts else q ctx ts := by
  obtain ⟨c, hc, hguards⟩ := ha.exists_kind
  obtain ⟨d, hd⟩ := hb.exists_kind
  obtain ⟨d', hd'⟩ := hb'.exists_kind
  refine ⟨_, isDecided_two (d := fun k => d k || d' k) hguards, fun p q => ?_⟩
  rw [bind_of_ok (hc _ _), bind_of_ok (hd _ _), bind_of_ok (hd' _ _), ite_apply]

section

variable [hp : Carries p] [hq : Carries q] [Drops p] [Drops q] [Drops a] [Drops a'] [Drops b] [Drops b']

instance : Carries (do if (← a) && (← b) then p else q) := by
  obtain ⟨c, hc, hr⟩ := exists_both a b
  exact .ite hc (fun _ _ => hr p q) hp hq

instance : Carries (do if ((← a) || (← a')) && (← b) then p else q) := by
  obtain ⟨c, hc, hr⟩ := exists_eitherBoth a a' b
  exact .ite hc (fun _ _ => hr p q) hp hq

instance : Carries (do if (← a) && ((← b) || (← b')) then p else q) := by
  obtain ⟨c, hc, hr⟩ := exists_bothEither a b b'
  exact .ite hc (fun _ _ => hr p q) hp hq

end

variable [hp : Ends p] [hq : Ends q]

instance : Ends (do if (← a) && (← b) then p else q) := by
  obtain ⟨c, hc, hr⟩ := exists_both a b
  exact .ite hc (fun _ _ => hr p q) hp hq

instance : Ends (do if (← a) && ((← b) || (← b')) then p else q) := by
  obtain ⟨c, hc, hr⟩ := exists_bothEither a b b'
  exact .ite hc (fun _ _ => hr p q) hp hq

end

section

variable (z a b : Parse Bool) (p q r : Parse α) [ha : Guards a] [hb : LooksBehind b]

/-- A look that is only asked for in one branch may as well be taken there. -/
theorem look_in_branch :
    (z >>= fun chosen => a >>= fun first => b >>= fun second =>
      if chosen then p else if first && second then q else r) =
      (z >>= fun chosen => if chosen then p else do if (← a) && (← b) then q else r) := by
  obtain ⟨c, hc, -⟩ := ha.exists_kind
  obtain ⟨d, hd⟩ := hb.exists_kind
  refine congrArg _ (funext fun chosen => funext fun ctx => funext fun ts => ?_)
  rw [bind_of_ok (hc _ _), bind_of_ok (hd _ _)]
  cases chosen with
  | true => rfl
  | false => exact ((bind_of_ok (hc _ _)).trans (bind_of_ok (hd _ _))).symm

variable [Drops z] [Drops a] [Drops b] [Drops p] [Drops q] [Drops r] [Carries z]

instance [Carries p] [Carries q] [Carries r] :
    Carries (z >>= fun chosen => a >>= fun first => b >>= fun second =>
      if chosen then p else if first && second then q else r) := by
  rw [look_in_branch]
  infer_instance

instance [TakesNothing z] [Ends p] [Ends q] [Ends r] :
    Ends (z >>= fun chosen => a >>= fun first => b >>= fun second =>
      if chosen then p else if first && second then q else r) := by
  rw [look_in_branch]
  infer_instance

end

section

/-- A look for a name that a parenthesis follows. -/
theorem exists_called
    (name : String) :
    ∃ c, IsDecided c ∧ ∀ {β : Type} {ctx ts} (p q : Parse β),
      (do if ((← peek).bind TokenKind.ident? == some name) && (← sees .openParen 1) then p else q)
        ctx ts = if c ts then p ctx ts else q ctx ts := by
  refine ⟨_, isDecided_two (c := fun k => k.bind TokenKind.ident? == some name)
    (d := fun k => k == some (.punct .openParen)) (fun k hk => ?_), fun p q => ?_⟩
  · refine isBound_of_ident? ?_
    rw [Option.isSome_iff_exists]
    exact ⟨name, beq_iff_eq.1 hk⟩
  · rw [peek_bind, sees_bind, ite_apply]
    rfl

variable (name : String) (p q : Parse α)

instance [hp : Carries p] [hq : Carries q] [Drops p] [Drops q] :
    Carries (do
      if ((← peek).bind TokenKind.ident? == some name) && (← sees .openParen 1) then p else q) := by
  obtain ⟨c, hc, hr⟩ := exists_called name
  exact .ite hc (fun _ _ => hr p q) hp hq

instance [hp : Ends p] [hq : Ends q] :
    Ends (do
      if ((← peek).bind TokenKind.ident? == some name) && (← sees .openParen 1) then p else q) := by
  obtain ⟨c, hc, hr⟩ := exists_called name
  exact .ite hc (fun _ _ => hr p q) hp hq

end

/-! ### Tokens that are taken -/

/-- Tokens that are dropped are among those that are not left. -/
theorem drop_append_cancel
    {n : Nat} {pre mid rest : List Token} (hmid : mid ≠ [])
    (h : (pre ++ rest).drop n = mid ++ rest) (rest' : List Token) :
    (pre ++ rest').drop n = mid ++ rest' := by
  have hlen := congrArg List.length h
  have hpos := List.length_pos_iff.2 hmid
  simp only [List.length_drop, List.length_append] at hlen
  rw [List.drop_append_of_le_length (by omega)] at h ⊢
  rw [List.append_cancel_right h]

instance (n : Nat) : Carries (advance n) where
  carried hmid h := by
    obtain ⟨rfl, hdrop⟩ := Prod.mk.inj (Except.ok.inj h)
    exact congrArg (fun ts => Except.ok ((), ts)) (drop_append_cancel hmid.ne_nil hdrop _)

instance (p : Punct) : Carries (accept p) := by
  unfold accept
  infer_instance

instance (p : Punct) : Carries (expect p) := by
  unfold expect
  infer_instance

theorem ident_eq_ok
    {ctx : ParseContext} {ts rest : List Token} {w : String} :
    ident ctx ts = .ok (w, rest) ↔ ∃ b l, ts = ⟨.ident w b, l⟩ :: rest := by
  have hbind := @ident_bind String ctx ts pure
  rw [bind_pure] at hbind
  rw [hbind]
  cases ts with
  | nil => simp
  | cons t ts =>
    obtain ⟨kind, l⟩ := t
    cases kind <;> simp [TokenKind.ident?, eq_comm, and_comm]

instance : Carries ident where
  carried {ctx pre mid rest rest' w} hmid h := by
    obtain ⟨b, l, heq⟩ := ident_eq_ok.1 h
    rw [← List.cons_append] at heq
    obtain rfl := List.append_cancel_right heq
    exact ident_eq_ok.2 ⟨b, l, rfl⟩

/-- A mark that ends a declaration. -/
class BoundMark (p : Punct) : Prop where
  isBound : isBound (.punct p) = true

instance : BoundMark .semicolon :=
  ⟨rfl⟩

instance : BoundMark .openBrace :=
  ⟨rfl⟩

instance : BoundMark .closeBrace :=
  ⟨rfl⟩

instance : BoundMark .closeBracket :=
  ⟨rfl⟩

instance (p : Punct) [hp : BoundMark p] : Ends (expect p) where
  ended {ctx pre rest a} h hne := by
    obtain ⟨l, heq⟩ := expect_eq_ok.1 h
    obtain rfl : pre = [⟨.punct p, l⟩] := List.append_cancel_right (heq.trans rfl)
    exact ⟨.single hp.isBound, fun _ => expect_eq_ok.2 ⟨l, rfl⟩⟩

instance (p : Punct) (f : Bool → Parse β) [hp : BoundMark p] [ht : Ends (f true)]
    [hidles : Idles (f true)] [hf : Ends (f false)] : Ends (accept p >>= f) where
  ended {ctx pre rest a} h hne := by
    rw [accept_bind] at h
    split at h
    · rename_i hhead
      cases pre with
      | nil => exact absurd rfl hne
      | cons t pre =>
        have hbound : isBound t.kind = true := by
          have hkind : t.kind = .punct p := Option.some.inj hhead
          rw [hkind]
          exact hp.isBound
        by_cases hpre : pre = []
        · subst hpre
          refine ⟨.single hbound, fun {rest'} hrest => ?_⟩
          have hhead' : headKind ([t] ++ rest') = some (.punct p) := hhead
          rw [accept_bind, if_pos hhead']
          exact hidles.idle hrest h
        · obtain ⟨hbounded, hcarried⟩ := ht.ended h hpre
          refine ⟨hbounded.cons, fun {rest'} hrest => ?_⟩
          have hhead' : headKind (t :: pre ++ rest') = some (.punct p) := hhead
          rw [accept_bind, if_pos hhead']
          exact hcarried hrest
    · rename_i hhead
      obtain ⟨hbounded, hcarried⟩ := hf.ended h hne
      refine ⟨hbounded, fun hrest => ?_⟩
      rw [accept_bind, if_neg (hbounded.headKind_append rest _ ▸ hhead)]
      exact hcarried hrest

/-- A mark that is seen can be taken. -/
instance (p : Punct) (feature : Feature) (line : Nat) (a : α) (q : Parse α) [hp : BoundMark p]
    [hq : Ends q] :
    Ends (do
      if ← sees p then
        require feature line
        advance
        return a
      else q) where
  ended {ctx pre rest b} h hne := by
    simp only [sees_bind, List.drop_zero, ite_apply, beq_iff_eq] at h ⊢
    split at h
    · rename_i hhead
      obtain ⟨_, mid, hrequire, h⟩ := bind_eq_ok.1 h
      obtain rfl := TakesNothing.same hrequire
      obtain ⟨rfl, hdrop⟩ := pure_eq_ok.1 h
      cases pre with
      | nil => exact absurd rfl hne
      | cons t pre =>
        obtain rfl : pre = [] := List.append_left_eq_self.1 hdrop
        have hkind : t.kind = .punct p := Option.some.inj hhead
        have hbound : isBound t.kind = true := by
          rw [hkind]
          exact hp.isBound
        refine ⟨.single hbound, fun {rest'} _ => ?_⟩
        have hhead' : headKind ([t] ++ rest') = some (.punct p) := hhead
        have hrequire' : require feature line ctx ([t] ++ rest') = .ok (_, [t] ++ rest') :=
          Carries.carried (.single hbound) hrequire
        rw [if_pos hhead', bind_of_ok hrequire']
        rfl
    · rename_i hhead
      obtain ⟨hbounded, hcarried⟩ := hq.ended h hne
      refine ⟨hbounded, fun hrest => ?_⟩
      rw [if_neg (hbounded.headKind_append rest _ ▸ hhead)]
      exact hcarried hrest

/-! ### Tokens that are passed over -/

theorem dropWhile_carried
    {P : Token → Bool} {pre mid rest : List Token} (hmid : mid ≠ [])
    (h : (pre ++ rest).dropWhile P = mid ++ rest) (rest' : List Token) :
    (pre ++ rest').dropWhile P = mid ++ rest' := by
  induction pre with
  | nil =>
    have hlen := (List.dropWhile_suffix (l := rest) P).length_le
    have hpos := List.length_pos_iff.2 hmid
    rw [List.nil_append] at h
    rw [h, List.length_append] at hlen
    omega
  | cons t pre ih =>
    rw [List.cons_append, List.dropWhile_cons] at h ⊢
    split at h
    · rename_i ht
      rw [if_pos ht]
      exact ih h
    · rename_i ht
      rw [← List.cons_append] at h
      rw [if_neg ht, ← List.cons_append, List.append_cancel_right h]

instance (allowed : List String) : Carries (keywords allowed) where
  carried {ctx pre mid rest rest' a} hmid h := by
    obtain ⟨rfl, hdrop⟩ := Prod.mk.inj (Except.ok.inj h)
    have hdrop' := dropWhile_carried hmid.ne_nil hdrop rest'
    -- What is in front of the tokens that are left is the same.
    have htake : ∀ {rest}, (pre ++ rest).dropWhile _ = mid ++ rest →
        (pre ++ rest).takeWhile (fun t : Token => t.kind.keyword?.any allowed.contains) ++ mid = pre :=
      fun {rest} h => by
        have hsplit := List.takeWhile_append_dropWhile
          (p := fun t : Token => t.kind.keyword?.any allowed.contains) (l := pre ++ rest)
        rw [h, ← List.append_assoc] at hsplit
        exact List.append_cancel_right hsplit
    have hsame := List.append_cancel_right ((htake hdrop').trans (htake hdrop).symm)
    exact congrArg Except.ok (Prod.ext (congrArg (List.filterMap (·.kind.keyword?)) hsame) hdrop')

instance (marks : List Punct) (fault : Fault) : Carries (dropUntil marks fault) where
  carried {ctx pre mid rest rest' a} hmid h := by
    unfold dropUntil at h ⊢
    dsimp only at h ⊢
    split at h
    · cases h
    · obtain ⟨-, hdrop⟩ := Prod.mk.inj (Except.ok.inj h)
      rw [dropWhile_carried hmid.ne_nil hdrop rest', if_neg]
      simp [hmid.ne_nil]

theorem closeGroups_carried
    {endLine : Nat} {stack : List Punct} {pre mid rest : List Token}
    (h : closeGroups endLine stack (pre ++ rest) = .ok (mid ++ rest)) (rest' : List Token) :
    closeGroups endLine stack (pre ++ rest') = .ok (mid ++ rest') := by
  induction pre generalizing stack with
  | nil =>
    have hlen := closeGroups_shorter h
    simp only [List.nil_append, List.length_append] at hlen
    omega
  | cons t pre ih =>
    rw [List.cons_append, closeGroups] at h ⊢
    split at h
    · cases h
    · rw [List.append_cancel_right (Except.ok.inj h)]
    · exact ih h

/-- A token that closes the last group is a mark that ends one. -/
theorem isBound_of_nest
    {stack : List Punct} {t : Token} (h : nest stack t = .ok []) :
    isBound t.kind = true := by
  unfold nest at h
  cases ht : t.kind with
  | punct p =>
    rw [ht] at h
    dsimp only at h
    split at h
    · cases h
    · split at h
      · rename_i hcloser
        revert hcloser
        cases p <;> first | exact fun _ => rfl | exact fun hcloser => nomatch hcloser
      · split at h
        · cases h
        · rename_i hstack
          cases h
          exact absurd rfl hstack
  | ident | str | character | number =>
    rw [ht] at h
    dsimp only at h
    split at h
    · cases h
    · rename_i hstack
      cases h
      exact absurd rfl hstack

theorem isBounded_of_closeGroups
    {endLine : Nat} {stack : List Punct} {pre rest : List Token}
    (h : closeGroups endLine stack (pre ++ rest) = .ok rest) :
    IsBounded pre := by
  induction pre generalizing stack with
  | nil => exact absurd (closeGroups_shorter h) (Nat.lt_irrefl _)
  | cons t pre ih =>
    rw [List.cons_append, closeGroups] at h
    split at h
    · cases h
    · rename_i hnest
      obtain rfl : pre = [] := List.append_cancel_right (Except.ok.inj h)
      exact .single (isBound_of_nest hnest)
    · exact (ih h).cons

instance : Carries skipGroup where
  carried _ h := skipGroup_eq_ok.2 (closeGroups_carried (skipGroup_eq_ok.1 h) _)

instance : Ends skipGroup where
  ended {ctx pre rest a} h _ := by
    have hclose : closeGroups ctx.endLine [] (pre ++ rest) = .ok ([] ++ rest) := skipGroup_eq_ok.1 h
    exact ⟨isBounded_of_closeGroups hclose, fun _ => skipGroup_eq_ok.2 (closeGroups_carried hclose _)⟩

theorem dropToMark_carried
    {marks : List Punct} {endLine : Nat} {stack : List Punct} {pre mid rest : List Token}
    (hmid : mid ≠ []) (h : dropToMark marks endLine stack (pre ++ rest) = .ok (mid ++ rest))
    (rest' : List Token) :
    dropToMark marks endLine stack (pre ++ rest') = .ok (mid ++ rest') := by
  induction pre generalizing stack with
  | nil =>
    have hlen := (dropToMark_suffix h).length_le
    have hpos := List.length_pos_iff.2 hmid
    simp only [List.nil_append, List.length_append] at hlen
    omega
  | cons t pre ih =>
    rw [List.cons_append] at h ⊢
    cases stack with
    | nil =>
      rw [dropToMark] at h ⊢
      split at h
      · rename_i hopens
        rw [if_pos hopens]
        split at h
        · cases h
        · exact ih h
      · rename_i hopens
        rw [if_neg hopens]
        split at h
        · rename_i hmark
          rw [← List.cons_append] at h
          rw [if_pos hmark, ← List.cons_append, List.append_cancel_right (Except.ok.inj h)]
        · rename_i hmark
          rw [if_neg hmark]
          exact ih h
    | cons closer outer =>
      rw [dropToMark] at h ⊢
      split at h
      · cases h
      · exact ih h

instance (marks : List Punct) : Carries (skipTo marks) where
  carried hmid h := skipTo_eq_ok.2 (dropToMark_carried hmid.ne_nil (skipTo_eq_ok.1 h) _)

theorem dropTypeSuffixes_carried
    {endLine : Nat} {inRank : Bool} {pre mid rest : List Token} (hmid : IsBounded mid)
    (h : dropTypeSuffixes endLine inRank (pre ++ rest) = .ok (mid ++ rest)) (rest' : List Token) :
    dropTypeSuffixes endLine inRank (pre ++ rest') = .ok (mid ++ rest') := by
  have hbounded := hmid.of_suffix (suffix_of_append (dropTypeSuffixes_suffix h))
  induction pre generalizing inRank with
  | nil => exact absurd rfl hbounded.ne_nil
  | cons t pre ih =>
    have hnext : ∀ {next}, dropTypeSuffixes endLine next (pre ++ rest) = .ok (mid ++ rest) →
        dropTypeSuffixes endLine next (pre ++ rest') = .ok (mid ++ rest') := fun hnext =>
      ih hnext (hmid.of_suffix (suffix_of_append (dropTypeSuffixes_suffix hnext)))
    have hstop : Except.ok (t :: (pre ++ rest)) = (.ok (mid ++ rest) : Except Diagnostic _) →
        Except.ok (t :: (pre ++ rest')) = (.ok (mid ++ rest') : Except Diagnostic _) := by
      intro hstop
      have heq : t :: pre ++ rest = mid ++ rest := Except.ok.inj hstop
      rw [← List.append_cancel_right heq]
      rfl
    rw [List.cons_append] at h ⊢
    cases inRank with
    | true =>
      rw [dropTypeSuffixes] at h ⊢
      split at h
      · exact hnext h
      · exact hnext h
      · cases h
    | false =>
      rw [dropTypeSuffixes] at h ⊢
      split at h
      · exact hnext h
      · exact hnext h
      · rename_i hkind
        -- A bracket ends no declaration, so the token behind it is one of those too.
        obtain ⟨u, us, rfl⟩ := List.exists_cons_of_ne_nil (hbounded.tail (by rw [hkind]; rfl)).ne_nil
        split at h
        · rename_i hrank
          exact (if_pos hrank).trans (hnext h)
        · rename_i hrank
          exact (if_neg hrank).trans (hstop h)
      · exact hstop h

instance : Carries typeSuffixes where
  carried hmid h := typeSuffixes_eq_ok.2 (dropTypeSuffixes_carried hmid (typeSuffixes_eq_ok.1 h) _)

theorem splitModifiers_carried
    {words : List String} {pre mid rest : List Token} (hmid : IsBounded mid)
    (h : splitModifiers (pre ++ rest) = (words, mid ++ rest)) (rest' : List Token) :
    splitModifiers (pre ++ rest') = (words, mid ++ rest') := by
  have hsuffix := splitModifiers_suffix (pre ++ rest)
  rw [h] at hsuffix
  have hbounded := hmid.of_suffix (suffix_of_append hsuffix)
  induction pre generalizing words with
  | nil => exact absurd rfl hbounded.ne_nil
  | cons t pre ih =>
    have hstop : ([], t :: (pre ++ rest)) = (words, mid ++ rest) →
        ([], t :: (pre ++ rest')) = (words, mid ++ rest') := by
      intro hstop
      obtain ⟨rfl, heq⟩ := Prod.mk.inj hstop
      rw [← List.cons_append] at heq
      rw [← List.append_cancel_right heq]
      rfl
    rw [List.cons_append, splitModifiers] at h ⊢
    split at h
    · exact hstop h
    · rename_i word hword
      -- A keyword ends no declaration, so the token behind it is one of those too.
      have htail := hbounded.tail (isBound_of_keyword? hword)
      obtain ⟨u, us, rfl⟩ := List.exists_cons_of_ne_nil htail.ne_nil
      dsimp only at h ⊢
      split at h
      · rename_i hmodifier
        obtain ⟨rfl, hrest⟩ := Prod.mk.inj h
        have hsplit : splitModifiers (u :: us ++ rest) =
            ((splitModifiers (u :: us ++ rest)).1, mid ++ rest) := Prod.ext rfl hrest
        have hih := ih hsplit (hrest ▸ splitModifiers_suffix _) htail
        refine (if_pos hmodifier).trans ?_
        rw [hih]
      · rename_i hmodifier
        exact (if_neg hmodifier).trans (hstop h)

instance : Carries modifiers where
  carried hmid h := congrArg Except.ok (splitModifiers_carried hmid (Except.ok.inj h) _)

instance (p : Parse α) [hdrops : Drops p] [hp : Carries p] : Carries (withTokens p) where
  carried {ctx pre mid rest rest' x} hmid h := by
    unfold withTokens at h ⊢
    rw [tokens_bind] at h ⊢
    obtain ⟨a, m, ha, h⟩ := bind_eq_ok.1 h
    rw [tokens_bind] at h
    obtain ⟨rfl, rfl⟩ := pure_eq_ok.1 h
    refine bind_eq_ok.2 ⟨a, _, hp.carried hmid ha, ?_⟩
    have hle := (suffix_of_append (hdrops.suffix ha)).length_le
    rw [tokens_bind, pure_apply]
    simp only [List.length_append, Nat.add_sub_add_right, List.take_append_of_le_length (Nat.sub_le _ _)]

instance (ends : List Punct) : Carries (skipExpression ends) where
  carried {ctx pre mid rest rest' a} hmid h := by
    unfold skipExpression at h ⊢
    rw [tokens_bind] at h ⊢
    obtain ⟨_, m, hskip, h⟩ := bind_eq_ok.1 h
    rw [tokens_bind] at h
    split at h
    · cases h
    · rename_i hlen
      obtain ⟨-, rfl⟩ := pure_eq_ok.1 h
      refine bind_eq_ok.2 ⟨_, _, Carries.carried hmid hskip, ?_⟩
      rw [tokens_bind, if_neg]
      · rfl
      · simp only [List.length_append] at hlen ⊢
        omega

instance : Carries skipStatement := by
  unfold skipStatement
  infer_instance

/-- The tokens behind skipped ones start with one of the marks. -/
theorem dropToMark_head
    {marks : List Punct} {endLine : Nat} {stack : List Punct} {ts rest : List Token}
    (h : dropToMark marks endLine stack ts = .ok rest) :
    ∃ p l us, p ∈ marks ∧ rest = ⟨.punct p, l⟩ :: us := by
  induction ts generalizing stack with
  | nil => cases stack <;> cases h
  | cons t ts ih =>
    cases stack with
    | nil =>
      rw [dropToMark] at h
      split at h
      · split at h
        · cases h
        · exact ih h
      · split at h
        · rename_i hmark
          obtain ⟨kind, l⟩ := t
          cases h
          cases kind with
          | punct p => exact ⟨p, l, ts, List.contains_iff_mem.1 hmark, rfl⟩
          | ident | str | character | number => cases hmark
        · exact ih h
    | cons closer outer =>
      rw [dropToMark] at h
      split at h
      · cases h
      · exact ih h

/-- A statement ends with its semicolon. -/
instance : Ends skipStatement where
  ended {ctx pre rest a} h hne := by
    unfold skipStatement at h
    obtain ⟨_, mid, hskip, h⟩ := bind_eq_ok.1 h
    obtain ⟨-, hdrop⟩ := Prod.mk.inj (Except.ok.inj h)
    obtain ⟨p, l, us, hp, rfl⟩ := dropToMark_head (skipTo_eq_ok.1 hskip)
    obtain rfl := List.mem_singleton.1 hp
    obtain rfl : us = rest := hdrop
    have hbounded : IsBounded [⟨.punct .semicolon, l⟩] := .single rfl
    have hsuffix : [⟨.punct .semicolon, l⟩] ++ us <:+ pre ++ us := Drops.suffix hskip
    refine ⟨hbounded.of_suffix (suffix_of_append hsuffix), fun {rest'} _ => ?_⟩
    unfold skipStatement
    have hskip' : skipTo [.semicolon] ctx (pre ++ rest') = .ok (_, [⟨.punct .semicolon, l⟩] ++ rest') :=
      Carries.carried hbounded hskip
    rw [bind_of_ok hskip']
    rfl

/-! ### Readers that may take nothing at the end -/

instance (a : α) : Idles (pure a : Parse α) :=
  ⟨fun _ h => by cases h; rfl⟩

instance (p q : Parse α) [hp : Idles p] : Idles (if true = true then p else q) :=
  hp

instance (p q : Parse α) [hq : Idles q] : Idles (if false = true then p else q) :=
  hq

instance (f : Bool → Parse β) [hdrops : Drops (f true)] [hf : Idles (f false)] :
    Idles (accept .semicolon >>= f) where
  idle {ctx rest rest' a} hrest h := by
    rw [accept_bind] at h
    split at h
    · rename_i hhead
      have hle := hdrops.length_le h
      cases rest with
      | nil => cases hhead
      | cons t rest => exact absurd hle (Nat.not_succ_le_self _)
    · rw [accept_bind, if_neg hrest.2]
      exact hf.idle hrest h

instance (p q : Parse α) [heats : Eats p] [hq : Idles q] :
    Idles (do if ← sees .assign then p else q) where
  idle {ctx rest rest' a} hrest h := by
    simp only [sees_bind, List.drop_zero, ite_apply] at h ⊢
    split at h
    · exact absurd (heats.shorter h) (Nat.lt_irrefl _)
    · rw [if_neg (by simpa using hrest.1)]
      exact hq.idle hrest h

end Parse
end CSharp
end ContentModels

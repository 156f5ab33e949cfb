import ContentModels.CSharp.Parse.Unit

/-!
# Steps of readers

A reader is a chain of small steps, most of which look at the kind of one of the next
tokens.  The lemmas here say what each step does with the tokens that are left, both
ways: a chain succeeds exactly if its steps do, and a loop that succeeds has gone through
its rounds.  What a reader reads is stated by `Reads`: it takes tokens of certain kinds,
wherever they stand, and leaves alone what follows them.
-/

namespace ContentModels
namespace CSharp

/-- The kind of the next token. -/
def headKind (ts : List Token) : Option TokenKind :=
  ts.head?.map (·.kind)

@[simp] theorem headKind_nil :
    headKind [] = none := by
  rfl

@[simp] theorem headKind_cons
    (t : Token) (ts : List Token) :
    headKind (t :: ts) = some t.kind := by
  rfl

/-- The kinds of tokens. -/
def kindsOf (ts : List Token) : List TokenKind :=
  ts.map (·.kind)

@[simp] theorem kindsOf_nil :
    kindsOf [] = [] := by
  rfl

@[simp] theorem kindsOf_cons
    (t : Token) (ts : List Token) :
    kindsOf (t :: ts) = t.kind :: kindsOf ts := by
  rfl

@[simp] theorem kindsOf_append
    (ts us : List Token) :
    kindsOf (ts ++ us) = kindsOf ts ++ kindsOf us := by
  simp [kindsOf]

@[simp] theorem length_kindsOf
    (ts : List Token) :
    (kindsOf ts).length = ts.length := by
  simp [kindsOf]

@[simp] theorem kindsOf_eq_nil
    {ts : List Token} :
    kindsOf ts = [] ↔ ts = [] := by
  simp [kindsOf]

theorem kindsOf_eq_cons
    {ts : List Token} {k : TokenKind} {ks : List TokenKind} :
    kindsOf ts = k :: ks ↔ ∃ line us, ts = ⟨k, line⟩ :: us ∧ kindsOf us = ks := by
  cases ts with
  | nil => simp
  | cons t ts =>
    obtain ⟨kind, line⟩ := t
    simp only [kindsOf_cons, List.cons.injEq, Token.mk.injEq]
    constructor
    · rintro ⟨rfl, rfl⟩
      exact ⟨line, ts, ⟨⟨rfl, rfl⟩, rfl⟩, rfl⟩
    · rintro ⟨_, _, ⟨⟨rfl, rfl⟩, rfl⟩, rfl⟩
      exact ⟨rfl, rfl⟩

theorem kindsOf_eq_append
    {ts : List Token} {ks js : List TokenKind} :
    kindsOf ts = ks ++ js ↔ ∃ us vs, ts = us ++ vs ∧ kindsOf us = ks ∧ kindsOf vs = js := by
  simp only [kindsOf, List.map_eq_append_iff]

/-- The kind of a later token among some tokens is the same wherever these stand. -/
theorem headKind_drop
    {toks toks' : List Token} {n : Nat}
    (h : kindsOf toks' = kindsOf toks) (hn : n < toks.length) (rest rest' : List Token) :
    headKind ((toks' ++ rest').drop n) = headKind ((toks ++ rest).drop n) := by
  have hlen : toks'.length = toks.length := by
    simpa using congrArg List.length h
  have hk := congrArg (·[n]?) h
  simp only [kindsOf, List.getElem?_map] at hk
  unfold headKind
  rw [List.head?_drop, List.head?_drop, List.getElem?_append_left (by omega),
    List.getElem?_append_left hn, hk]

theorem headKind_eq_some
    {ts : List Token} {k : TokenKind} :
    headKind ts = some k ↔ ∃ line us, ts = ⟨k, line⟩ :: us := by
  cases ts with
  | nil => simp
  | cons t ts =>
    obtain ⟨kind, line⟩ := t
    simp

namespace Parse

variable {α β σ : Type} {ctx : ParseContext} {ts rest : List Token}

attribute [simp] pure_apply

theorem bind_eq_ok
    {p : Parse α} {f : α → Parse β} {b : β} :
    (p >>= f) ctx ts = .ok (b, rest) ↔
      ∃ a mid, p ctx ts = .ok (a, mid) ∧ f a ctx mid = .ok (b, rest) := by
  rw [bind_apply]
  cases p ctx ts with
  | error d => simp
  | ok r =>
    obtain ⟨a, mid⟩ := r
    constructor
    · intro h
      exact ⟨a, mid, rfl, h⟩
    · rintro ⟨_, _, h, h'⟩
      cases h
      exact h'

theorem pure_eq_ok
    {a b : α} :
    (pure a : Parse α) ctx ts = .ok (b, rest) ↔ a = b ∧ ts = rest := by
  simp [pure_apply]

/-- A chain goes on where its first part stops. -/
theorem bind_of_ok
    {p : Parse α} {f : α → Parse β} {a : α}
    (h : p ctx ts = .ok (a, rest)) :
    (p >>= f) ctx ts = f a ctx rest := by
  rw [bind_apply, h]

@[simp] theorem ite_apply
    {c : Prop} [Decidable c] (p q : Parse α) :
    (if c then p else q) ctx ts = if c then p ctx ts else q ctx ts := by
  split <;> rfl

@[simp] theorem ite_bind_apply
    {c : Prop} [Decidable c] (p q : Parse α) (f : α → Parse β) :
    ((if c then p else q) >>= f) ctx ts = if c then (p >>= f) ctx ts else (q >>= f) ctx ts := by
  split <;> rfl

theorem ite_bind_eq
    {c : Prop} [Decidable c] (p q : Parse α) (f : α → Parse β) :
    ((if c then p else q) >>= f) = if c then p >>= f else q >>= f := by
  split <;> rfl

/-! ## Single steps -/

@[simp] theorem pure_bind_apply
    (a : α) (f : α → Parse β) :
    (pure a >>= f) ctx ts = f a ctx ts := by
  rfl

@[simp] theorem bind_assoc_apply
    {γ : Type} (p : Parse α) (f : α → Parse β) (g : β → Parse γ) :
    ((p >>= f) >>= g) ctx ts = (p >>= fun a => f a >>= g) ctx ts := by
  rw [bind_assoc]

@[simp] theorem tokens_bind
    (f : List Token → Parse β) :
    (tokens >>= f) ctx ts = f ts ctx ts := by
  rfl

@[simp] theorem line_bind
    (f : Nat → Parse β) :
    (line >>= f) ctx ts = f ((ts.head?.map (·.line)).getD ctx.endLine) ctx ts := by
  rfl

@[simp] theorem advance_bind
    (n : Nat) (f : Unit → Parse β) :
    (advance n >>= f) ctx ts = f () ctx (ts.drop n) := by
  rfl

@[simp] theorem peek_bind
    (n : Nat) (f : Option TokenKind → Parse β) :
    (peek n >>= f) ctx ts = f (headKind (ts.drop n)) ctx ts := by
  rw [headKind, List.head?_drop]
  rfl

@[simp] theorem sees_bind
    (p : Punct) (n : Nat) (f : Bool → Parse β) :
    (sees p n >>= f) ctx ts = f (headKind (ts.drop n) == some (.punct p)) ctx ts := by
  unfold sees
  rw [bind_assoc_apply, peek_bind, pure_bind_apply]

@[simp] theorem seesKeyword_bind
    (word : String) (n : Nat) (f : Bool → Parse β) :
    (seesKeyword word n >>= f) ctx ts =
      f ((headKind (ts.drop n)).bind TokenKind.keyword? == some word) ctx ts := by
  unfold seesKeyword
  rw [bind_assoc_apply, peek_bind, pure_bind_apply]

@[simp] theorem seesIdent_bind
    (n : Nat) (f : Bool → Parse β) :
    (seesIdent n >>= f) ctx ts =
      f ((headKind (ts.drop n)).bind TokenKind.ident?).isSome ctx ts := by
  unfold seesIdent
  rw [bind_assoc_apply, peek_bind, pure_bind_apply]

@[simp] theorem advance_apply
    (n : Nat) :
    advance n ctx ts = .ok ((), ts.drop n) := by
  rfl

@[simp] theorem fail_apply
    (fault : Fault) :
    (fail fault : Parse α) ctx ts =
      .error ⟨(ts.head?.map (·.line)).getD ctx.endLine, fault⟩ := by
  rfl

@[simp] theorem fail_bind
    (fault : Fault) (f : α → Parse β) :
    (fail fault >>= f) ctx ts = .error ⟨(ts.head?.map (·.line)).getD ctx.endLine, fault⟩ := by
  rfl

@[simp] theorem accept_bind
    (p : Punct) (f : Bool → Parse β) :
    (accept p >>= f) ctx ts =
      if headKind ts = some (.punct p) then f true ctx (ts.drop 1) else f false ctx ts := by
  unfold accept
  simp only [bind_assoc_apply, sees_bind, List.drop_zero, beq_iff_eq]
  split <;> simp [*]

@[simp] theorem expect_bind
    (p : Punct) (f : Unit → Parse β) :
    (expect p >>= f) ctx ts =
      if headKind ts = some (.punct p) then f () ctx (ts.drop 1)
      else .error ⟨(ts.head?.map (·.line)).getD ctx.endLine, .expected p⟩ := by
  unfold expect
  simp only [bind_assoc_apply, sees_bind, List.drop_zero, beq_iff_eq]
  split <;> simp [*]

@[simp] theorem ident_bind
    (f : String → Parse β) :
    (ident >>= f) ctx ts =
      match (headKind ts).bind TokenKind.ident? with
      | some text => f text ctx (ts.drop 1)
      | none => .error ⟨(ts.head?.map (·.line)).getD ctx.endLine, .identifierExpected⟩ := by
  unfold ident
  simp only [bind_assoc_apply, peek_bind, List.drop_zero]
  cases (headKind ts).bind TokenKind.ident? <;> simp

@[simp] theorem accept_apply
    (p : Punct) :
    accept p ctx ts =
      if headKind ts = some (.punct p) then .ok (true, ts.drop 1) else .ok (false, ts) := by
  have h := @accept_bind Bool ctx ts p pure
  rw [bind_pure] at h
  exact h

@[simp] theorem expect_apply
    (p : Punct) :
    expect p ctx ts =
      if headKind ts = some (.punct p) then .ok ((), ts.drop 1)
      else .error ⟨(ts.head?.map (·.line)).getD ctx.endLine, .expected p⟩ := by
  have h := @expect_bind Unit ctx ts p pure
  rw [bind_pure] at h
  exact h

theorem expect_eq_ok
    {p : Punct} {u : Unit} :
    expect p ctx ts = .ok (u, rest) ↔ ∃ l, ts = ⟨.punct p, l⟩ :: rest := by
  rw [expect_apply]
  cases ts with
  | nil => simp
  | cons t ts =>
    obtain ⟨kind, l⟩ := t
    by_cases h : kind = .punct p
    · simp [h, eq_comm]
    · simp [h]

/-! ## Loops -/

section Loops

variable {step : σ → Parse (Round σ β)} {s s' : σ} {b : β} {mid : List Token}

theorem rounds_succ
    (n : Nat) :
    rounds step (n + 1) s =
      step s >>= fun r =>
        match r with
        | .again s => rounds step n s
        | .done b => pure b := by
  rfl

/-- Further rounds may be allowed. -/
theorem rounds_mono
    {n m : Nat}
    (h : rounds step n s ctx ts = .ok (b, rest)) (hnm : n ≤ m) :
    rounds step m s ctx ts = .ok (b, rest) := by
  induction n generalizing m s ts with
  | zero => cases h
  | succ n ih =>
    obtain ⟨k, rfl⟩ : ∃ k, m = k + 1 := ⟨m - 1, by omega⟩
    rw [rounds_succ, bind_eq_ok] at h ⊢
    obtain ⟨r, mid, hstep, hr⟩ := h
    refine ⟨r, mid, hstep, ?_⟩
    cases r with
    | again s' => exact ih hr (by omega)
    | done b' => exact hr

/-- A loop ends with a round that is the last one. -/
theorem loop_of_done
    (h : step s ctx ts = .ok (.done b, rest)) :
    loop s step ctx ts = .ok (b, rest) := by
  unfold loop
  rw [rounds_succ, bind_of_ok h]
  rfl

/-- A loop goes on after a round that asks for another one. -/
theorem loop_of_again
    (h : step s ctx ts = .ok (.again s', mid)) (hlt : mid.length < ts.length)
    (h' : loop s' step ctx mid = .ok (b, rest)) :
    loop s step ctx ts = .ok (b, rest) := by
  unfold loop at h' ⊢
  rw [rounds_succ, bind_of_ok h]
  exact rounds_mono h' (by omega)

/--
What holds before the last round and is kept by going back a round holds where rounds that
end start.
-/
theorem rounds_induction
    {motive : σ → List Token → Prop} {n : Nat}
    (h : rounds step n s ctx ts = .ok (b, rest))
    (done : ∀ s ts, step s ctx ts = .ok (.done b, rest) → motive s ts)
    (again : ∀ s ts s' mid, step s ctx ts = .ok (.again s', mid) → motive s' mid → motive s ts) :
    motive s ts := by
  induction n generalizing s ts with
  | zero => cases h
  | succ n ih =>
    rw [rounds_succ, bind_eq_ok] at h
    obtain ⟨r, mid, hstep, hr⟩ := h
    cases r with
    | again s' => exact again s ts s' mid hstep (ih hr)
    | done b' =>
      obtain ⟨rfl, rfl⟩ := pure_eq_ok.1 hr
      exact done s ts hstep

end Loops

/-! ## What a reader reads -/

/--
The reader takes tokens of some kinds, wherever they stand, and leaves what follows them,
if its head is as it has to be; the result fulfils a condition.
-/
def Reads
    (version : LanguageVersion) (p : Parse α) (ks : List TokenKind)
    (follow : Option TokenKind → Prop) (good : α → Prop) :
    Prop :=
  ∀ endLine toks rest, kindsOf toks = ks → follow (headKind rest) →
    ∃ a, p ⟨version, endLine⟩ (toks ++ rest) = .ok (a, rest) ∧ good a

/-- The reader answers with a value on tokens that start with some kinds, and takes none. -/
def Looks (version : LanguageVersion) (p : Parse α) (a : α) (ks : List TokenKind) : Prop :=
  ∀ endLine toks rest, kindsOf toks = ks →
    p ⟨version, endLine⟩ (toks ++ rest) = .ok (a, toks ++ rest)

/-- Whatever the result. -/
def anyResult : α → Prop := fun _ => True

/-- Whatever follows. -/
def anything : Option TokenKind → Prop := fun _ => True

section Reading

variable {version : LanguageVersion} {p : Parse α} {q : α → Parse β} {ks js : List TokenKind}
variable {follow next : Option TokenKind → Prop} {good : α → Prop} {result : β → Prop}

/-- The kind of the head behind some tokens. -/
theorem headKind_of_kindsOf
    {toks rest : List Token} {k : TokenKind}
    (h : kindsOf toks = js) (hk : js.head? = some k) :
    headKind (toks ++ rest) = some k := by
  cases toks with
  | nil =>
    subst h
    cases hk
  | cons t toks =>
    subst h
    exact hk

namespace Reads

theorem mono
    (h : Reads version p ks follow good) {good' : α → Prop} (hgood : ∀ a, good a → good' a) :
    Reads version p ks follow good' := by
  intro endLine toks rest hk hrest
  obtain ⟨a, ha, hgood'⟩ := h endLine toks rest hk hrest
  exact ⟨a, ha, hgood a hgood'⟩

theorem follow_mono
    (h : Reads version p ks follow good) (hnext : ∀ k, next k → follow k) :
    Reads version p ks next good := by
  intro endLine toks rest hk hrest
  exact h endLine toks rest hk (hnext _ hrest)

/-- A reader behind another one. -/
theorem bind
    {k : TokenKind} (h : Reads version p ks follow good) (hk : js.head? = some k)
    (hfollow : follow (some k)) (h' : ∀ a, good a → Reads version (q a) js next result) :
    Reads version (p >>= q) (ks ++ js) next result := by
  intro endLine toks rest hks hrest
  obtain ⟨us, vs, rfl, hus, hvs⟩ := kindsOf_eq_append.1 hks
  obtain ⟨a, ha, hgood⟩ := h endLine us (vs ++ rest) hus
    (by rw [headKind_of_kindsOf hvs hk]; exact hfollow)
  obtain ⟨b, hb, hresult⟩ := h' a hgood endLine vs rest hvs hrest
  refine ⟨b, ?_, hresult⟩
  rw [List.append_assoc, bind_of_ok ha]
  exact hb

/-- A reader that does the last step. -/
theorem bind_last
    (h : Reads version p ks follow good)
    (h' : ∀ a, good a → Reads version (q a) [] follow result) :
    Reads version (p >>= q) ks follow result := by
  intro endLine toks rest hks hrest
  obtain ⟨a, ha, hgood⟩ := h endLine toks rest hks hrest
  obtain ⟨b, hb, hresult⟩ := h' a hgood endLine [] rest rfl hrest
  exact ⟨b, by rw [bind_of_ok ha]; exact hb, hresult⟩

theorem pure
    {a : α} (h : good a) :
    Reads version (Pure.pure a) [] follow good := by
  intro endLine toks rest hks _
  obtain rfl := kindsOf_eq_nil.1 hks
  exact ⟨a, rfl, h⟩

/-- A reader that looks at what comes next. -/
theorem look
    {a : α} (h : Looks version p a ks) (h' : Reads version (q a) ks next result) :
    Reads version (p >>= q) ks next result := by
  intro endLine toks rest hk hrest
  rw [bind_of_ok (h endLine toks rest hk)]
  exact h' endLine toks rest hk hrest

theorem line
    {q : Nat → Parse β} (h : ∀ l, Reads version (q l) ks next result) :
    Reads version (Parse.line >>= q) ks next result := by
  intro endLine toks rest hk hrest
  rw [line_bind]
  exact h _ endLine toks rest hk hrest

/-- A reader that does what another one does. -/
theorem congr
    {p' : Parse α} (h : Reads version p ks follow good)
    (heq : ∀ endLine toks rest, kindsOf toks = ks → follow (headKind rest) →
      p' ⟨version, endLine⟩ (toks ++ rest) = p ⟨version, endLine⟩ (toks ++ rest)) :
    Reads version p' ks follow good := by
  intro endLine toks rest hk hrest
  rw [heq endLine toks rest hk hrest]
  exact h endLine toks rest hk hrest

end Reads

variable {k : TokenKind} {n : Nat} {b : Bool}

/-- The kind of the token after others is that of the token in its place. -/
theorem headKind_drop_of_kindsOf
    {toks rest : List Token}
    (h : kindsOf toks = ks) (hk : (ks.drop n).head? = some k) :
    headKind ((toks ++ rest).drop n) = some k := by
  have hn : n ≤ toks.length := by
    rw [← length_kindsOf, h]
    refine Nat.le_of_not_le fun hlt => ?_
    rw [List.drop_eq_nil_of_le hlt] at hk
    cases hk
  rw [List.drop_append_of_le_length hn]
  exact headKind_of_kindsOf (by rw [kindsOf, List.map_drop, ← kindsOf, h]) hk

namespace Looks

theorem pure
    (a : α) :
    Looks version (Pure.pure a) a ks :=
  fun _ _ _ _ => rfl

theorem bind
    {a : α} {c : β} (h : Looks version p a ks) (h' : Looks version (q a) c ks) :
    Looks version (p >>= q) c ks := by
  intro endLine toks rest hk
  rw [bind_of_ok (h endLine toks rest hk)]
  exact h' endLine toks rest hk

end Looks

theorem looks_peek
    (hk : (ks.drop n).head? = some k) :
    Looks version (peek n) (some k) ks := by
  intro endLine toks rest h
  have hhead := @headKind_drop_of_kindsOf ks k n toks rest h hk
  simp only [peek, Except.ok.injEq, Prod.mk.injEq, and_true]
  rw [← hhead, headKind, List.head?_drop]

theorem looks_sees
    {p : Punct}
    (hk : (ks.drop n).head? = some k) (hb : (some k == some (.punct p)) = b) :
    Looks version (sees p n) b ks := by
  intro endLine toks rest h
  unfold sees
  rw [bind_of_ok (looks_peek hk endLine toks rest h), ← hb]
  rfl

theorem looks_seesKeyword
    {word : String}
    (hk : (ks.drop n).head? = some k) (hb : (k.keyword? == some word) = b) :
    Looks version (seesKeyword word n) b ks := by
  intro endLine toks rest h
  unfold seesKeyword
  rw [bind_of_ok (looks_peek hk endLine toks rest h), ← hb]
  rfl

theorem looks_seesIdent
    (hk : (ks.drop n).head? = some k) (hb : k.ident?.isSome = b) :
    Looks version (seesIdent n) b ks := by
  intro endLine toks rest h
  unfold seesIdent
  rw [bind_of_ok (looks_peek hk endLine toks rest h), ← hb]
  rfl

/-- A mark that does not come next is not taken. -/
theorem looks_accept
    {p : Punct}
    (hk : ks.head? = some k) (hne : k ≠ .punct p) :
    Looks version (accept p) false ks := by
  intro endLine toks rest h
  have hhead := @headKind_of_kindsOf ks toks rest k h hk
  rw [accept_apply, if_neg (by simpa [hhead] using hne)]

/-- A mark that comes next is taken. -/
theorem reads_accept
    (p : Punct) :
    Reads version (accept p) [.punct p] anything (· = true) := by
  intro endLine toks rest h _
  obtain ⟨l, us, rfl, hus⟩ := kindsOf_eq_cons.1 h
  obtain rfl := kindsOf_eq_nil.1 hus
  exact ⟨true, by simp, rfl⟩

theorem reads_expect
    (p : Punct) :
    Reads version (expect p) [.punct p] anything anyResult := by
  intro endLine toks rest h _
  obtain ⟨l, us, rfl, hus⟩ := kindsOf_eq_cons.1 h
  obtain rfl := kindsOf_eq_nil.1 hus
  exact ⟨(), by simp, trivial⟩

theorem reads_advance
    (k : TokenKind) :
    Reads version (advance 1) [k] anything anyResult := by
  intro endLine toks rest h _
  obtain ⟨l, us, rfl, hus⟩ := kindsOf_eq_cons.1 h
  obtain rfl := kindsOf_eq_nil.1 hus
  exact ⟨(), rfl, trivial⟩

theorem reads_ident
    (w : String) (b : Bool) :
    Reads version ident [.ident w b] anything (· = w) := by
  intro endLine toks rest h _
  obtain ⟨l, us, rfl, hus⟩ := kindsOf_eq_cons.1 h
  obtain rfl := kindsOf_eq_nil.1 hus
  exact ⟨w, rfl, rfl⟩

section Loops

variable {step : σ → Parse (Round σ β)} {s : σ} {state : σ → Prop}

/-- The round asks for another one, in a state that fulfils a condition. -/
def isAgain (state : σ → Prop) (r : Round σ β) : Prop :=
  ∃ s, r = .again s ∧ state s

/-- The round is the last one, with a result that fulfils a condition. -/
def isDone (result : β → Prop) (r : Round σ β) : Prop :=
  ∃ b, r = .done b ∧ result b

/-- A loop that ends with a round. -/
theorem Reads.loop_done
    (h : Reads version (step s) ks next (isDone result)) :
    Reads version (loop s step) ks next result := by
  intro endLine toks rest hk hrest
  obtain ⟨_, hstep, b, rfl, hb⟩ := h endLine toks rest hk hrest
  exact ⟨b, loop_of_done hstep, hb⟩

/-- A loop that goes on after a round. -/
theorem Reads.loop_again
    (h : Reads version (step s) ks follow (isAgain state))
    (hne : ks ≠ []) (hk : js.head? = some k) (hfollow : follow (some k))
    (h' : ∀ s', state s' → Reads version (loop s' step) js next result) :
    Reads version (loop s step) (ks ++ js) next result := by
  intro endLine toks rest hks hrest
  obtain ⟨us, vs, rfl, hus, hvs⟩ := kindsOf_eq_append.1 hks
  obtain ⟨_, hstep, s', rfl, hs'⟩ := h endLine us (vs ++ rest) hus
    (by rw [headKind_of_kindsOf hvs hk]; exact hfollow)
  obtain ⟨b, hb, hresult⟩ := h' s' hs' endLine vs rest hvs hrest
  have hpos : 0 < us.length := by
    rw [← length_kindsOf, hus]
    exact List.length_pos_iff.2 hne
  rw [List.append_assoc]
  exact ⟨b, loop_of_again hstep (by simp only [List.length_append]; omega) hb, hresult⟩

end Loops
end Reading

end Parse
end CSharp
end ContentModels

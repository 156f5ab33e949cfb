import ContentModels.Proofs.Parsing.Declarations

/-!
# What follows what is read

A reader often looks at tokens that it does not take, and where a part of a declaration may
be left out these are tokens of a later part or stand behind all of it.  `Shows` says what
kind of token can be seen at a place among some tokens and what follows them; the steps of a
reader that looks ahead are stated with it.
-/

namespace ContentModels
namespace CSharp
namespace Parse

variable {α β σ : Type} {version : LanguageVersion}
variable {p : Parse α} {q : α → Parse β} {ks js : List TokenKind}
variable {follow next : Option TokenKind → Prop} {good : α → Prop} {result : β → Prop}

/-- The kind of the token after `n` others, among tokens of some kinds and what follows them. -/
def Shows (next : Option TokenKind → Prop) : List TokenKind → Nat → Option TokenKind → Prop
  | [], 0, k => next k
  | [], _ + 1, _ => True
  | j :: _, 0, k => k = some j
  | _ :: js, n + 1, k => Shows next js n k

@[simp] theorem shows_nil_zero
    {k : Option TokenKind} :
    Shows next [] 0 k ↔ next k :=
  .rfl

@[simp] theorem shows_cons_zero
    {j : TokenKind} {k : Option TokenKind} :
    Shows next (j :: js) 0 k ↔ k = some j :=
  .rfl

@[simp] theorem shows_cons_succ
    {j : TokenKind} {n : Nat} {k : Option TokenKind} :
    Shows next (j :: js) (n + 1) k ↔ Shows next js n k :=
  .rfl

theorem shows_headKind
    {toks rest : List Token}
    (hk : kindsOf toks = ks) (hrest : next (headKind rest)) (n : Nat) :
    Shows next ks n (headKind ((toks ++ rest).drop n)) := by
  induction ks generalizing toks n with
  | nil =>
    obtain rfl := kindsOf_eq_nil.1 hk
    cases n with
    | zero => exact hrest
    | succ n => exact trivial
  | cons k ks ih =>
    obtain ⟨l, us, rfl, hus⟩ := kindsOf_eq_cons.1 hk
    cases n with
    | zero => rfl
    | succ n => exact ih hus n

theorem shows_headKind_zero
    {toks rest : List Token}
    (hk : kindsOf toks = ks) (hrest : next (headKind rest)) :
    Shows next ks 0 (headKind (toks ++ rest)) :=
  shows_headKind hk hrest 0

theorem shows_of_head?
    {j : TokenKind} {k : Option TokenKind}
    (hj : ks.head? = some j) (h : Shows next ks 0 k) :
    k = some j := by
  cases ks with
  | nil => cases hj
  | cons i ks =>
    cases hj
    exact h

/-- A list is its first thing and the others, each with a comma in front. -/
theorem listedKinds_cons
    (ks : List TokenKind) (kss : List (List TokenKind)) :
    listedKinds (ks :: kss) = ks ++ kss.flatMap (.punct .comma :: ·) := by
  induction kss generalizing ks with
  | nil => exact (List.append_nil ks).symm
  | cons js kss ih =>
    change ks ++ ([.punct .comma] ++ listedKinds (js :: kss)) = _
    rw [ih, List.flatMap_cons]
    rfl

/-- A list starts like the first thing in it. -/
theorem head?_listedKinds
    {j : TokenKind} (kss : List (List TokenKind)) (h : ks.head? = some j) :
    (listedKinds (ks :: kss)).head? = some j := by
  simp [listedKinds_cons, h]

theorem shows_listedKinds
    {j : TokenKind} {kss : List (List TokenKind)} {k : Option TokenKind}
    (hj : ks.head? = some j) (h : Shows next (listedKinds (ks :: kss) ++ js) 0 k) :
    k = some j :=
  shows_of_head? (by simp [head?_listedKinds kss hj]) h

namespace Reads

/-- A reader behind another one. -/
theorem step
    (h : Reads version p ks follow good) (hfollow : ∀ k, Shows next js 0 k → follow k)
    (h' : ∀ a, good a → Reads version (q a) js next result) :
    Reads version (p >>= q) (ks ++ js) next result := by
  intro endLine toks rest hks hrest
  obtain ⟨us, vs, rfl, hus, hvs⟩ := kindsOf_eq_append.1 hks
  obtain ⟨a, ha, hgood⟩ := h endLine us (vs ++ rest) hus
    (hfollow _ (shows_headKind_zero hvs hrest))
  obtain ⟨b, hb, hresult⟩ := h' a hgood endLine vs rest hvs hrest
  refine ⟨b, ?_, hresult⟩
  rw [List.append_assoc, bind_of_ok ha]
  exact hb

/-- A reader of which nothing but the result is left. -/
theorem returning
    {f : α → β} (h : Reads version p ks follow good) (hf : ∀ a, good a → result (f a)) :
    Reads version (p >>= fun a => Pure.pure (f a)) ks follow result :=
  h.bind_last fun a ha => .pure (hf a ha)

variable {n : Nat} {b : Bool}

/-- A look at a token. -/
theorem peek
    {q : Option TokenKind → Parse β}
    (h : ∀ k, Shows next ks n k → Reads version (q k) ks next result) :
    Reads version (Parse.peek n >>= q) ks next result := by
  intro endLine toks rest hk hrest
  rw [peek_bind]
  exact h _ (shows_headKind hk hrest n) endLine toks rest hk hrest

theorem sees
    {mark : Punct} {q : Bool → Parse β}
    (hb : ∀ k, Shows next ks n k → (k == some (.punct mark)) = b)
    (h : Reads version (q b) ks next result) :
    Reads version (Parse.sees mark n >>= q) ks next result := by
  unfold Parse.sees
  rw [bind_assoc]
  exact .peek fun k hk => by rwa [pure_bind, hb k hk]

/-- A keyword that is seen or not. -/
theorem looksKeyword
    {word : String} {q : Bool → Parse β}
    (h : ∀ k, Shows next ks n k →
      Reads version (q (k.bind TokenKind.keyword? == some word)) ks next result) :
    Reads version (Parse.seesKeyword word n >>= q) ks next result := by
  unfold Parse.seesKeyword
  rw [bind_assoc]
  exact .peek h

theorem seesKeyword
    {word : String} {q : Bool → Parse β}
    (hb : ∀ k, Shows next ks n k → (k.bind TokenKind.keyword? == some word) = b)
    (h : Reads version (q b) ks next result) :
    Reads version (Parse.seesKeyword word n >>= q) ks next result :=
  .looksKeyword fun k hk => by rwa [hb k hk]

/-- A mark that is not seen. -/
theorem misses
    {mark : Punct} {q : Bool → Parse β}
    (hne : ∀ k, Shows next ks n k → k ≠ some (.punct mark))
    (h : Reads version (q false) ks next result) :
    Reads version (Parse.sees mark n >>= q) ks next result :=
  .sees (fun k hk => beq_eq_false_iff_ne.2 (hne k hk)) h

/-- A keyword that is not seen. -/
theorem missesKeyword
    {word : String} {q : Bool → Parse β}
    (hne : ∀ k, Shows next ks n k → k.bind TokenKind.keyword? ≠ some word)
    (h : Reads version (q false) ks next result) :
    Reads version (Parse.seesKeyword word n >>= q) ks next result :=
  .seesKeyword (fun k hk => beq_eq_false_iff_ne.2 (hne k hk)) h

/-- A mark that makes no difference. -/
theorem sees_any
    {mark : Punct} {q : Bool → Parse β} (h : ∀ b, Reads version (q b) ks next result) :
    Reads version (Parse.sees mark n >>= q) ks next result := by
  unfold Parse.sees
  rw [bind_assoc]
  exact .peek fun k _ => h _

theorem seesIdent
    {q : Bool → Parse β}
    (hb : ∀ k, Shows next ks n k → (k.bind TokenKind.ident?).isSome = b)
    (h : Reads version (q b) ks next result) :
    Reads version (Parse.seesIdent n >>= q) ks next result := by
  unfold Parse.seesIdent
  rw [bind_assoc]
  exact .peek fun k hk => by rwa [pure_bind, hb k hk]

/-- A mark that comes next. -/
theorem accept
    {mark : Punct} {q : Bool → Parse β} (h : Reads version (q true) ks next result) :
    Reads version (Parse.accept mark >>= q) (.punct mark :: ks) next result := by
  intro endLine toks rest hk hrest
  obtain ⟨l, us, rfl, hus⟩ := kindsOf_eq_cons.1 hk
  rw [accept_bind, List.cons_append, headKind_cons, if_pos rfl]
  exact h endLine us rest hus hrest

/-- A mark that does not come next. -/
theorem declines
    {mark : Punct} {q : Bool → Parse β}
    (hne : ∀ k, Shows next ks 0 k → k ≠ some (.punct mark))
    (h : Reads version (q false) ks next result) :
    Reads version (Parse.accept mark >>= q) ks next result := by
  intro endLine toks rest hk hrest
  rw [accept_bind, if_neg (hne _ (shows_headKind_zero hk hrest))]
  exact h endLine toks rest hk hrest

/-- A mark that has to come next. -/
theorem expect
    {mark : Punct} {q : Unit → Parse β} (h : Reads version (q ()) ks next result) :
    Reads version (Parse.expect mark >>= q) (.punct mark :: ks) next result := by
  intro endLine toks rest hk hrest
  obtain ⟨l, us, rfl, hus⟩ := kindsOf_eq_cons.1 hk
  rw [expect_bind, List.cons_append, headKind_cons, if_pos rfl]
  exact h endLine us rest hus hrest

/-- A token that is passed over. -/
theorem advance
    {k : TokenKind} {q : Unit → Parse β} (h : Reads version (q ()) ks next result) :
    Reads version (Parse.advance >>= q) (k :: ks) next result := by
  intro endLine toks rest hk hrest
  obtain ⟨l, us, rfl, hus⟩ := kindsOf_eq_cons.1 hk
  exact h endLine us rest hus hrest

/-- An identifier that comes next. -/
theorem ident
    {w : String} {verbatim : Bool} {q : String → Parse β}
    (h : Reads version (q w) ks next result) :
    Reads version (Parse.ident >>= q) (.ident w verbatim :: ks) next result := by
  intro endLine toks rest hk hrest
  obtain ⟨l, us, rfl, hus⟩ := kindsOf_eq_cons.1 hk
  rw [ident_bind]
  exact h endLine us rest hus hrest

/-- A feature that the version has. -/
theorem require
    {feature : Feature} {line : Nat} {q : Unit → Parse β}
    (hversion : version.supports feature = true) (h : Reads version (q ()) ks next result) :
    Reads version (Parse.require feature line >>= q) ks next result := by
  intro endLine toks rest hk hrest
  have hrequire : Parse.require feature line ⟨version, endLine⟩ (toks ++ rest) =
      .ok ((), toks ++ rest) := if_pos hversion
  rw [bind_of_ok hrequire]
  exact h endLine toks rest hk hrest

/-- A reader whose bound on the nesting comes from the tokens. -/
theorem nested
    {p : Nat → Parse α}
    (h : ∀ depth, ks.length < depth → Reads version (p depth) ks follow good) :
    Reads version (Parse.nested p) ks follow good := by
  intro endLine toks rest hk hrest
  refine h ((toks ++ rest).length + 1) ?_ endLine toks rest hk hrest
  rw [← hk, length_kindsOf, List.length_append]
  omega

section Loops

variable {step : σ → Parse (Round σ β)} {s : σ} {state : σ → Prop}

/-- A loop that goes on after a round. -/
theorem loop_next
    (h : Reads version (step s) ks follow (isAgain state)) (hne : ks ≠ [])
    (hfollow : ∀ k, Shows next js 0 k → follow k)
    (h' : ∀ s', state s' → Reads version (loop s' step) js next result) :
    Reads version (loop s step) (ks ++ js) next result := by
  intro endLine toks rest hks hrest
  obtain ⟨us, vs, rfl, hus, hvs⟩ := kindsOf_eq_append.1 hks
  obtain ⟨_, hstep, s', rfl, hs'⟩ := h endLine us (vs ++ rest) hus
    (hfollow _ (shows_headKind_zero hvs hrest))
  obtain ⟨b, hb, hresult⟩ := h' s' hs' endLine vs rest hvs hrest
  have hpos : 0 < us.length := by
    rw [← length_kindsOf, hus]
    exact List.length_pos_iff.2 hne
  rw [List.append_assoc]
  exact ⟨b, loop_of_again hstep (by simp only [List.length_append]; omega) hb, hresult⟩

variable {γ δ : Type} {kinds : γ → List TokenKind} {xs : List γ} {tail : List TokenKind}

/--
A loop over things with commas between them: a round reads one thing with the comma behind
it, and the last round reads one with what ends the list.  The state of the loop holds what
the things read so far are.
-/
theorem loop_listed
    (value : γ → δ) (starts : Option TokenKind → Prop) (holds : List δ → σ → Prop)
    (done : List δ → β → Prop)
    (hhead : ∀ x ∈ xs, ∃ k, (kinds x).head? = some k ∧ starts (some k))
    (again : ∀ x ∈ xs, ∀ read s, holds read s →
      Reads version (step s) (kinds x ++ [.punct .comma]) starts
        (isAgain (holds (read ++ [value x]))))
    (ends : ∀ x ∈ xs, ∀ read s, holds read s →
      Reads version (step s) (kinds x ++ tail) next (isDone (done (read ++ [value x]))))
    (hne : xs ≠ []) {read : List δ} (hs : holds read s) :
    Reads version (loop s step) (listedKinds (xs.map kinds) ++ tail) next
      (done (read ++ xs.map value)) := by
  induction xs generalizing s read with
  | nil => exact absurd rfl hne
  | cons x xs ih =>
    cases xs with
    | nil => exact .loop_done (ends x List.mem_cons_self read s hs)
    | cons y xs =>
      obtain ⟨k, hk, hstarts⟩ := hhead y (by simp)
      have hrest := fun s' (hs' : holds (read ++ [value x]) s') =>
        ih (fun z hz => hhead z (List.mem_cons_of_mem _ hz))
          (fun z hz => again z (List.mem_cons_of_mem _ hz))
          (fun z hz => ends z (List.mem_cons_of_mem _ hz)) (by simp) hs'
      change Reads _ _
        ((kinds x ++ ([.punct .comma] ++ listedKinds ((y :: xs).map kinds))) ++ tail) _ _
      rw [← List.append_assoc, List.append_assoc]
      refine (again x List.mem_cons_self read s hs).loop_next (by simp) ?_ fun s' hs' => ?_
      · intro j hj
        rw [shows_listedKinds hk hj]
        exact hstarts
      · exact (hrest s' hs').mono fun b hb => by simpa using hb

end Loops
end Reads

end Parse
end CSharp
end ContentModels

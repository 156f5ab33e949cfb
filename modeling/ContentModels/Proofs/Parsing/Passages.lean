import ContentModels.Proofs.Parsing.Endings

/-!
# Passages of a loop

A loop that reads a body passes from one declaration to the next.  `Reaches` says that it
comes from a state and some tokens to others in this way.  What it has passed over it passes
over again where other tokens stand behind, and what it has read so far stays in front of what
it reads further on.
-/

namespace ContentModels
namespace CSharp
namespace Parse

variable {α β σ : Type}

deriving instance DecidableEq for Round

/-- Rounds that ask for another one lead from a state and some tokens to others. -/
inductive Reaches (step : σ → Parse (Round σ β)) (ctx : ParseContext) :
    σ → List Token → σ → List Token → Prop where
  | refl (s : σ) (ts : List Token) : Reaches step ctx s ts s ts
  | again {s s₁ s' : σ} {ts ts₁ ts' : List Token} (h : step s ctx ts = .ok (.again s₁, ts₁))
    (hrest : Reaches step ctx s₁ ts₁ s' ts') : Reaches step ctx s ts s' ts'

section

variable {step : σ → Parse (Round σ β)} {ctx : ParseContext} {s s' : σ} {b : β}
  {ts ts' pre mid rest : List Token}

theorem Reaches.suffix
    [hdrops : ∀ s, Drops (step s)] (h : Reaches step ctx s ts s' ts') :
    ts' <:+ ts := by
  induction h with
  | refl => exact List.suffix_refl _
  | again hstep _ ih => exact ih.trans ((hdrops _).suffix hstep)

/-- What a loop reads from a place it has come to, it reads. -/
theorem Reaches.loop
    [heats : ∀ s, EatsAgain (step s)] (h : Reaches step ctx s ts s' ts')
    (hloop : loop s' step ctx ts' = .ok (b, rest)) :
    loop s step ctx ts = .ok (b, rest) := by
  induction h with
  | refl => exact hloop
  | again hstep _ ih => exact loop_of_again hstep ((heats _).shorter hstep) (ih hloop)

/-- A loop that ends is at its last round, or goes on behind the round that is next. -/
theorem loop_cases
    [heats : ∀ s, EatsAgain (step s)] (h : Parse.loop s step ctx ts = .ok (b, rest)) :
    step s ctx ts = .ok (.done b, rest) ∨
      ∃ s₁ ts₁, step s ctx ts = .ok (.again s₁, ts₁) ∧ Parse.loop s₁ step ctx ts₁ = .ok (b, rest) := by
  have hgo := rounds_induction (motive := fun s ts => Parse.loop s step ctx ts = .ok (b, rest) ∧
    (step s ctx ts = .ok (.done b, rest) ∨ ∃ s₁ ts₁, step s ctx ts = .ok (.again s₁, ts₁) ∧
      Parse.loop s₁ step ctx ts₁ = .ok (b, rest))) h ?_ ?_
  · exact hgo.2
  · exact fun _ _ hdone => ⟨loop_of_done hdone, .inl hdone⟩
  · exact fun _ _ _ _ hagain ih =>
      ⟨loop_of_again hagain ((heats _).shorter hagain) ih.1, .inr ⟨_, _, hagain, ih.1⟩⟩

/-- A loop that ends has come to its last round. -/
theorem exists_reaches
    (h : Parse.loop s step ctx ts = .ok (b, rest)) :
    ∃ s' us, Reaches step ctx s ts s' us ∧ step s' ctx us = .ok (.done b, rest) := by
  refine rounds_induction (motive := fun s ts => ∃ s' us, Reaches step ctx s ts s' us ∧
    step s' ctx us = .ok (.done b, rest)) h ?_ ?_
  · exact fun s ts hdone => ⟨s, ts, .refl _ _, hdone⟩
  · rintro s ts s₁ mid hagain ⟨s', us, hreaches, hdone⟩
    exact ⟨s', us, .again hagain hreaches, hdone⟩

/-- A loop that ends has an end from each place that it comes to. -/
theorem Reaches.loop_behind
    [heats : ∀ s, EatsAgain (step s)] (h : Reaches step ctx s ts s' ts')
    (hloop : Parse.loop s step ctx ts = .ok (b, rest)) :
    Parse.loop s' step ctx ts' = .ok (b, rest) := by
  induction h with
  | refl => exact hloop
  | again hstep _ ih =>
    obtain hdone | ⟨_, _, hagain, hloop⟩ := loop_cases hloop
    · cases hstep.symm.trans hdone
    · obtain ⟨hround, rfl⟩ := Prod.mk.inj (Except.ok.inj (hstep.symm.trans hagain))
      obtain rfl := Round.again.inj hround
      exact ih hloop

variable [hdrops : ∀ s, Drops (step s)]

/-- A loop that has passed over nothing is where it was. -/
theorem Reaches.eq_of_same
    [heats : ∀ s, EatsAgain (step s)] (h : Reaches step ctx s ts s' ts) :
    s = s' := by
  cases h with
  | refl => rfl
  | again hstep hreaches =>
    have hle := hreaches.suffix.length_le
    have hlt := (heats _).shorter hstep
    omega

variable [hcarries : ∀ s, Carries (step s)]

/-- What a loop has passed over with bounded tokens left, it passes over again. -/
theorem Reaches.carried
    (h : Reaches step ctx s (pre ++ rest) s' (mid ++ rest)) (hmid : IsBounded mid)
    (rest' : List Token) :
    Reaches step ctx s (pre ++ rest') s' (mid ++ rest') := by
  generalize hts : pre ++ rest = ts at h
  generalize hts' : mid ++ rest = ts' at h
  induction h generalizing pre with
  | refl =>
    obtain rfl := List.append_cancel_right (hts.trans hts'.symm)
    exact .refl _ _
  | again hstep hreaches ih =>
    subst hts hts'
    obtain ⟨mid₁, rfl⟩ := (List.suffix_append mid rest).trans hreaches.suffix
    have hmid₁ := hmid.of_suffix (suffix_of_append hreaches.suffix)
    exact .again ((hcarries _).carried hmid₁ hstep) (ih rfl rfl)

/-- What a loop has passed over to the end ends with a mark, and is passed over again. -/
theorem Reaches.ended
    [∀ s, EatsAgain (step s)] [hends : ∀ s, Ends (step s)]
    (h : Reaches step ctx s (pre ++ rest) s' rest) (hne : pre ≠ []) :
    IsBounded pre ∧ ∀ {rest'}, IsFresh rest' → Reaches step ctx s (pre ++ rest') s' rest' := by
  generalize hts : pre ++ rest = ts at h
  induction h generalizing pre with
  | refl => exact absurd (List.append_left_eq_self.1 hts) hne
  | again hstep hreaches ih =>
    subst hts
    obtain ⟨mid, rfl⟩ := hreaches.suffix
    have hsuffix : mid <:+ pre := suffix_of_append ((hdrops _).suffix hstep)
    by_cases hmid : mid = []
    · subst hmid
      obtain rfl := hreaches.eq_of_same
      obtain ⟨hbounded, hcarried⟩ := (hends _).ended hstep hne
      exact ⟨hbounded, fun hrest => .again (hcarried hrest) (.refl _ _)⟩
    · obtain ⟨hbounded, hcarried⟩ := ih hmid rfl
      exact ⟨hbounded.of_suffix hsuffix, fun hrest =>
        .again ((hcarries _).carried hbounded hstep) (hcarried hrest)⟩

end

/-! ## In front of other tokens -/

/-- Nothing, or tokens of which the last is a mark that ends a declaration. -/
def IsClosed (ts : List Token) : Prop :=
  ts = [] ∨ IsBounded ts

section

variable {ctx : ParseContext} {pre mid rest : List Token}

/-- What a reader takes in front of closed tokens is taken again in front of fresh ones. -/
theorem reads_refreshed
    {p : Parse α} {a : α} [hdrops : Drops p] [heats : Eats p] [hcarries : Carries p]
    [hends : Ends p] (h : p ctx (pre ++ rest) = .ok (a, mid ++ rest)) (hmid : IsClosed mid) :
    IsBounded pre ∧ ∀ {rest'}, IsFresh rest' → p ctx (pre ++ rest') = .ok (a, mid ++ rest') := by
  rcases hmid with rfl | hmid
  · refine hends.ended h ?_
    rintro rfl
    exact Nat.lt_irrefl _ (heats.shorter h)
  · exact ⟨hmid.of_suffix (suffix_of_append (hdrops.suffix h)), fun _ => hcarries.carried hmid h⟩

/-- What a loop passes over in front of closed tokens is passed over in front of fresh ones. -/
theorem Reaches.refreshed
    {step : σ → Parse (Round σ β)} {s s' : σ} [∀ s, Drops (step s)] [∀ s, EatsAgain (step s)]
    [∀ s, Carries (step s)] [∀ s, Ends (step s)]
    (h : Reaches step ctx s (pre ++ rest) s' (mid ++ rest)) (hmid : IsClosed mid) :
    IsClosed pre ∧ ∀ {rest'}, IsFresh rest' →
      Reaches step ctx s (pre ++ rest') s' (mid ++ rest') := by
  rcases hmid with rfl | hmid
  · by_cases hpre : pre = []
    · subst hpre
      obtain rfl := h.eq_of_same
      exact ⟨.inl rfl, fun _ => .refl _ _⟩
    · obtain ⟨hbounded, hreaches⟩ := h.ended hpre
      exact ⟨.inr hbounded, hreaches⟩
  · exact ⟨.inr (hmid.of_suffix (suffix_of_append h.suffix)), fun _ => h.carried hmid _⟩

/-- A loop comes to something, and a reader takes the front of it: both again in front of fresh tokens. -/
theorem Reaches.front_refreshed
    {step : σ → Parse (Round σ β)} {s s' : σ} {ts ts' : List Token} {p : Parse α} {a : α}
    [∀ s, Drops (step s)] [∀ s, EatsAgain (step s)] [∀ s, Carries (step s)] [∀ s, Ends (step s)]
    [Drops p] [Eats p] [Carries p] [Ends p]
    (h : Reaches step ctx s ts s' ts') (hfront : p ctx ts' = .ok (a, mid ++ rest))
    (hmid : IsClosed mid) :
    ∃ pre front, ts = pre ++ rest ∧ IsBounded pre ∧ ∀ {rest'}, IsFresh rest' →
      Reaches step ctx s (pre ++ rest') s' (front ++ rest') ∧
        p ctx (front ++ rest') = .ok (a, mid ++ rest') := by
  obtain ⟨front, rfl⟩ := Drops.suffix hfront
  obtain ⟨gone, rfl⟩ := h.suffix
  rw [← List.append_assoc] at hfront
  obtain ⟨hbounded, hfront'⟩ := reads_refreshed hfront hmid
  rw [← List.append_assoc front, ← List.append_assoc] at h
  obtain ⟨-, hreaches⟩ := Reaches.refreshed h (.inr hbounded)
  exact ⟨gone ++ (front ++ mid), front ++ mid, by simp,
    hbounded.of_suffix (List.suffix_append _ _), fun hrest => ⟨hreaches hrest, hfront' hrest⟩⟩

end

/-! ## What has been read stays in front -/

/-- A round with its state and its result changed. -/
def Round.map (g : σ → σ) (h : β → β) : Round σ β → Round σ β
  | .again s => .again (g s)
  | .done b => .done (h b)

/--
If each round does the same with a changed state, up to that change, a loop does the same too.
-/
theorem loop_map
    {step : σ → Parse (Round σ β)} {g : σ → σ} {h : β → β}
    (hstep : ∀ s, step (g s) = (Round.map g h <$> step s)) (s : σ) :
    loop (g s) step = (h <$> loop s step) := by
  have hrounds : ∀ n s, rounds step n (g s) = (h <$> rounds step n s) := by
    intro n
    induction n with
    | zero => exact fun s => rfl
    | succ n ih =>
      intro s
      rw [rounds_succ, rounds_succ, hstep, map_bind, bind_map_left]
      refine congrArg _ (funext fun r => ?_)
      cases r with
      | again s' => exact ih s'
      | done b => rfl
  funext ctx ts
  exact congrFun (congrFun (hrounds (ts.length + 1) s) ctx) ts

theorem map_eq_ok
    {p : Parse α} {f : α → β} {ctx : ParseContext} {ts rest : List Token} {b : β} :
    (f <$> p) ctx ts = .ok (b, rest) ↔ ∃ a, p ctx ts = .ok (a, rest) ∧ f a = b := by
  rw [← bind_pure_comp, bind_eq_ok]
  constructor
  · rintro ⟨a, mid, ha, hb⟩
    obtain ⟨hfa, rfl⟩ := pure_eq_ok.1 hb
    exact ⟨a, ha, hfa⟩
  · rintro ⟨a, ha, rfl⟩
    exact ⟨a, rest, ha, rfl⟩

/-! ## Readers without bounds -/

instance (p : Nat → Parse (Round σ β)) [hp : ∀ depth, EatsAgain (p depth)] :
    EatsAgain (nested p) :=
  ⟨fun h => (hp _).shorter h⟩

instance (p : Nat → Parse α) [hp : ∀ depth, Eats (p depth)] : Eats (nested p) :=
  ⟨fun h => (hp _).shorter h⟩

/-- Under a bound above the number of tokens a reader reads what it reads without one. -/
theorem nested_eq_ok
    {p : Nat → Parse α} [hbound : IgnoresBound p] {ctx : ParseContext} {ts rest : List Token}
    {depth : Nat} {a : α} (h : ts.length < depth) :
    nested p ctx ts = .ok (a, rest) ↔ p depth ctx ts = .ok (a, rest) :=
  ⟨(hbound.enough h _).reads (Nat.le_refl _),
    (hbound.enough (Nat.lt_succ_self _) depth).reads (Nat.le_refl _)⟩

/-- A loop may run without bounds what it runs with one above the number of tokens. -/
theorem loop_nested_eq_ok
    (step : Nat → σ → Parse (Round σ β)) [∀ depth s, Drops (step depth s)]
    [∀ depth s, EatsAgain (step depth s)] {ctx : ParseContext} {ts rest : List Token} {n depth : Nat}
    {s : σ} {b : β} (hn : ts.length ≤ n)
    (hbound : ∀ d s, Suffices n (step d s) (step depth s)) [∀ s, IgnoresBound (step · s)] :
    loop s (fun s => nested (step · s)) ctx ts = .ok (b, rest) ↔
      loop s (step depth) ctx ts = .ok (b, rest) := by
  constructor
  · refine (Suffices.loop (n := n) fun s => ⟨fun hlen h => ?_⟩).reads hn
    exact (hbound _ s).reads hlen h
  · refine (Suffices.loop (n := n) fun s => ⟨fun hlen h => ?_⟩).reads hn
    exact (IgnoresBound.enough (p := (step · s)) (Nat.lt_succ_self _) depth).reads (Nat.le_refl _) h

end Parse
end CSharp
end ContentModels

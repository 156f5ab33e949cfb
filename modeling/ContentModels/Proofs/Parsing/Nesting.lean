import ContentModels.Proofs.Parsing.Progress

/-!
# Bounds on nesting

A reader whose argument bounds nesting takes a token for each level, so a bound above the
number of tokens never shows: what it reads under one bound it reads under every such one
(`Suffices`).  Thus the bound that `nested` computes is as good as any other.
-/

namespace ContentModels
namespace CSharp
namespace Parse

variable {α β σ : Type} {n : Nat}

/-- What a reader reads of at most so many tokens, another one reads with the same answer. -/
class Suffices (n : Nat) (p p' : Parse α) : Prop where
  reads : ∀ {ctx ts a rest}, ts.length ≤ n → p ctx ts = .ok (a, rest) → p' ctx ts = .ok (a, rest)

-- A reader with many branches is a large instance.
set_option synthInstance.maxSize 100000

namespace Suffices

theorem refl (p : Parse α) : Suffices n p p :=
  ⟨fun _ h => h⟩

/-- A first part that takes a token leaves fewer to the second one. -/
theorem bind_eats
    {p p' : Parse α} {f f' : α → Parse β} [heats : Eats p] (hp : Suffices (n + 1) p p')
    (hf : ∀ a, Suffices n (f a) (f' a)) :
    Suffices (n + 1) (p >>= f) (p' >>= f') where
  reads hn h := by
    obtain ⟨a, mid, ha, hb⟩ := bind_eq_ok.1 h
    have hlt := heats.shorter ha
    exact bind_eq_ok.2 ⟨a, mid, hp.reads hn ha, (hf a).reads (by omega) hb⟩

theorem bind
    {p p' : Parse α} {f f' : α → Parse β} [Drops p] (hp : Suffices n p p')
    (hf : ∀ a, Suffices n (f a) (f' a)) :
    Suffices n (p >>= f) (p' >>= f') where
  reads hn h := by
    obtain ⟨a, mid, ha, hb⟩ := bind_eq_ok.1 h
    have hle := Drops.length_le ha
    exact bind_eq_ok.2 ⟨a, mid, hp.reads hn ha, (hf a).reads (by omega) hb⟩

/-- Of no tokens a reader that takes one reads nothing. -/
theorem of_eats
    {p p' : Parse α} [heats : Eats p] :
    Suffices 0 p p' where
  reads hn h := by
    have hlt := heats.shorter h
    omega

theorem loop
    {init : σ} {step step' : σ → Parse (Round σ β)} [∀ s, Drops (step s)]
    [heats : ∀ s, EatsAgain (step s)] (hstep : ∀ s, Suffices n (step s) (step' s)) :
    Suffices n (Parse.loop init step) (Parse.loop init step') where
  reads {ctx ts b rest} hn h := by
    refine rounds_induction (motive := fun s ts => ts.length ≤ n →
      Parse.loop s step' ctx ts = .ok (b, rest)) h ?_ ?_ hn
    · exact fun s ts hdone hn => loop_of_done ((hstep s).reads hn hdone)
    · intro s ts s' mid hagain ih hn
      have hlt := (heats s).shorter hagain
      exact loop_of_again ((hstep s).reads hn hagain) hlt (ih (by omega))

/--
Where a keyword is followed by a mark both are dropped, so a reader behind them has fewer
tokens.
-/
theorem keywordMark
    {w : String} {mark : Punct} {f f' : Unit → Parse α} {q q' : Parse α}
    (hf : ∀ u, Suffices n (f u) (f' u)) (hq : Suffices (n + 1) q q') :
    Suffices (n + 1)
      (do if (← seesKeyword w) && (← sees mark 1) then advance 2 >>= f else q)
      (do if (← seesKeyword w) && (← sees mark 1) then advance 2 >>= f' else q') where
  reads {ctx ts a rest} hn h := by
    simp only [seesKeyword_bind, sees_bind, List.drop_zero, ite_apply, advance_bind] at h ⊢
    split at h
    · rename_i hsees
      rw [if_pos hsees]
      refine (hf ()).reads ?_ h
      cases ts with
      | nil => simp at hsees
      | cons t ts =>
        simp only [List.length_cons, List.length_drop] at hn ⊢
        omega
    · rename_i hsees
      rw [if_neg hsees]
      exact hq.reads hn h

end Suffices

instance (priority := high) (p : Parse α) : Suffices n p p :=
  .refl p

section

variable (p p' q q' : Parse α) (f f' : α → Parse β)

instance [Eats p] [hp : Suffices (n + 1) p p'] [hf : ∀ a, Suffices n (f a) (f' a)] :
    Suffices (n + 1) (p >>= f) (p' >>= f') :=
  .bind_eats hp hf

instance (priority := low) [Drops p] [hp : Suffices n p p'] [hf : ∀ a, Suffices n (f a) (f' a)] :
    Suffices n (p >>= f) (p' >>= f') :=
  .bind hp hf

instance (c : Prop) [Decidable c] [hp : Suffices n p p'] [hq : Suffices n q q'] :
    Suffices n (if c then p else q) (if c then p' else q') := by
  split
  · exact hp
  · exact hq

instance (fault : Fault) : Suffices n (fail fault : Parse α) p' :=
  ⟨nofun⟩

instance (fault : Fault) (r : Parse β) : Suffices n (fail fault >>= f) r :=
  ⟨fun _ => nofun⟩

end

instance (priority := low) (p p' : Parse α) [Eats p] : Suffices 0 p p' :=
  .of_eats

instance (init : σ) (step step' : σ → Parse (Round σ β)) [∀ s, Drops (step s)]
    [∀ s, EatsAgain (step s)] [hstep : ∀ s, Suffices n (step s) (step' s)] :
    Suffices n (loop init step) (loop init step') :=
  .loop hstep

instance (p p' : Parse α) [Drops p] [hp : Suffices n p p'] :
    Suffices n (withTokens p) (withTokens p') := by
  unfold withTokens
  infer_instance

/-! ## Type names and attributes -/

section

variable (arguments arguments' : Parse Nat) [Drops arguments] [Suffices n arguments arguments']

instance (path : List String) :
    Suffices (n + 1) (nameRound arguments path) (nameRound arguments' path) := by
  unfold nameRound
  dsimp only
  infer_instance

instance : Suffices (n + 1) (nameAt arguments) (nameAt arguments') := by
  unfold nameAt
  dsimp only
  infer_instance

end

/--
The readers that call each other, with one bound, read of at most so many tokens what they
read with another bound.
-/
structure SufficesNested (n depth depth' : Nat) : Prop where
  typeName : Suffices n (typeNameAt depth) (typeNameAt depth')
  typeArguments : Suffices n (typeArgumentsAt depth) (typeArgumentsAt depth')
  attributeSection : Suffices n (attributeSectionAt depth) (attributeSectionAt depth')
  attributeArguments : Suffices n (attributeArgumentsAt depth) (attributeArgumentsAt depth')
  attributeValue : Suffices n (attributeValueAt depth) (attributeValueAt depth')

theorem sufficesNested
    {n depth' : Nat} (h : n < depth') (depth : Nat) :
    SufficesNested n depth depth' := by
  induction depth' generalizing n depth with
  | zero => exact absurd h (Nat.not_lt_zero n)
  | succ depth' ih =>
    cases depth with
    | zero =>
      constructor
      · unfold typeNameAt
        infer_instance
      · unfold typeArgumentsAt
        infer_instance
      · unfold attributeSectionAt
        infer_instance
      · unfold attributeArgumentsAt
        infer_instance
      · unfold attributeValueAt
        infer_instance
    | succ depth =>
      cases n with
      | zero =>
        constructor
        · exact .of_eats
        · exact .of_eats
        · exact .of_eats
        · exact .of_eats
        · exact .of_eats
      | succ n =>
        obtain ⟨_, _, _, _, _⟩ := ih (Nat.lt_of_succ_lt_succ h) depth
        constructor
        · rw [typeNameAt_succ, typeNameAt_succ]
          dsimp only
          infer_instance
        · rw [typeArgumentsAt_succ, typeArgumentsAt_succ]
          unfold argumentRound
          dsimp only
          infer_instance
        · unfold attributeSectionAt
          dsimp only
          infer_instance
        · unfold attributeArgumentsAt
          infer_instance
        · unfold attributeValueAt
          dsimp only
          refine .bind inferInstance fun literal => ?_
          cases literal with
          | some value => infer_instance
          | none =>
            exact .keywordMark (fun _ => inferInstance)
              (.keywordMark (fun _ => inferInstance) inferInstance)

/-- A reader to which a bound above the number of tokens makes no difference. -/
class IgnoresBound (p : Nat → Parse α) : Prop where
  enough : ∀ {n depth'}, n < depth' → ∀ depth, Suffices n (p depth) (p depth')

instance : IgnoresBound typeNameAt :=
  ⟨fun h depth => (sufficesNested h depth).typeName⟩

instance : IgnoresBound typeArgumentsAt :=
  ⟨fun h depth => (sufficesNested h depth).typeArguments⟩

instance : IgnoresBound attributeSectionAt :=
  ⟨fun h depth => (sufficesNested h depth).attributeSection⟩

/-! ## Types -/

section

variable {name : String} {around : Surroundings} {depth depth' : Nat}

theorem suffices_bodyRound
    (htypes : ∀ kind attributes modifiers,
      Suffices n (typeDeclarationAt depth kind attributes modifiers around)
        (typeDeclarationAt depth' kind attributes modifiers around))
    (s : List Member × List TypeDeclaration) :
    Suffices n (bodyRound depth name around s) (bodyRound depth' name around s) := by
  have _ : ∀ attributes words kind,
      Suffices n (bodyItem depth name around s attributes words kind)
        (bodyItem depth' name around s attributes words kind) := by
    intro attributes words kind
    unfold bodyItem
    cases kind <;> infer_instance
  rw [bodyRound_eq, bodyRound_eq]
  dsimp only
  infer_instance

theorem sufficesTypes
    {n depth' : Nat} (h : n < depth') (depth : Nat) :
    (∀ kind attributes modifiers around,
      Suffices n (typeDeclarationAt depth kind attributes modifiers around)
        (typeDeclarationAt depth' kind attributes modifiers around)) ∧
    ∀ name around, Suffices n (typeBodyAt depth name around) (typeBodyAt depth' name around) := by
  induction depth' generalizing n depth with
  | zero => exact absurd h (Nat.not_lt_zero n)
  | succ depth' ih =>
    cases depth with
    | zero =>
      constructor
      · intro kind attributes modifiers around
        unfold typeDeclarationAt
        infer_instance
      · intro name around
        unfold typeBodyAt
        infer_instance
    | succ depth =>
      cases n with
      | zero =>
        constructor
        · exact fun _ _ _ _ => .of_eats
        · intro name around
          rw [typeBodyAt_succ]
          exact .of_eats
      | succ n =>
        obtain ⟨htypes, _⟩ := ih (Nat.lt_of_succ_lt_succ h) depth
        constructor
        · intro kind attributes modifiers around
          unfold typeDeclarationAt
          dsimp only
          infer_instance
        · intro name around
          have _ : ∀ s, Suffices n (bodyRound depth name around s) (bodyRound depth' name around s) :=
            suffices_bodyRound fun kind attributes modifiers => htypes kind attributes modifiers around
          rw [typeBodyAt_succ, typeBodyAt_succ]
          infer_instance

instance (kind : DeclarationKind) (attributes : List AttributeUse) (modifiers : List String) :
    IgnoresBound (typeDeclarationAt · kind attributes modifiers around) :=
  ⟨fun h depth => (sufficesTypes h depth).1 kind attributes modifiers around⟩

instance : IgnoresBound (typeBodyAt · name around) :=
  ⟨fun h depth => (sufficesTypes h depth).2 name around⟩

instance (s : List Member × List TypeDeclaration) :
    IgnoresBound (bodyRound · name around s) :=
  ⟨fun h depth => suffices_bodyRound (fun kind attributes modifiers =>
    (sufficesTypes h depth).1 kind attributes modifiers around) s⟩

end

/-! ## Files -/

section

variable {name : String} {scope : List UsingDirective} {inBlock : Bool} {s : NamespaceState}

/-- The name of a namespace inside another one leaves fewer tokens to it. -/
theorem suffices_namespaceRound
    {depth depth' : Nat} (hnamespace : ∀ m, m < n → ∀ name scope,
      Suffices m (namespaceMembersAt depth name scope true)
        (namespaceMembersAt depth' name scope true)) :
    Suffices n (namespaceRound depth inBlock s) (namespaceRound depth' inBlock s) := by
  cases n with
  | zero =>
    unfold namespaceRound
    dsimp only
    infer_instance
  | succ n =>
    have _ := hnamespace n (Nat.lt_succ_self n)
    unfold namespaceRound
    dsimp only
    infer_instance

theorem suffices_namespaceMembersAt
    {depth' : Nat} (h : n < depth') (depth : Nat) :
    Suffices n (namespaceMembersAt depth name scope inBlock)
      (namespaceMembersAt depth' name scope inBlock) := by
  induction depth' generalizing n depth name scope inBlock with
  | zero => exact absurd h (Nat.not_lt_zero n)
  | succ depth' ih =>
    cases depth with
    | zero =>
      unfold namespaceMembersAt
      infer_instance
    | succ depth =>
      have _ : ∀ s, Suffices n (namespaceRound depth inBlock s) (namespaceRound depth' inBlock s) :=
        fun s => suffices_namespaceRound fun m hm name scope => ih (by omega) depth
      rw [namespaceMembersAt_succ, namespaceMembersAt_succ]
      infer_instance

instance : IgnoresBound (namespaceMembersAt · name scope inBlock) :=
  ⟨suffices_namespaceMembersAt⟩

instance : IgnoresBound (namespaceRound · inBlock s) :=
  ⟨fun h depth => suffices_namespaceRound fun _ hm _ _ =>
    suffices_namespaceMembersAt (Nat.lt_trans hm h) depth⟩

end

end Parse
end CSharp
end ContentModels

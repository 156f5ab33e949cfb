import ContentModels.Proofs.Parsing.Files

/-!
# What readers leave

A reader that succeeds leaves an end of the tokens it was given: it neither changes a token
nor puts one back.
-/

namespace ContentModels
namespace CSharp

/-! ## The tokens behind skipped ones -/

theorem closeGroups_suffix
    {endLine : Nat} {stack : List Punct} {ts rest : List Token}
    (h : closeGroups endLine stack ts = .ok rest) :
    rest <:+ ts := by
  induction ts generalizing stack with
  | nil =>
    unfold closeGroups at h
    cases h
  | cons t ts ih =>
    rw [closeGroups] at h
    split at h
    · cases h
    · cases h
      exact List.suffix_cons _ _
    · exact (ih h).trans (List.suffix_cons _ _)

theorem dropToMark_suffix
    {marks : List Punct} {endLine : Nat} {stack : List Punct} {ts rest : List Token}
    (h : dropToMark marks endLine stack ts = .ok rest) :
    rest <:+ ts := by
  induction ts generalizing stack with
  | nil => cases stack <;> cases h
  | cons t ts ih =>
    cases stack with
    | nil =>
      rw [dropToMark] at h
      split at h
      · split at h
        · cases h
        · exact (ih h).trans (List.suffix_cons _ _)
      · split at h
        · cases h
          exact List.suffix_refl _
        · exact (ih h).trans (List.suffix_cons _ _)
    | cons closer outer =>
      rw [dropToMark] at h
      split at h
      · cases h
      · exact (ih h).trans (List.suffix_cons _ _)

theorem skipTo_eq_ok
    {marks : List Punct} {ctx : ParseContext} {ts rest : List Token} {u : Unit} :
    Parse.skipTo marks ctx ts = .ok (u, rest) ↔ dropToMark marks ctx.endLine [] ts = .ok rest := by
  unfold Parse.skipTo
  cases dropToMark marks ctx.endLine [] ts <;> simp [Except.map]

theorem dropTypeSuffixes_suffix
    {endLine : Nat} {inRank : Bool} {ts rest : List Token}
    (h : dropTypeSuffixes endLine inRank ts = .ok rest) :
    rest <:+ ts := by
  induction ts generalizing inRank with
  | nil =>
    cases inRank <;> cases h
    exact List.suffix_refl _
  | cons t ts ih =>
    cases inRank <;> rw [dropTypeSuffixes] at h <;> split at h
    · exact (ih h).trans (List.suffix_cons _ _)
    · exact (ih h).trans (List.suffix_cons _ _)
    · split at h
      · exact (ih h).trans (List.suffix_cons _ _)
      · cases h
        exact List.suffix_refl _
    · cases h
      exact List.suffix_refl _
    · exact (ih h).trans (List.suffix_cons _ _)
    · exact (ih h).trans (List.suffix_cons _ _)
    · cases h

namespace Parse

variable {α β σ : Type}

-- A reader with many branches is a large instance.
set_option synthInstance.maxSize 100000

/-! ## Steps -/

/-- What a reader leaves is an end of what it was given. -/
class Drops (p : Parse α) : Prop where
  suffix : ∀ {ctx ts a rest}, p ctx ts = .ok (a, rest) → rest <:+ ts

namespace Drops

theorem bind
    {p : Parse α} {f : α → Parse β} [hp : Drops p] (hf : ∀ a, Drops (f a)) :
    Drops (p >>= f) where
  suffix h := by
    obtain ⟨a, mid, ha, hb⟩ := bind_eq_ok.1 h
    exact ((hf a).suffix hb).trans (hp.suffix ha)

theorem rounds
    {step : σ → Parse (Round σ β)} (hstep : ∀ s, Drops (step s)) (n : Nat) (s : σ) :
    Drops (Parse.rounds step n s) := by
  induction n generalizing s with
  | zero => exact ⟨nofun⟩
  | succ n ih =>
    unfold Parse.rounds
    refine bind fun round => ?_
    cases round with
    | again s => exact ih s
    | done b => exact ⟨fun h => by cases h; exact List.suffix_refl _⟩

end Drops

instance (a : α) : Drops (pure a : Parse α) :=
  ⟨fun h => by cases h; exact List.suffix_refl _⟩

instance (p : Parse α) (f : α → Parse β) [Drops p] [hf : ∀ a, Drops (f a)] : Drops (p >>= f) :=
  .bind hf

instance (c : Prop) [Decidable c] (p q : Parse α) [hp : Drops p] [hq : Drops q] :
    Drops (if c then p else q) := by
  split
  · exact hp
  · exact hq

instance (init : σ) (step : σ → Parse (Round σ β)) [hstep : ∀ s, Drops (step s)] :
    Drops (loop init step) :=
  ⟨fun h => (Drops.rounds hstep _ _).suffix h⟩

instance (p : Nat → Parse α) [hp : ∀ depth, Drops (p depth)] : Drops (nested p) :=
  ⟨fun h => (hp _).suffix h⟩

instance : Drops tokens :=
  ⟨fun h => by cases h; exact List.suffix_refl _⟩

instance : Drops line :=
  ⟨fun h => by cases h; exact List.suffix_refl _⟩

instance (fault : Fault) : Drops (fail fault : Parse α) :=
  ⟨nofun⟩

/-- What would follow a failure is not read. -/
instance (fault : Fault) (f : α → Parse β) : Drops (fail fault >>= f) :=
  ⟨nofun⟩

instance (n : Nat) : Drops (peek n) :=
  ⟨fun h => by cases h; exact List.suffix_refl _⟩

instance (n : Nat) : Drops (advance n) :=
  ⟨fun h => by cases h; exact List.drop_suffix _ _⟩

instance (p : Punct) (n : Nat) : Drops (sees p n) := by
  unfold sees
  infer_instance

instance (word : String) (n : Nat) : Drops (seesKeyword word n) := by
  unfold seesKeyword
  infer_instance

instance (n : Nat) : Drops (seesIdent n) := by
  unfold seesIdent
  infer_instance

instance (p : Punct) : Drops (accept p) := by
  unfold accept
  infer_instance

instance (p : Punct) : Drops (expect p) := by
  unfold expect
  infer_instance

instance : Drops ident := by
  unfold ident
  refine .bind fun kind => ?_
  split <;> infer_instance

instance (feature : Feature) (line : Nat) : Drops (require feature line) where
  suffix h := by
    unfold require at h
    split at h <;> cases h
    exact List.suffix_refl _

instance (allowed : List String) : Drops (keywords allowed) :=
  ⟨fun h => by cases h; exact List.dropWhile_suffix _⟩

instance (marks : List Punct) (fault : Fault) : Drops (dropUntil marks fault) where
  suffix h := by
    unfold dropUntil at h
    dsimp only at h
    split at h <;> cases h
    exact List.dropWhile_suffix _

instance (p : Parse α) [hp : Drops p] : Drops (attempt p) where
  suffix {ctx ts _ _} h := by
    unfold attempt at h
    cases hread : p ctx ts with
    | error d =>
      rw [hread] at h
      cases h
      exact List.suffix_refl _
    | ok x =>
      rw [hread] at h
      cases h
      exact hp.suffix hread

instance : Drops skipGroup :=
  ⟨fun h => closeGroups_suffix (skipGroup_eq_ok.1 h)⟩

instance (marks : List Punct) : Drops (skipTo marks) :=
  ⟨fun h => dropToMark_suffix (skipTo_eq_ok.1 h)⟩

instance : Drops typeSuffixes :=
  ⟨fun h => dropTypeSuffixes_suffix (typeSuffixes_eq_ok.1 h)⟩

theorem splitModifiers_suffix
    (ts : List Token) :
    (splitModifiers ts).2 <:+ ts := by
  induction ts with
  | nil => exact List.suffix_refl _
  | cons t ts ih =>
    rw [splitModifiers]
    split
    · exact List.suffix_refl _
    · dsimp only
      split
      · exact ih.trans (List.suffix_cons _ _)
      · exact List.suffix_refl _

instance : Drops modifiers where
  suffix {_ ts _ _} h := by
    obtain ⟨-, rfl⟩ := Prod.mk.inj (Except.ok.inj h)
    exact splitModifiers_suffix ts

/-! ## Type names and attributes -/

instance (ends : List Punct) : Drops (skipExpression ends) := by
  unfold skipExpression
  infer_instance

instance : Drops skipStatement := by
  unfold skipStatement
  infer_instance

instance (p : Parse α) [Drops p] : Drops (withTokens p) := by
  unfold withTokens
  infer_instance

instance (n : Nat) : Drops (argumentEnds n) := by
  unfold argumentEnds
  infer_instance

instance : Drops globalMark := by
  unfold globalMark
  infer_instance

instance : Drops argumentName := by
  unfold argumentName
  infer_instance

instance : Drops literalArgument := by
  unfold literalArgument
  refine .bind fun kind => ?_
  split <;> infer_instance

instance (arguments : Parse Nat) [Drops arguments] (path : List String) :
    Drops (nameRound arguments path) := by
  unfold nameRound
  dsimp only
  infer_instance

instance (arguments : Parse Nat) [Drops arguments] : Drops (nameAt arguments) := by
  unfold nameAt
  dsimp only
  infer_instance

/-- The readers that call each other, nested at most that deep, leave an end of the tokens. -/
structure DropsNested (depth : Nat) : Prop where
  typeName : Drops (typeNameAt depth)
  typeArguments : Drops (typeArgumentsAt depth)
  attributeSection : Drops (attributeSectionAt depth)
  attributeArguments : Drops (attributeArgumentsAt depth)
  attributeValue : Drops (attributeValueAt depth)

theorem dropsNested
    (depth : Nat) :
    DropsNested depth := by
  induction depth with
  | zero =>
    constructor
    · unfold typeNameAt
      infer_instance
    · unfold typeArgumentsAt
      infer_instance
    · unfold attributeSectionAt
      infer_instance
    · unfold attributeArgumentsAt
      infer_instance
    · unfold attributeValueAt
      infer_instance
  | succ depth ih =>
    obtain ⟨_, _, _, _, _⟩ := ih
    constructor
    · rw [typeNameAt_succ]
      dsimp only
      infer_instance
    · unfold typeArgumentsAt
      dsimp only
      infer_instance
    · unfold attributeSectionAt
      dsimp only
      infer_instance
    · unfold attributeArgumentsAt
      infer_instance
    · unfold attributeValueAt
      dsimp only
      refine .bind fun literal => ?_
      split <;> infer_instance

instance (depth : Nat) : Drops (typeNameAt depth) :=
  (dropsNested depth).typeName

instance (depth : Nat) : Drops (typeArgumentsAt depth) :=
  (dropsNested depth).typeArguments

instance (depth : Nat) : Drops (attributeSectionAt depth) :=
  (dropsNested depth).attributeSection

instance (depth : Nat) : Drops (attributeArgumentsAt depth) :=
  (dropsNested depth).attributeArguments

instance (depth : Nat) : Drops (attributeValueAt depth) :=
  (dropsNested depth).attributeValue

instance : Drops typeName :=
  inferInstanceAs (Drops (nested typeNameAt))

instance : Drops typeArguments :=
  inferInstanceAs (Drops (nested typeArgumentsAt))

instance : Drops attributeSection :=
  inferInstanceAs (Drops (nested attributeSectionAt))

instance : Drops typeParameters := by
  unfold typeParameters
  infer_instance

instance : Drops attributeSections := by
  unfold attributeSections
  infer_instance

/-! ## Members -/

instance : Drops parameter := by
  unfold parameter
  dsimp only
  infer_instance

instance : Drops parameters := by
  unfold parameters
  infer_instance

instance (feature : Feature) : Drops (skipArrowBody feature) := by
  unfold skipArrowBody
  infer_instance

instance (feature : Feature) : Drops (skipBody feature) := by
  unfold skipBody
  infer_instance

instance : Drops skipAccessor := by
  unfold skipAccessor
  dsimp only
  refine .bind fun _ => .bind fun _ => .bind fun line => .bind fun kind => ?_
  split <;> infer_instance

instance : Drops skipPropertyBody := by
  unfold skipPropertyBody
  dsimp only
  infer_instance

instance : Drops skipOperator := by
  unfold skipOperator
  infer_instance

instance : Drops qualifierArguments := by
  unfold qualifierArguments
  infer_instance

instance : Drops memberName := by
  unfold memberName
  dsimp only
  infer_instance

instance (marks : List Punct) (fault : Fault) : Drops (skipConstraints marks fault) := by
  unfold skipConstraints
  infer_instance

instance : Drops skipConstructorChain := by
  unfold skipConstructorChain
  dsimp only
  infer_instance

instance (first : String) : Drops (fieldNames first) := by
  unfold fieldNames
  dsimp only
  infer_instance

instance (type : TypeName) : Drops (namedMembers type) := by
  unfold namedMembers
  dsimp only
  infer_instance

instance (name : String) : Drops (memberKinds name) := by
  unfold memberKinds
  dsimp only
  infer_instance

instance (name : String) (attributes : List AttributeUse) (modifiers : List String) :
    Drops (members name attributes modifiers) := by
  unfold members
  infer_instance

/-! ## Types -/

instance : Drops seesType := by
  unfold seesType
  infer_instance

instance (kind : DeclarationKind) : Drops (baseList kind) := by
  unfold baseList
  dsimp only
  infer_instance

instance (kind : DeclarationKind) : Drops (declarationKeyword kind) := by
  unfold declarationKeyword
  infer_instance

instance (attributes : List AttributeUse) (modifiers : List String) (around : Surroundings) :
    Drops (delegateDeclaration attributes modifiers around) := by
  unfold delegateDeclaration
  infer_instance

instance (kind : DeclarationKind) (attributes : List AttributeUse) (modifiers : List String)
    (around : Surroundings) : Drops (typeHead kind attributes modifiers around) := by
  unfold typeHead
  infer_instance

/-- A round over a body leaves an end of the tokens if the types inside do. -/
theorem drops_bodyRound
    {depth : Nat} {name : String} {around : Surroundings} {s : List Member × List TypeDeclaration}
    (htypes : ∀ kind attributes modifiers,
      Drops (typeDeclarationAt depth kind attributes modifiers around)) :
    Drops (bodyRound depth name around s) := by
  unfold bodyRound
  dsimp only
  refine .bind fun next => ?_
  split
  · infer_instance
  · refine .bind fun closed => ?_
    split
    · infer_instance
    · refine .bind fun empty => ?_
      split
      · infer_instance
      · refine .bind fun attributes => .bind fun words => .bind fun kind => ?_
        split <;> infer_instance

theorem dropsTypes
    (depth : Nat) :
    (∀ kind attributes modifiers around,
      Drops (typeDeclarationAt depth kind attributes modifiers around)) ∧
    ∀ name around, Drops (typeBodyAt depth name around) := by
  induction depth with
  | zero =>
    constructor
    · intro kind attributes modifiers around
      unfold typeDeclarationAt
      infer_instance
    · intro name around
      unfold typeBodyAt
      infer_instance
  | succ depth ih =>
    obtain ⟨htypes, _⟩ := ih
    constructor
    · intro kind attributes modifiers around
      unfold typeDeclarationAt
      dsimp only
      infer_instance
    · intro name around
      have _ : ∀ s, Drops (bodyRound depth name around s) := fun s =>
        drops_bodyRound fun kind attributes modifiers => htypes kind attributes modifiers around
      rw [typeBodyAt_succ]
      infer_instance

section

variable (kind : DeclarationKind) (attributes : List AttributeUse) (modifiers : List String)
  (around : Surroundings)

instance (depth : Nat) : Drops (typeDeclarationAt depth kind attributes modifiers around) :=
  (dropsTypes depth).1 kind attributes modifiers around

instance (depth : Nat) (name : String) : Drops (typeBodyAt depth name around) :=
  (dropsTypes depth).2 name around

instance (depth : Nat) (name : String) (s : List Member × List TypeDeclaration) :
    Drops (bodyRound depth name around s) :=
  drops_bodyRound fun _ _ _ => inferInstance

instance : Drops (typeDeclaration kind attributes modifiers around) := by
  unfold typeDeclaration
  infer_instance

end

/-! ## Files -/

instance : Drops usingDirective := by
  unfold usingDirective
  dsimp only
  infer_instance

instance : Drops seesUsing := by
  unfold seesUsing
  infer_instance

instance : Drops seesAssemblyAttributes := by
  unfold seesAssemblyAttributes
  infer_instance

instance (s : NamespaceState) : Drops (namespaceType s) := by
  unfold namespaceType
  refine .bind fun attributes => .bind fun words => .bind fun kind => ?_
  split <;> infer_instance

instance (depth : Nat) (name : String) (scope : List UsingDirective) (inBlock : Bool) :
    Drops (namespaceMembersAt depth name scope inBlock) := by
  induction depth generalizing name scope inBlock with
  | zero =>
    unfold namespaceMembersAt
    infer_instance
  | succ depth ih =>
    unfold namespaceMembersAt
    dsimp only
    infer_instance

instance (depth : Nat) (inBlock : Bool) (s : NamespaceState) :
    Drops (namespaceRound depth inBlock s) := by
  unfold namespaceRound
  dsimp only
  infer_instance

end Parse
end CSharp
end ContentModels

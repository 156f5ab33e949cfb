import ContentModels.Proofs.Parsing.Remaining

/-!
# Readers that take a token

A loop ends because each of its rounds that asks for another one has taken a token
(`EatsAgain`).  Most readers take one whenever they succeed (`Eats`).
-/

namespace ContentModels
namespace CSharp
namespace Parse

variable {α β σ : Type}

/-- A reader that succeeds has taken a token. -/
class Eats (p : Parse α) : Prop where
  shorter : ∀ {ctx ts a rest}, p ctx ts = .ok (a, rest) → rest.length < ts.length

/-- A round that asks for another one has taken a token. -/
class EatsAgain (p : Parse (Round σ β)) : Prop where
  shorter : ∀ {ctx ts s rest}, p ctx ts = .ok (.again s, rest) → rest.length < ts.length

theorem Drops.length_le
    {p : Parse α} [hp : Drops p] {ctx : ParseContext} {ts rest : List Token} {a : α}
    (h : p ctx ts = .ok (a, rest)) :
    rest.length ≤ ts.length :=
  (hp.suffix h).length_le

-- A reader with many branches is a large instance.
set_option synthInstance.maxSize 100000

/-! ## Steps -/

namespace Eats

theorem left
    {p : Parse α} {f : α → Parse β} [hp : Eats p] (hf : ∀ a, Drops (f a)) :
    Eats (p >>= f) where
  shorter h := by
    obtain ⟨a, mid, ha, hb⟩ := bind_eq_ok.1 h
    exact Nat.lt_of_le_of_lt ((hf a).length_le hb) (hp.shorter ha)

theorem right
    {p : Parse α} {f : α → Parse β} [hp : Drops p] (hf : ∀ a, Eats (f a)) :
    Eats (p >>= f) where
  shorter h := by
    obtain ⟨a, mid, ha, hb⟩ := bind_eq_ok.1 h
    exact Nat.lt_of_lt_of_le ((hf a).shorter hb) (hp.length_le ha)

/-- Where a mark is accepted a token is taken, so only what follows otherwise has to take one. -/
theorem accept
    {p : Punct} {f : Bool → Parse β} (ht : Drops (f true)) (hf : Eats (f false)) :
    Eats (Parse.accept p >>= f) where
  shorter {ctx ts a rest} h := by
    rw [accept_bind] at h
    split at h
    · rename_i hhead
      have hle := ht.length_le h
      cases ts with
      | nil => cases hhead
      | cons t ts => exact Nat.lt_of_le_of_lt hle (Nat.lt_succ_self _)
    · exact hf.shorter h

end Eats

instance (p : Parse α) (f : α → Parse β) [Eats p] [hf : ∀ a, Drops (f a)] : Eats (p >>= f) :=
  .left hf

instance (priority := low) (p : Parse α) (f : α → Parse β) [Drops p] [hf : ∀ a, Eats (f a)] :
    Eats (p >>= f) :=
  .right hf

instance (p : Punct) (f : Bool → Parse β) [ht : Drops (f true)] [hf : Eats (f false)] :
    Eats (accept p >>= f) :=
  .accept ht hf

instance (c : Prop) [Decidable c] (p q : Parse α) [hp : Eats p] [hq : Eats q] :
    Eats (if c then p else q) := by
  split
  · exact hp
  · exact hq

/-! Of a choice that is decided only one branch counts. -/

instance (priority := high) (p q : Parse α) [hp : Drops p] :
    Drops (if true = true then p else q) :=
  hp

instance (priority := high) (p q : Parse α) [hp : Eats p] :
    Eats (if true = true then p else q) :=
  hp

instance (priority := high) (p q : Parse α) [hq : Eats q] :
    Eats (if false = true then p else q) :=
  hq

instance (fault : Fault) : Eats (fail fault : Parse α) :=
  ⟨nofun⟩

instance (fault : Fault) (f : α → Parse β) : Eats (fail fault >>= f) :=
  ⟨nofun⟩

/-- A loop takes a token if each of its rounds does. -/
instance (init : σ) (step : σ → Parse (Round σ β)) [hstep : ∀ s, Eats (step s)] :
    Eats (loop init step) where
  shorter {ctx ts b rest} h := by
    refine rounds_induction (motive := fun _ ts => rest.length < ts.length) h ?_ ?_
    · exact fun s ts hdone => (hstep s).shorter hdone
    · exact fun s ts s' mid hagain ih => Nat.lt_trans ih ((hstep s).shorter hagain)

instance (p : Nat → Parse α) [hp : ∀ depth, Eats (p depth)] : Eats (nested p) :=
  ⟨fun h => (hp _).shorter h⟩

instance : Eats ident where
  shorter {ctx ts a rest} h := by
    have hbind := @ident_bind String ctx ts pure
    rw [bind_pure, h] at hbind
    cases ts with
    | nil => cases hbind
    | cons t ts =>
      split at hbind
      · cases hbind
        exact Nat.lt_succ_self _
      · cases hbind

instance (p : Punct) : Eats (expect p) where
  shorter h := by
    obtain ⟨l, rfl⟩ := expect_eq_ok.1 h
    exact Nat.lt_succ_self _

theorem closeGroups_shorter
    {endLine : Nat} {stack : List Punct} {ts rest : List Token}
    (h : closeGroups endLine stack ts = .ok rest) :
    rest.length < ts.length := by
  cases ts with
  | nil =>
    unfold closeGroups at h
    cases h
  | cons t ts =>
    rw [closeGroups] at h
    split at h
    · cases h
    · cases h
      exact Nat.lt_succ_self _
    · exact Nat.lt_succ_of_le (closeGroups_suffix h).length_le

instance : Eats skipGroup :=
  ⟨fun h => closeGroups_shorter (skipGroup_eq_ok.1 h)⟩

theorem dropToMark_ne_nil
    {marks : List Punct} {endLine : Nat} {stack : List Punct} {ts rest : List Token}
    (h : dropToMark marks endLine stack ts = .ok rest) :
    rest ≠ [] := by
  induction ts generalizing stack with
  | nil => cases stack <;> cases h
  | cons t ts ih =>
    cases stack with
    | nil =>
      rw [dropToMark] at h
      split at h
      · split at h
        · cases h
        · exact ih h
      · split at h
        · cases h
          exact List.cons_ne_nil _ _
        · exact ih h
    | cons closer outer =>
      rw [dropToMark] at h
      split at h
      · cases h
      · exact ih h

instance : Eats skipStatement where
  shorter h := by
    unfold skipStatement at h
    obtain ⟨_, mid, hskip, hrest⟩ := bind_eq_ok.1 h
    obtain ⟨-, rfl⟩ := Prod.mk.inj (Except.ok.inj hrest)
    have hle := Drops.length_le hskip
    have hpos := List.length_pos_iff.2 (dropToMark_ne_nil (skipTo_eq_ok.1 hskip))
    rw [List.length_drop]
    omega

instance (ends : List Punct) : Eats (skipExpression ends) where
  shorter h := by
    unfold skipExpression at h
    rw [tokens_bind] at h
    obtain ⟨_, mid, hskip, h⟩ := bind_eq_ok.1 h
    rw [tokens_bind] at h
    split at h
    · cases h
    · rename_i hne
      cases h
      exact Nat.lt_of_le_of_ne (Drops.length_le hskip) hne

instance (p : Parse α) [Eats p] : Eats (withTokens p) := by
  unfold withTokens
  infer_instance

namespace EatsAgain

theorem left
    {p : Parse α} {f : α → Parse (Round σ β)} [hp : Eats p] (hf : ∀ a, Drops (f a)) :
    EatsAgain (p >>= f) :=
  ⟨fun h => (Eats.left hf).shorter h⟩

theorem right
    {p : Parse α} {f : α → Parse (Round σ β)} [hp : Drops p] (hf : ∀ a, EatsAgain (f a)) :
    EatsAgain (p >>= f) where
  shorter h := by
    obtain ⟨a, mid, ha, hb⟩ := bind_eq_ok.1 h
    exact Nat.lt_of_lt_of_le ((hf a).shorter hb) (hp.length_le ha)

theorem accept
    {p : Punct} {f : Bool → Parse (Round σ β)} (ht : Drops (f true)) (hf : EatsAgain (f false)) :
    EatsAgain (Parse.accept p >>= f) where
  shorter {ctx ts a rest} h := by
    rw [accept_bind] at h
    split at h
    · rename_i hhead
      have hle := ht.length_le h
      cases ts with
      | nil => cases hhead
      | cons t ts => exact Nat.lt_of_le_of_lt hle (Nat.lt_succ_self _)
    · exact hf.shorter h

end EatsAgain

instance (priority := low) (p : Parse (Round σ β)) [hp : Eats p] : EatsAgain p :=
  ⟨fun h => hp.shorter h⟩

instance (p : Parse α) (f : α → Parse (Round σ β)) [Eats p] [hf : ∀ a, Drops (f a)] :
    EatsAgain (p >>= f) :=
  .left hf

instance (priority := low) (p : Parse α) (f : α → Parse (Round σ β)) [Drops p]
    [hf : ∀ a, EatsAgain (f a)] : EatsAgain (p >>= f) :=
  .right hf

instance (p : Punct) (f : Bool → Parse (Round σ β)) [ht : Drops (f true)]
    [hf : EatsAgain (f false)] : EatsAgain (accept p >>= f) :=
  .accept ht hf

instance (c : Prop) [Decidable c] (p q : Parse (Round σ β)) [hp : EatsAgain p]
    [hq : EatsAgain q] : EatsAgain (if c then p else q) := by
  split
  · exact hp
  · exact hq

instance (priority := high) (p q : Parse (Round σ β)) [hq : EatsAgain q] :
    EatsAgain (if false = true then p else q) :=
  hq

instance (b : β) : EatsAgain (pure (.done b) : Parse (Round σ β)) :=
  ⟨nofun⟩

instance (fault : Fault) : EatsAgain (fail fault : Parse (Round σ β)) :=
  ⟨nofun⟩

instance (fault : Fault) (f : α → Parse (Round σ β)) : EatsAgain (fail fault >>= f) :=
  ⟨nofun⟩

/-! ## Type names and attributes -/

instance (arguments : Parse Nat) [Drops arguments] (path : List String) :
    Eats (nameRound arguments path) := by
  unfold nameRound
  dsimp only
  infer_instance

instance (arguments : Parse Nat) [Drops arguments] : Eats (nameAt arguments) := by
  unfold nameAt
  dsimp only
  infer_instance

instance (depth : Nat) : Eats (typeNameAt depth) := by
  cases depth with
  | zero =>
    unfold typeNameAt
    infer_instance
  | succ depth =>
    rw [typeNameAt_succ]
    dsimp only
    infer_instance

instance (depth : Nat) : Eats (attributeSectionAt depth) := by
  cases depth with
  | zero =>
    unfold attributeSectionAt
    infer_instance
  | succ depth =>
    unfold attributeSectionAt
    dsimp only
    infer_instance

instance (depth arity : Nat) : EatsAgain (argumentRound depth arity) := by
  unfold argumentRound
  dsimp only
  infer_instance

instance (depth : Nat) : Eats (typeArgumentsAt depth) := by
  cases depth with
  | zero =>
    unfold typeArgumentsAt
    infer_instance
  | succ depth =>
    unfold typeArgumentsAt
    dsimp only
    infer_instance

instance (depth : Nat) : Eats (attributeArgumentsAt depth) := by
  cases depth with
  | zero =>
    unfold attributeArgumentsAt
    infer_instance
  | succ depth =>
    unfold attributeArgumentsAt
    infer_instance

/-- A literal that is found has been taken. -/
theorem literalArgument_shorter
    {ctx : ParseContext} {ts rest : List Token} {value : String}
    (h : literalArgument ctx ts = .ok (some value, rest)) :
    rest.length < ts.length := by
  rw [literalArgument_apply] at h
  cases ts with
  | nil => cases h
  | cons t ts =>
    split at h
    · split at h <;> cases h
      exact Nat.lt_succ_self _
    · cases h

instance (depth : Nat) : Eats (attributeValueAt depth) where
  shorter {ctx ts a rest} h := by
    cases depth with
    | zero =>
      unfold attributeValueAt at h
      cases h
    | succ depth =>
      unfold attributeValueAt at h
      dsimp only at h
      obtain ⟨literal, mid, hliteral, hrest⟩ := bind_eq_ok.1 h
      cases literal with
      | some value =>
        obtain ⟨-, rfl⟩ := pure_eq_ok.1 hrest
        exact literalArgument_shorter hliteral
      | none =>
        dsimp only at hrest
        exact Nat.lt_of_lt_of_le (Eats.shorter hrest) (Drops.length_le hliteral)

instance : Eats typeName :=
  inferInstanceAs (Eats (nested typeNameAt))

instance : Eats typeArguments :=
  inferInstanceAs (Eats (nested typeArgumentsAt))

instance : Eats attributeSection :=
  inferInstanceAs (Eats (nested attributeSectionAt))

/-! ## Members and types -/

instance : Eats parameters := by
  unfold parameters
  infer_instance

instance (feature : Feature) : Eats (skipArrowBody feature) := by
  unfold skipArrowBody
  infer_instance

instance (feature : Feature) : Eats (skipBody feature) := by
  unfold skipBody
  infer_instance

/-- Check the word of an accessor. -/
def accessorWord (line : Nat) (word : Option String) : Parse Unit :=
  match word with
  | some "get" | some "set" | some "add" | some "remove" => pure ()
  | some "init" => require .initOnlySetters line
  | _ => fail .accessorExpected

theorem skipAccessor_eq :
    skipAccessor = (do
      let _ ← attributeSections
      let _ ← keywords ["private", "protected", "internal", "readonly"]
      let line ← line
      let next ← peek
      accessorWord line (next.bind TokenKind.keyword?)
      advance
      skipBody .expressionBodiedAccessor) := by
  unfold skipAccessor
  refine congrArg _ (funext fun _ => congrArg _ (funext fun _ => congrArg _ (funext fun line =>
    congrArg _ (funext fun next => ?_))))
  generalize next.bind TokenKind.keyword? = word
  split
  · rfl
  · rfl
  · rfl
  · rfl
  · rfl
  · unfold accessorWord
    split
    · contradiction
    · contradiction
    · contradiction
    · contradiction
    · contradiction
    · rfl

instance (line : Nat) (word : Option String) : Drops (accessorWord line word) := by
  unfold accessorWord
  split <;> infer_instance

instance : Eats skipAccessor := by
  rw [skipAccessor_eq]
  infer_instance

instance : Eats skipPropertyBody := by
  unfold skipPropertyBody
  dsimp only
  infer_instance

instance : Eats skipOperator := by
  unfold skipOperator
  infer_instance

instance : Eats memberName := by
  unfold memberName
  dsimp only
  infer_instance

instance (type : TypeName) : Eats (namedMembers type) := by
  unfold namedMembers
  dsimp only
  infer_instance

instance (name : String) : Eats (memberKinds name) := by
  unfold memberKinds
  dsimp only
  infer_instance

instance (name : String) (attributes : List AttributeUse) (modifiers : List String) :
    Eats (members name attributes modifiers) := by
  unfold members
  infer_instance

section

variable (kind : DeclarationKind) (attributes : List AttributeUse) (modifiers : List String)
  (around : Surroundings)

instance : Eats (delegateDeclaration attributes modifiers around) := by
  unfold delegateDeclaration
  infer_instance

instance : Eats (typeHead kind attributes modifiers around) := by
  unfold typeHead
  infer_instance

instance (depth : Nat) (name : String) : Eats (typeBodyAt depth name around) := by
  cases depth with
  | zero =>
    unfold typeBodyAt
    infer_instance
  | succ depth =>
    rw [typeBodyAt_succ]
    infer_instance

instance (depth : Nat) : Eats (typeDeclarationAt depth kind attributes modifiers around) := by
  cases depth with
  | zero =>
    unfold typeDeclarationAt
    infer_instance
  | succ depth =>
    unfold typeDeclarationAt
    dsimp only
    infer_instance

instance : Eats (typeDeclaration kind attributes modifiers around) := by
  unfold typeDeclaration
  infer_instance

end

/-- Read a member or a type in a body, after the attributes and modifiers in front of it. -/
def bodyItem
    (depth : Nat) (name : String) (around : Surroundings) (s : List Member × List TypeDeclaration)
    (attributes : List AttributeUse) (words : List String) (kind : Option DeclarationKind) :
    Parse (Round (List Member × List TypeDeclaration) (List Member × List TypeDeclaration)) :=
  match kind with
  | some kind => do
    let types ← typeDeclarationAt depth kind attributes words around
    return .again (s.1, s.2 ++ types)
  | none => do
    let more ← members name attributes words
    return .again (s.1 ++ more, s.2)

section

variable (depth : Nat) (name : String) (around : Surroundings)
  (s : List Member × List TypeDeclaration)

theorem bodyRound_eq :
    bodyRound depth name around s = (do
      if (← peek).isNone then fail (.expected .closeBrace)
      if ← accept .closeBrace then return .done (s.1, s.2)
      if ← accept .semicolon then return .again (s.1, s.2)
      let attributes ← attributeSections
      let words ← modifiers
      bodyItem depth name around s attributes words (← seesType)) := by
  rfl

variable (attributes : List AttributeUse) (words : List String) (kind : Option DeclarationKind)

instance : Drops (bodyItem depth name around s attributes words kind) := by
  unfold bodyItem
  split <;> infer_instance

instance : Eats (bodyItem depth name around s attributes words kind) := by
  unfold bodyItem
  split <;> infer_instance

instance : EatsAgain (bodyRound depth name around s) := by
  rw [bodyRound_eq]
  dsimp only
  infer_instance

instance : Eats (bodyRound depth name around s) := by
  rw [bodyRound_eq]
  dsimp only
  infer_instance

end

/-! ## Files -/

instance : Eats usingDirective := by
  unfold usingDirective
  dsimp only
  infer_instance

/-- Read a type in a namespace, after the attributes and modifiers in front of it. -/
def namespaceItem
    (s : NamespaceState) (attributes : List AttributeUse) (words : List String)
    (kind : Option DeclarationKind) : Parse (List TypeDeclaration) :=
  match kind with
  | some kind => typeDeclaration kind attributes words ⟨s.name, [], s.scope⟩
  | none => fail .namespaceMember

theorem namespaceType_eq
    (s : NamespaceState) :
    namespaceType s = (do
      let attributes ← attributeSections
      let words ← modifiers
      namespaceItem s attributes words (← seesType)) := by
  rfl

section

variable (s : NamespaceState) (attributes : List AttributeUse) (words : List String)
  (kind : Option DeclarationKind)

instance : Drops (namespaceItem s attributes words kind) := by
  unfold namespaceItem
  split <;> infer_instance

instance : Eats (namespaceItem s attributes words kind) := by
  unfold namespaceItem
  split <;> infer_instance

end

instance (s : NamespaceState) : Eats (namespaceType s) := by
  rw [namespaceType_eq]
  infer_instance

/-- A mark that is seen can be taken. -/
instance (p : Punct) (feature : Feature) (line : Nat) (f : Unit → Parse α) (q : Parse α)
    [hf : ∀ u, Drops (f u)] [hq : Eats q] :
    Eats (do
      if ← sees p then
        require feature line
        advance >>= f
      else q) where
  shorter {ctx ts a rest} h := by
    simp only [sees_bind, List.drop_zero, ite_apply] at h
    split at h
    · rename_i hsees
      obtain ⟨_, mid, hrequire, h⟩ := bind_eq_ok.1 h
      have hle := Drops.length_le hrequire
      cases ts with
      | nil => cases hsees
      | cons t ts =>
        have hmid : mid = t :: ts := by
          unfold require at hrequire
          split at hrequire <;> cases hrequire
          rfl
        subst hmid
        exact Nat.lt_succ_of_le ((hf ()).length_le h)
    · exact hq.shorter h

instance (depth : Nat) (s : NamespaceState) : Eats (namespaceRound depth true s) := by
  unfold namespaceRound
  dsimp only
  infer_instance

instance (depth : Nat) (name : String) (scope : List UsingDirective) :
    Eats (namespaceMembersAt depth name scope true) := by
  cases depth with
  | zero =>
    unfold namespaceMembersAt
    infer_instance
  | succ depth =>
    rw [namespaceMembersAt_succ]
    infer_instance

instance (depth : Nat) (inBlock : Bool) (s : NamespaceState) :
    EatsAgain (namespaceRound depth inBlock s) := by
  unfold namespaceRound
  dsimp only
  infer_instance

end Parse
end CSharp
end ContentModels

import Mathlib.Data.List.Basic
import ContentModels.CSharp.Compilation

/-!
# Source files in newer versions of the language

A version adds features and takes none away.  So a file that is read in one version is read
in every newer one with the same result, and a file that is refused is refused on the same
line for the same reason, unless the reason is that the older version lacks a feature.

Readers ask for the version only where syntax needs a feature.  One reader tries another and
goes on when this one fails, so nothing that is tried may ask: readers are told apart by
whether they may (`KeepsAnswers`), and each has its property from the readers it is made of.
-/

namespace ContentModels
namespace CSharp

variable {α β σ : Type} {v w : LanguageVersion} {gated : Bool}

/-- Reading ends with the diagnostic that a version lacks a feature. -/
def LacksFeature (v : LanguageVersion) (r : Except Diagnostic α) : Prop :=
  ∃ line feature, v.supports feature = false ∧ r = .error ⟨line, .unavailable feature v⟩

/--
In a newer version a reader gives the answer that it gives in an older one.  Where it is
gated, the answer in the older one may also be that a feature is lacking.
-/
class KeepsAnswers (gated : Bool) (p : Parse α) : Prop where
  kept : ∀ {v w : LanguageVersion}, v.atMost w = true → ∀ endLine ts,
    p ⟨v, endLine⟩ ts = p ⟨w, endLine⟩ ts ∨ gated = true ∧ LacksFeature v (p ⟨v, endLine⟩ ts)

namespace KeepsAnswers

/-- What a reader answers does not depend on the version at all. -/
theorem of_eq
    {p : Parse α} (h : ∀ v w endLine ts, p ⟨v, endLine⟩ ts = p ⟨w, endLine⟩ ts) :
    KeepsAnswers gated p :=
  ⟨fun {v w} _ endLine ts => .inl (h v w endLine ts)⟩

/-- A reader that is not gated answers the same in both versions. -/
theorem eq
    (p : Parse α) [hp : KeepsAnswers false p] (h : v.atMost w = true) (endLine : Nat)
    (ts : List Token) :
    p ⟨v, endLine⟩ ts = p ⟨w, endLine⟩ ts := by
  rcases hp.kept h endLine ts with heq | ⟨hfalse, -⟩
  · exact heq
  · cases hfalse

/-- A sequence keeps its answers if its parts do. -/
theorem bind
    {p : Parse α} {f : α → Parse β} [hp : KeepsAnswers gated p]
    (hf : ∀ a, KeepsAnswers gated (f a)) :
    KeepsAnswers gated (p >>= f) where
  kept {v w} h endLine ts := by
    simp only [Parse.bind_apply]
    rcases hp.kept h endLine ts with heq | ⟨hgated, line, feature, hlacks, heq⟩
    · rw [heq]
      cases p ⟨w, endLine⟩ ts with
      | error d => exact .inl rfl
      | ok x => exact (hf x.1).kept h endLine x.2
    · rw [heq]
      exact .inr ⟨hgated, line, feature, hlacks, rfl⟩

theorem rounds
    {step : σ → Parse (Parse.Round σ β)} (hstep : ∀ s, KeepsAnswers gated (step s))
    (n : Nat) (s : σ) :
    KeepsAnswers gated (Parse.rounds step n s) := by
  induction n generalizing s with
  | zero => exact of_eq fun _ _ _ _ => rfl
  | succ n ih =>
    unfold Parse.rounds
    refine bind fun round => ?_
    cases round with
    | again s => exact ih s
    | done b => exact of_eq fun _ _ _ _ => rfl

/-- A loop keeps its answers if its rounds do. -/
theorem loop
    {init : σ} {step : σ → Parse (Parse.Round σ β)} (hstep : ∀ s, KeepsAnswers gated (step s)) :
    KeepsAnswers gated (Parse.loop init step) where
  kept h endLine ts := (rounds hstep (ts.length + 1) init).kept h endLine ts

end KeepsAnswers

namespace Parse

-- A reader with many branches is a large instance.
set_option synthInstance.maxSize 100000

/-! ## Steps -/

instance (a : α) : KeepsAnswers gated (pure a : Parse α) :=
  .of_eq fun _ _ _ _ => rfl

instance (p : Parse α) (f : α → Parse β) [KeepsAnswers gated p]
    [hf : ∀ a, KeepsAnswers gated (f a)] : KeepsAnswers gated (p >>= f) :=
  .bind hf

instance (c : Prop) [Decidable c] (p q : Parse α) [hp : KeepsAnswers gated p]
    [hq : KeepsAnswers gated q] : KeepsAnswers gated (if c then p else q) := by
  split
  · exact hp
  · exact hq

instance (init : σ) (step : σ → Parse (Round σ β)) [hstep : ∀ s, KeepsAnswers gated (step s)] :
    KeepsAnswers gated (loop init step) :=
  .loop hstep

instance (p : Nat → Parse α) [hp : ∀ depth, KeepsAnswers gated (p depth)] :
    KeepsAnswers gated (nested p) where
  kept h endLine ts := (hp (ts.length + 1)).kept h endLine ts

instance : KeepsAnswers gated tokens :=
  .of_eq fun _ _ _ _ => rfl

instance : KeepsAnswers gated line :=
  .of_eq fun _ _ _ _ => rfl

instance (fault : Fault) : KeepsAnswers gated (fail fault : Parse α) :=
  .of_eq fun _ _ _ _ => rfl

/-- What would follow a failure is not read. -/
instance (fault : Fault) (f : α → Parse β) : KeepsAnswers gated (fail fault >>= f) :=
  .of_eq fun _ _ _ _ => rfl

instance (n : Nat) : KeepsAnswers gated (peek n) :=
  .of_eq fun _ _ _ _ => rfl

instance (n : Nat) : KeepsAnswers gated (advance n) :=
  .of_eq fun _ _ _ _ => rfl

instance (p : Punct) (n : Nat) : KeepsAnswers gated (sees p n) :=
  .of_eq fun _ _ _ _ => rfl

instance (word : String) (n : Nat) : KeepsAnswers gated (seesKeyword word n) :=
  .of_eq fun _ _ _ _ => rfl

instance (n : Nat) : KeepsAnswers gated (seesIdent n) :=
  .of_eq fun _ _ _ _ => rfl

instance (p : Punct) : KeepsAnswers gated (accept p) := by
  unfold accept
  infer_instance

instance (p : Punct) : KeepsAnswers gated (expect p) := by
  unfold expect
  infer_instance

instance : KeepsAnswers gated ident := by
  unfold ident
  refine .bind fun kind => ?_
  split <;> infer_instance

instance (allowed : List String) : KeepsAnswers gated (keywords allowed) :=
  .of_eq fun _ _ _ _ => rfl

instance (marks : List Punct) (fault : Fault) : KeepsAnswers gated (dropUntil marks fault) :=
  .of_eq fun _ _ _ _ => rfl

instance : KeepsAnswers gated skipGroup :=
  .of_eq fun _ _ _ _ => rfl

instance (marks : List Punct) : KeepsAnswers gated (skipTo marks) :=
  .of_eq fun _ _ _ _ => rfl

instance : KeepsAnswers gated typeSuffixes :=
  .of_eq fun _ _ _ _ => rfl

instance : KeepsAnswers gated modifiers :=
  .of_eq fun _ _ _ _ => rfl

/-- Here the version decides, and a newer one has the feature too. -/
instance (feature : Feature) (line : Nat) : KeepsAnswers true (require feature line) where
  kept {v w} h endLine ts := by
    unfold require
    cases hv : v.supports feature with
    | true => simp [LanguageVersion.supports_of_atMost hv h]
    | false => exact .inr ⟨rfl, line, feature, hv, rfl⟩

/-- What is tried must not be gated, since its failure is forgotten. -/
instance (p : Parse α) [KeepsAnswers false p] : KeepsAnswers gated (attempt p) where
  kept h endLine ts := by
    unfold attempt
    rw [KeepsAnswers.eq p h]
    exact .inl rfl

/-! ## Type names and attributes -/

instance (ends : List Punct) : KeepsAnswers gated (skipExpression ends) := by
  unfold skipExpression
  infer_instance

instance : KeepsAnswers gated skipStatement := by
  unfold skipStatement
  infer_instance

instance (p : Parse α) [KeepsAnswers gated p] : KeepsAnswers gated (withTokens p) := by
  unfold withTokens
  infer_instance

instance (n : Nat) : KeepsAnswers gated (argumentEnds n) := by
  unfold argumentEnds
  infer_instance

instance : KeepsAnswers gated globalMark := by
  unfold globalMark
  infer_instance

instance : KeepsAnswers gated argumentName := by
  unfold argumentName
  infer_instance

instance : KeepsAnswers gated literalArgument := by
  unfold literalArgument
  refine .bind fun kind => ?_
  split <;> infer_instance

/-- The readers that call each other, nested at most that deep, keep their answers. -/
structure KeepsNested (gated : Bool) (depth : Nat) : Prop where
  typeName : KeepsAnswers gated (typeNameAt depth)
  typeArguments : KeepsAnswers gated (typeArgumentsAt depth)
  attributeSection : KeepsAnswers gated (attributeSectionAt depth)
  attributeArguments : KeepsAnswers gated (attributeArgumentsAt depth)
  attributeValue : KeepsAnswers gated (attributeValueAt depth)

theorem keepsNested
    (depth : Nat) :
    KeepsNested gated depth := by
  induction depth with
  | zero =>
    constructor
    · unfold typeNameAt
      infer_instance
    · unfold typeArgumentsAt
      infer_instance
    · unfold attributeSectionAt
      infer_instance
    · unfold attributeArgumentsAt
      infer_instance
    · unfold attributeValueAt
      infer_instance
  | succ depth ih =>
    -- The instances for the readers one level in are found among these.
    obtain ⟨_, _, _, _, _⟩ := ih
    constructor
    · unfold typeNameAt
      dsimp only
      infer_instance
    · unfold typeArgumentsAt
      dsimp only
      infer_instance
    · unfold attributeSectionAt
      dsimp only
      infer_instance
    · unfold attributeArgumentsAt
      infer_instance
    · unfold attributeValueAt
      dsimp only
      refine .bind fun literal => ?_
      split <;> infer_instance

instance (depth : Nat) : KeepsAnswers gated (typeNameAt depth) :=
  (keepsNested depth).typeName

instance (depth : Nat) : KeepsAnswers gated (typeArgumentsAt depth) :=
  (keepsNested depth).typeArguments

instance (depth : Nat) : KeepsAnswers gated (attributeSectionAt depth) :=
  (keepsNested depth).attributeSection

instance : KeepsAnswers gated typeName :=
  inferInstanceAs (KeepsAnswers gated (nested typeNameAt))

instance : KeepsAnswers gated typeArguments :=
  inferInstanceAs (KeepsAnswers gated (nested typeArgumentsAt))

instance : KeepsAnswers gated attributeSection :=
  inferInstanceAs (KeepsAnswers gated (nested attributeSectionAt))

instance : KeepsAnswers gated typeParameters := by
  unfold typeParameters
  infer_instance

instance : KeepsAnswers gated attributeSections := by
  unfold attributeSections
  infer_instance

/-! ## Members -/

instance : KeepsAnswers gated parameter := by
  unfold parameter
  dsimp only
  infer_instance

instance : KeepsAnswers gated parameters := by
  unfold parameters
  infer_instance

/-- The names of members, whose qualifiers are tried, need no feature. -/
instance : KeepsAnswers gated qualifierArguments := by
  unfold qualifierArguments
  infer_instance

instance : KeepsAnswers gated memberName := by
  unfold memberName
  dsimp only
  infer_instance

instance (marks : List Punct) (fault : Fault) : KeepsAnswers gated (skipConstraints marks fault) := by
  unfold skipConstraints
  infer_instance

instance : KeepsAnswers gated skipConstructorChain := by
  unfold skipConstructorChain
  dsimp only
  infer_instance

instance (first : String) : KeepsAnswers gated (fieldNames first) := by
  unfold fieldNames
  dsimp only
  infer_instance

instance (feature : Feature) : KeepsAnswers true (skipArrowBody feature) := by
  unfold skipArrowBody
  infer_instance

instance (feature : Feature) : KeepsAnswers true (skipBody feature) := by
  unfold skipBody
  infer_instance

instance : KeepsAnswers true skipAccessor := by
  unfold skipAccessor
  dsimp only
  refine .bind fun _ => .bind fun _ => .bind fun line => .bind fun kind => ?_
  split <;> infer_instance

instance : KeepsAnswers true skipPropertyBody := by
  unfold skipPropertyBody
  dsimp only
  infer_instance

instance : KeepsAnswers true skipOperator := by
  unfold skipOperator
  infer_instance

instance (type : TypeName) : KeepsAnswers true (namedMembers type) := by
  unfold namedMembers
  dsimp only
  infer_instance

instance (name : String) : KeepsAnswers true (memberKinds name) := by
  unfold memberKinds
  dsimp only
  infer_instance

instance (name : String) (attributes : List AttributeUse) (modifiers : List String) :
    KeepsAnswers true (members name attributes modifiers) := by
  unfold members
  infer_instance

/-! ## Types -/

instance : KeepsAnswers gated seesType := by
  unfold seesType
  infer_instance

instance (kind : DeclarationKind) : KeepsAnswers gated (baseList kind) := by
  unfold baseList
  dsimp only
  infer_instance

instance (kind : DeclarationKind) : KeepsAnswers true (declarationKeyword kind) := by
  unfold declarationKeyword
  infer_instance

section

variable (kind : DeclarationKind) (attributes : List AttributeUse) (modifiers : List String)
  (around : Surroundings)

instance : KeepsAnswers gated (delegateDeclaration attributes modifiers around) := by
  unfold delegateDeclaration
  infer_instance

instance : KeepsAnswers gated (typeHead kind attributes modifiers around) := by
  unfold typeHead
  infer_instance

end

theorem keepsTypes
    (depth : Nat) :
    (∀ kind attributes modifiers around,
      KeepsAnswers true (typeDeclarationAt depth kind attributes modifiers around)) ∧
    ∀ name around, KeepsAnswers true (typeBodyAt depth name around) := by
  induction depth with
  | zero =>
    constructor
    · intro kind attributes modifiers around
      unfold typeDeclarationAt
      infer_instance
    · intro name around
      unfold typeBodyAt
      infer_instance
  | succ depth ih =>
    obtain ⟨_, _⟩ := ih
    constructor
    · intro kind attributes modifiers around
      unfold typeDeclarationAt
      dsimp only
      infer_instance
    · intro name around
      unfold typeBodyAt
      dsimp only
      refine .bind fun _ => .loop fun read => .bind fun next => ?_
      split
      · infer_instance
      · refine .bind fun closed => ?_
        split
        · infer_instance
        · refine .bind fun empty => ?_
          split
          · infer_instance
          · refine .bind fun attributes => .bind fun words => .bind fun kind => ?_
            split <;> infer_instance

/-! ## Files -/

section

variable (kind : DeclarationKind) (attributes : List AttributeUse) (modifiers : List String)
  (around : Surroundings)

instance (depth : Nat) :
    KeepsAnswers true (typeDeclarationAt depth kind attributes modifiers around) :=
  (keepsTypes depth).1 kind attributes modifiers around

instance : KeepsAnswers true (typeDeclaration kind attributes modifiers around) := by
  unfold typeDeclaration
  infer_instance

end

instance : KeepsAnswers true usingDirective := by
  unfold usingDirective
  dsimp only
  infer_instance

instance : KeepsAnswers gated seesUsing := by
  unfold seesUsing
  infer_instance

instance : KeepsAnswers gated seesAssemblyAttributes := by
  unfold seesAssemblyAttributes
  infer_instance

instance (s : NamespaceState) : KeepsAnswers true (namespaceType s) := by
  unfold namespaceType
  refine .bind fun attributes => .bind fun words => .bind fun kind => ?_
  split <;> infer_instance

instance (depth : Nat) (name : String) (scope : List UsingDirective) (inBlock : Bool) :
    KeepsAnswers true (namespaceMembersAt depth name scope inBlock) := by
  induction depth generalizing name scope inBlock with
  | zero =>
    unfold namespaceMembersAt
    infer_instance
  | succ depth ih =>
    unfold namespaceMembersAt
    dsimp only
    infer_instance

instance : KeepsAnswers true fileContents := by
  unfold fileContents
  infer_instance

end Parse

/-- The features that tokens need by themselves, a newer version has too, if the older one has them. -/
theorem checkTokens_kept
    (h : v.atMost w = true) (ts : List Token) :
    checkTokens v ts = checkTokens w ts ∨ LacksFeature v (checkTokens v ts) := by
  induction ts with
  | nil => exact .inl rfl
  | cons t ts ih =>
    unfold checkTokens
    cases hv : (neededFeatures t.kind (ts.head?.map (·.kind))).find? (!v.supports ·) with
    | some feature =>
      have hlacks := List.find?_some hv
      exact .inr ⟨t.line, feature, by simpa using hlacks, rfl⟩
    | none =>
      have hw : (neededFeatures t.kind (ts.head?.map (·.kind))).find? (!w.supports ·) = none := by
        rw [List.find?_eq_none] at hv ⊢
        intro feature hfeature
        have hsupports : v.supports feature = true := by simpa using hv feature hfeature
        simp [LanguageVersion.supports_of_atMost hsupports h]
      rw [hw]
      exact ih

/-- What is read in steps is kept if each step is. -/
theorem LacksFeature.eq_or_bind
    {r r' : Except Diagnostic α} {f f' : α → Except Diagnostic β}
    (hr : r = r' ∨ LacksFeature v r) (hf : ∀ a, f a = f' a ∨ LacksFeature v (f a)) :
    (r >>= f) = (r' >>= f') ∨ LacksFeature v (r >>= f) := by
  rcases hr with rfl | ⟨line, feature, hlacks, rfl⟩
  · cases r with
    | error d => exact .inl rfl
    | ok a => exact hf a
  · exact .inr ⟨line, feature, hlacks, rfl⟩

theorem parseSource_kept
    (h : v.atMost w = true) (file source : String) :
    parseSource file source v = parseSource file source w ∨
      LacksFeature v (parseSource file source v) := by
  unfold parseSource
  refine LacksFeature.eq_or_bind (.inl rfl) fun lexed => ?_
  refine LacksFeature.eq_or_bind (checkTokens_kept h lexed.tokens) fun _ => ?_
  refine LacksFeature.eq_or_bind ?_ fun _ => .inl rfl
  have hcontents : KeepsAnswers true Parse.fileContents := inferInstance
  exact (hcontents.kept h _ lexed.tokens).imp_right And.right

/-! ## Results -/

/--
A file that is read or refused in one version is so in every newer one, with the same unit or
the same failure, unless it is refused because the older version lacks a feature.
-/
theorem parseUnit_kept
    (h : v.atMost w = true) (file source : String) :
    parseUnit file source v = parseUnit file source w ∨
      ∃ line feature, v.supports feature = false ∧
        parseUnit file source v = .error (.compilation file ⟨line, .unavailable feature v⟩) := by
  unfold parseUnit
  rcases parseSource_kept h file source with heq | ⟨line, feature, hlacks, heq⟩
  · exact .inl (by rw [heq])
  · exact .inr ⟨line, feature, hlacks, by rw [heq]⟩

/-- A record, which the newest version reads and the standard one refuses for lack of a feature. -/
theorem parseUnit_kept_record :
    LanguageVersion.standard.atMost .latest = true ∧
      (parseUnit "Page.cs" "public record Page;" .latest).isOk = true ∧
      ∃ line feature, LanguageVersion.standard.supports feature = false ∧
        parseUnit "Page.cs" "public record Page;" .standard =
          .error (.compilation "Page.cs" ⟨line, .unavailable feature .standard⟩) := by
  have holder : LanguageVersion.standard.atMost .latest = true := by decide
  have hdiffer : parseUnit "Page.cs" "public record Page;" .standard ≠
      parseUnit "Page.cs" "public record Page;" .latest := by
    decide +kernel
  exact ⟨holder, by decide +kernel,
    (parseUnit_kept holder "Page.cs" "public record Page;").resolve_left hdiffer⟩

/-- The feature is that of records. -/
example :
    parseUnit "Page.cs" "public record Page;" .standard =
      .error (.compilation "Page.cs" ⟨1, .unavailable .records .standard⟩) := by
  decide +kernel

end CSharp
end ContentModels

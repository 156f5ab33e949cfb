import ContentModels.Proofs.Parsing.Boundaries

/-!
# Declarations that end where they end

Every reader of a part of a file reads tokens that end with a mark alike whatever stands behind
them, and members, types, namespaces and directives end with such a mark.
-/

namespace ContentModels
namespace CSharp
namespace Parse

-- A reader with many branches is a large instance.
set_option synthInstance.maxSize 100000

/-! ## Type names and attributes -/

instance (n : Nat) : TakesNothing (argumentEnds n) :=
  ⟨fun h => by cases h; rfl⟩

instance : Carries (argumentEnds 0) := by
  unfold argumentEnds
  infer_instance

instance : Carries globalMark := by
  unfold globalMark
  infer_instance

instance : Carries argumentName := by
  unfold argumentName
  infer_instance

instance : Carries literalArgument where
  carried {ctx pre mid rest rest' a} hmid h := by
    have hpre := hmid.of_suffix (suffix_of_append (Drops.suffix h))
    have hstop : Except.ok (none, pre ++ rest) = (.ok (a, mid ++ rest) : Except Diagnostic _) →
        Except.ok (none, pre ++ rest') = (.ok (a, mid ++ rest') : Except Diagnostic _) := by
      intro hstop
      obtain ⟨rfl, heq⟩ := Prod.mk.inj (Except.ok.inj hstop)
      rw [List.append_cancel_right heq]
    rw [literalArgument_apply] at h ⊢
    rw [hpre.headKind_append rest rest']
    split at h
    · rename_i value raw hhead
      -- A literal ends no declaration, so the token behind it is one of those too.
      rw [hpre.headKind_drop_one hhead rfl rest']
      split at h
      · rename_i hends
        obtain ⟨rfl, hdrop⟩ := Prod.mk.inj (Except.ok.inj h)
        rw [if_pos hends, drop_append_cancel hmid.ne_nil hdrop rest']
      · rename_i hends
        rw [if_neg hends]
        exact hstop h
    · exact hstop h

instance (arguments : Parse Nat) [Drops arguments] [Carries arguments] (path : List String) :
    Carries (nameRound arguments path) := by
  unfold nameRound
  dsimp only
  infer_instance

instance (arguments : Parse Nat) [Drops arguments] [Carries arguments] :
    Carries (nameAt arguments) := by
  unfold nameAt
  dsimp only
  infer_instance

/-- The readers that call each other, nested at most that deep. -/
structure CarriesNested (depth : Nat) : Prop where
  typeName : Carries (typeNameAt depth)
  typeArguments : Carries (typeArgumentsAt depth)
  attributeSection : Carries (attributeSectionAt depth)
  attributeArguments : Carries (attributeArgumentsAt depth)
  attributeValue : Carries (attributeValueAt depth)

theorem carriesNested
    (depth : Nat) :
    CarriesNested depth := by
  induction depth with
  | zero =>
    constructor
    · unfold typeNameAt
      infer_instance
    · unfold typeArgumentsAt
      infer_instance
    · unfold attributeSectionAt
      infer_instance
    · unfold attributeArgumentsAt
      infer_instance
    · unfold attributeValueAt
      infer_instance
  | succ depth ih =>
    obtain ⟨_, _, _, _, _⟩ := ih
    constructor
    · rw [typeNameAt_succ]
      dsimp only
      infer_instance
    · rw [typeArgumentsAt_succ]
      unfold argumentRound
      dsimp only
      infer_instance
    · unfold attributeSectionAt
      dsimp only
      infer_instance
    · unfold attributeArgumentsAt
      infer_instance
    · unfold attributeValueAt
      dsimp only
      refine @Carries.bind _ _ _ _ _ (fun literal => ?_) inferInstance fun literal => ?_
      · cases literal <;> infer_instance
      · cases literal <;> infer_instance

instance (depth : Nat) : Carries (typeNameAt depth) :=
  (carriesNested depth).typeName

instance (depth : Nat) : Carries (typeArgumentsAt depth) :=
  (carriesNested depth).typeArguments

instance (depth : Nat) : Carries (attributeSectionAt depth) :=
  (carriesNested depth).attributeSection

instance (depth : Nat) : Carries (attributeArgumentsAt depth) :=
  (carriesNested depth).attributeArguments

instance : Carries typeName :=
  inferInstanceAs (Carries (nested typeNameAt))

instance : Carries typeArguments :=
  inferInstanceAs (Carries (nested typeArgumentsAt))

instance : Carries attributeSection :=
  inferInstanceAs (Carries (nested attributeSectionAt))

/-- Attributes end with a bracket. -/
instance (depth : Nat) : Ends (attributeSectionAt depth) := by
  cases depth with
  | zero =>
    unfold attributeSectionAt
    infer_instance
  | succ depth =>
    unfold attributeSectionAt
    dsimp only
    infer_instance

instance : Ends attributeSection :=
  inferInstanceAs (Ends (nested attributeSectionAt))

instance : Carries typeParameters := by
  unfold typeParameters
  infer_instance

instance : Carries attributeSections := by
  unfold attributeSections
  infer_instance

/-! ## Names of members -/

/-- One step in reading the name of a member. -/
def memberNameRound (name : String) : Parse (Round String String) := do
  if (← sees .less) && (← sees .greater 1) then return .done name
  if ((← sees .dot) || (← sees .doubleColon)) && (← seesIdent 1) then
    advance
    return .again (← ident)
  if ← sees .less then
    if ← qualifierArguments then return .again name
  return .done name

theorem memberName_eq :
    memberName = (ident >>= fun first => loop first memberNameRound) := by
  rfl

/--
One step in reading the name of a member together with its type parameters.  Type arguments
belong to the interface in front if a dot follows, and are the type parameters otherwise, so
nothing has to be read twice.
-/
def genericNameRound (name : String) : Parse (Round String String) := do
  if (← sees .less) && (← sees .greater 1) then
    let _ ← typeArguments
    return .done name
  if ((← sees .dot) || (← sees .doubleColon)) && (← seesIdent 1) then
    advance
    return .again (← ident)
  if ← sees .less then
    let _ ← typeArguments
    if ← sees .dot then return .again name
    return .done name
  return .done name

/-- Read the name of a member and its type parameters. -/
def genericName : Parse String := do
  loop (← ident) genericNameRound

theorem qualifierArguments_apply
    (ctx : ParseContext) (ts : List Token) :
    qualifierArguments ctx ts =
      match typeArguments ctx ts with
      | .ok (_, mid) =>
        if headKind mid = some (.punct .dot) then .ok (true, mid) else .ok (false, ts)
      | .error _ => .ok (false, ts) := by
  unfold qualifierArguments
  rw [bind_apply, attempt, bind_apply]
  cases typeArguments ctx ts with
  | error d => rfl
  | ok x =>
    obtain ⟨arity, mid⟩ := x
    by_cases hdot : headKind mid = some (.punct .dot)
    · simp [hdot]
    · simp [hdot]

section

variable {ctx : ParseContext} {ts rest : List Token} {name name' : String}

theorem bind_of_error
    {p : Parse α} {d : Diagnostic} (h : p ctx ts = .error d) (f : α → Parse β) :
    (p >>= f) ctx ts = .error d := by
  rw [bind_apply, h]

theorem genericNameRound_of_less
    (hless : headKind ts = some (.punct .less)) :
    genericNameRound name ctx ts =
      match typeArguments ctx ts with
      | .ok (_, mid) =>
        if headKind (ts.drop 1) ≠ some (.punct .greater) ∧ headKind mid = some (.punct .dot) then
          .ok (.again name, mid)
        else .ok (.done name, mid)
      | .error d => .error d := by
  cases hread : typeArguments ctx ts with
  | error d => simp [genericNameRound, hless, bind_of_error hread, -bind_pure_comp]
  | ok x =>
    obtain ⟨arity, mid⟩ := x
    by_cases hdot : headKind mid = some (.punct .dot) <;>
      simp [genericNameRound, hless, bind_of_ok hread, hdot, -bind_pure_comp]

theorem memberNameRound_of_less
    (hless : headKind ts = some (.punct .less)) :
    memberNameRound name ctx ts =
      match typeArguments ctx ts with
      | .ok (_, mid) =>
        if headKind (ts.drop 1) ≠ some (.punct .greater) ∧ headKind mid = some (.punct .dot) then
          .ok (.again name, mid)
        else .ok (.done name, ts)
      | .error _ => .ok (.done name, ts) := by
  have hqualifier := qualifierArguments_apply ctx ts
  cases hread : typeArguments ctx ts with
  | error d =>
    rw [hread] at hqualifier
    simp [memberNameRound, hless, bind_of_ok hqualifier, -bind_pure_comp]
  | ok x =>
    obtain ⟨arity, mid⟩ := x
    rw [hread] at hqualifier
    by_cases hdot : headKind mid = some (.punct .dot)
    · simp only [hdot, if_true] at hqualifier
      simp [memberNameRound, hless, hdot, bind_of_ok hqualifier, -bind_pure_comp]
    · simp only [hdot, if_false] at hqualifier
      simp [memberNameRound, hless, hdot, bind_of_ok hqualifier, -bind_pure_comp]

theorem genericNameRound_of_not_less
    (hless : headKind ts ≠ some (.punct .less)) :
    genericNameRound name ctx ts = memberNameRound name ctx ts := by
  have hfalse : (headKind ts == some (.punct .less)) = false := beq_eq_false_iff_ne.2 hless
  simp only [memberNameRound, genericNameRound, sees_bind, seesIdent_bind, List.drop_zero, hfalse,
    Bool.false_and, ite_apply, Bool.false_eq_true, if_false]

theorem typeParameters_apply (ctx : ParseContext) (ts : List Token) :
    typeParameters ctx ts =
      if headKind ts = some (.punct .less) then typeArguments ctx ts else .ok (0, ts) := by
  unfold typeParameters
  simp only [sees_bind, List.drop_zero, beq_iff_eq, ite_apply, pure_apply]

/-- A round over a name goes on alike whether the type parameters are read with it or not. -/
theorem genericNameRound_again :
    genericNameRound name ctx ts = .ok (.again name', rest) ↔
      memberNameRound name ctx ts = .ok (.again name', rest) := by
  by_cases hless : headKind ts = some (.punct .less)
  · rw [genericNameRound_of_less hless, memberNameRound_of_less hless]
    cases typeArguments ctx ts with
    | error d => simp
    | ok x =>
      dsimp only
      split <;> simp
  · rw [genericNameRound_of_not_less hless]

/-- A round over a name without type arguments that is the last one takes nothing. -/
theorem memberNameRound_done
    (h : memberNameRound name ctx ts = .ok (.done name', rest)) :
    rest = ts := by
  by_cases hless : headKind ts = some (.punct .less)
  · rw [memberNameRound_of_less hless] at h
    split at h
    · split at h <;> cases h
      rfl
    · cases h
      rfl
  · have hfalse : (headKind ts == some (.punct .less)) = false := beq_eq_false_iff_ne.2 hless
    simp only [memberNameRound, sees_bind, seesIdent_bind, List.drop_zero, hfalse,
      Bool.false_and, ite_apply, Bool.false_eq_true, if_false] at h
    split at h
    · obtain ⟨_, mid, -, h⟩ := bind_eq_ok.1 h
      obtain ⟨_, mid, -, h⟩ := bind_eq_ok.1 h
      cases h
    · cases h
      rfl

/-- The last round over a name also reads the type parameters behind it. -/
theorem genericNameRound_done :
    genericNameRound name ctx ts = .ok (.done name', rest) ↔
      memberNameRound name ctx ts = .ok (.done name', ts) ∧
        ∃ arity, typeParameters ctx ts = .ok (arity, rest) := by
  rw [typeParameters_apply]
  by_cases hless : headKind ts = some (.punct .less)
  · rw [genericNameRound_of_less hless, memberNameRound_of_less hless, if_pos hless]
    cases typeArguments ctx ts with
    | error d => simp
    | ok x =>
      obtain ⟨arity, mid⟩ := x
      dsimp only
      split
      · simp
      · constructor
        · intro h
          cases h
          exact ⟨rfl, arity, rfl⟩
        · rintro ⟨h, _, heq⟩
          cases h
          cases heq
          rfl
  · rw [genericNameRound_of_not_less hless, if_neg hless]
    constructor
    · intro h
      obtain rfl := memberNameRound_done h
      exact ⟨h, 0, rfl⟩
    · rintro ⟨h, arity, heq⟩
      cases heq
      exact h

instance (name : String) : Drops (genericNameRound name) := by
  unfold genericNameRound
  infer_instance

instance (name : String) : EatsAgain (genericNameRound name) := by
  unfold genericNameRound
  infer_instance

instance (name : String) : Carries (genericNameRound name) := by
  unfold genericNameRound
  infer_instance

instance : Drops genericName := by
  unfold genericName
  infer_instance

instance : Carries genericName := by
  unfold genericName
  infer_instance

/-- Reading a name with its type parameters is reading one after the other. -/
theorem genericName_eq_ok :
    genericName ctx ts = .ok (name, rest) ↔
      ∃ mid arity, memberName ctx ts = .ok (name, mid) ∧
        typeParameters ctx mid = .ok (arity, rest) := by
  rw [memberName_eq, genericName, bind_eq_ok]
  constructor
  · rintro ⟨first, us, hfirst, hloop⟩
    have hgo := rounds_induction (motive := fun s ts => ∃ mid arity,
      loop s memberNameRound ctx ts = .ok (name, mid) ∧ typeParameters ctx mid = .ok (arity, rest))
      hloop ?_ ?_
    · obtain ⟨mid, arity, hloop, hparameters⟩ := hgo
      exact ⟨mid, arity, bind_eq_ok.2 ⟨first, us, hfirst, hloop⟩, hparameters⟩
    · intro s ts hdone
      obtain ⟨hdone, arity, hparameters⟩ := genericNameRound_done.1 hdone
      exact ⟨ts, arity, loop_of_done hdone, hparameters⟩
    · rintro s ts s' us hagain ⟨mid, arity, hloop, hparameters⟩
      exact ⟨mid, arity, loop_of_again (genericNameRound_again.1 hagain) (EatsAgain.shorter hagain)
        hloop, hparameters⟩
  · rintro ⟨mid, arity, hname, hparameters⟩
    obtain ⟨first, us, hfirst, hloop⟩ := bind_eq_ok.1 hname
    refine ⟨first, us, hfirst, ?_⟩
    refine rounds_induction (motive := fun s ts => loop s genericNameRound ctx ts = .ok (name, rest))
      hloop ?_ ?_
    · intro s ts hdone
      obtain rfl := memberNameRound_done hdone
      exact loop_of_done (genericNameRound_done.2 ⟨hdone, arity, hparameters⟩)
    · intro s ts s' us hagain ih
      have hagain' := genericNameRound_again.2 hagain
      exact loop_of_again hagain' (EatsAgain.shorter hagain') ih

end

/-! ## Members -/

instance : Carries parameter := by
  unfold parameter
  dsimp only
  infer_instance

instance : Carries parameters := by
  unfold parameters
  infer_instance

instance (marks : List Punct) (fault : Fault) : Carries (skipConstraints marks fault) := by
  unfold skipConstraints
  infer_instance

instance : Carries skipConstructorChain := by
  unfold skipConstructorChain
  dsimp only
  infer_instance

instance (first : String) : Carries (fieldNames first) := by
  unfold fieldNames
  dsimp only
  infer_instance

instance (feature : Feature) : Carries (skipArrowBody feature) := by
  unfold skipArrowBody
  infer_instance

instance (feature : Feature) : Ends (skipArrowBody feature) := by
  unfold skipArrowBody
  infer_instance

instance (feature : Feature) : Carries (skipBody feature) := by
  unfold skipBody
  infer_instance

instance (feature : Feature) : Ends (skipBody feature) := by
  unfold skipBody
  infer_instance

instance (line : Nat) (word : Option String) : Carries (accessorWord line word) := by
  unfold accessorWord
  split <;> infer_instance

instance : Carries skipAccessor := by
  rw [skipAccessor_eq]
  infer_instance

instance : Ends skipAccessor := by
  rw [skipAccessor_eq]
  infer_instance

instance : Carries skipPropertyBody := by
  unfold skipPropertyBody
  dsimp only
  infer_instance

instance : Ends skipPropertyBody := by
  unfold skipPropertyBody
  dsimp only
  infer_instance

instance : Carries skipOperator := by
  unfold skipOperator
  infer_instance

instance : Ends skipOperator := by
  unfold skipOperator
  infer_instance

/-- What stands behind the name of a member and its type parameters. -/
def memberBehindName (type : TypeName) (name : String) : Parse (List (String × MemberKind)) := do
  if ← sees .openParen then
    let parameters ← parameters
    skipConstraints [.openBrace, .semicolon, .arrow] (.expected .semicolon)
    skipBody .expressionBodiedMethod
    return [(name, .method type parameters)]
  if (← sees .openBrace) || (← sees .arrow) then
    skipPropertyBody
    return [(name, .property type)]
  if ← sees .openBracket then skipGroup
  else if !((← sees .assign) || (← sees .comma) || (← sees .semicolon)) then
    fail (.expected .semicolon)
  let names ← fieldNames name
  expect .semicolon
  return names.map (·, .field type)

theorem namedMembers_eq
    (type : TypeName) :
    namedMembers type =
      (memberName >>= fun name => typeParameters >>= fun _ => memberBehindName type name) := by
  rfl

theorem namedMembers_eq_ok
    {ctx : ParseContext} {ts rest : List Token} {type : TypeName}
    {kinds : List (String × MemberKind)} :
    namedMembers type ctx ts = .ok (kinds, rest) ↔
      (genericName >>= memberBehindName type) ctx ts = .ok (kinds, rest) := by
  rw [namedMembers_eq, bind_eq_ok, bind_eq_ok]
  constructor
  · rintro ⟨name, mid, hname, h⟩
    obtain ⟨arity, us, hparameters, h⟩ := bind_eq_ok.1 h
    exact ⟨name, us, genericName_eq_ok.2 ⟨mid, arity, hname, hparameters⟩, h⟩
  · rintro ⟨name, us, hname, h⟩
    obtain ⟨mid, arity, hname, hparameters⟩ := genericName_eq_ok.1 hname
    exact ⟨name, mid, hname, bind_eq_ok.2 ⟨arity, us, hparameters, h⟩⟩

section

variable (type : TypeName) (name : String)

instance : Drops (memberBehindName type name) := by
  unfold memberBehindName
  dsimp only
  infer_instance

instance : Eats (memberBehindName type name) := by
  unfold memberBehindName
  dsimp only
  infer_instance

instance : Carries (memberBehindName type name) := by
  unfold memberBehindName
  dsimp only
  infer_instance

instance : Ends (memberBehindName type name) := by
  unfold memberBehindName
  dsimp only
  infer_instance

instance : Carries (namedMembers type) where
  carried hmid h := namedMembers_eq_ok.2 (Carries.carried hmid (namedMembers_eq_ok.1 h))

instance : Ends (namedMembers type) where
  ended h hne := by
    obtain ⟨hbounded, hcarried⟩ := Ends.ended (namedMembers_eq_ok.1 h) hne
    exact ⟨hbounded, fun hrest => namedMembers_eq_ok.2 (hcarried hrest)⟩

instance : Carries (memberKinds name) := by
  unfold memberKinds
  dsimp only
  infer_instance

instance : Ends (memberKinds name) := by
  unfold memberKinds
  dsimp only
  infer_instance

instance (attributes : List AttributeUse) (modifiers : List String) :
    Carries (members name attributes modifiers) := by
  unfold members
  infer_instance

instance (attributes : List AttributeUse) (modifiers : List String) :
    Ends (members name attributes modifiers) := by
  unfold members
  infer_instance

end

/-! ## Types -/

instance : Carries seesType := by
  unfold seesType
  infer_instance

instance : TakesNothing seesType :=
  ⟨fun h => by cases h; rfl⟩

instance (kind : DeclarationKind) : Carries (baseList kind) := by
  unfold baseList
  dsimp only
  infer_instance

instance (kind : DeclarationKind) : Carries (declarationKeyword kind) := by
  unfold declarationKeyword
  infer_instance

section

variable (kind : DeclarationKind) (attributes : List AttributeUse) (modifiers : List String)
  (around : Surroundings)

instance : Carries (delegateDeclaration attributes modifiers around) := by
  unfold delegateDeclaration
  infer_instance

instance : Ends (delegateDeclaration attributes modifiers around) := by
  unfold delegateDeclaration
  infer_instance

instance : Carries (typeHead kind attributes modifiers around) := by
  unfold typeHead
  infer_instance

end

section

variable {depth : Nat} {around : Surroundings}

theorem carries_bodyRound
    (htypes : ∀ kind attributes modifiers,
      Carries (typeDeclarationAt depth kind attributes modifiers around))
    (name : String) (s : List Member × List TypeDeclaration) :
    Carries (bodyRound depth name around s) := by
  have _ : ∀ attributes words kind, Carries (bodyItem depth name around s attributes words kind) := by
    intro attributes words kind
    unfold bodyItem
    split <;> infer_instance
  rw [bodyRound_eq]
  dsimp only
  infer_instance

/-- The parts of a body end where they end if the types inside do. -/
theorem ends_bodyRound
    (hcarries : ∀ kind attributes modifiers,
      Carries (typeDeclarationAt depth kind attributes modifiers around))
    (hends : ∀ kind attributes modifiers,
      Ends (typeDeclarationAt depth kind attributes modifiers around))
    (name : String) (s : List Member × List TypeDeclaration) :
    Ends (bodyRound depth name around s) := by
  have _ : ∀ attributes words kind, Carries (bodyItem depth name around s attributes words kind) := by
    intro attributes words kind
    unfold bodyItem
    split <;> infer_instance
  have _ : ∀ attributes words kind, Ends (bodyItem depth name around s attributes words kind) := by
    intro attributes words kind
    unfold bodyItem
    split <;> infer_instance
  rw [bodyRound_eq]
  dsimp only
  infer_instance

end

/-- Types and their bodies, nested at most that deep, end where they end. -/
structure TypesEnd (depth : Nat) : Prop where
  carriesType : ∀ kind attributes modifiers around,
    Carries (typeDeclarationAt depth kind attributes modifiers around)
  endsType : ∀ kind attributes modifiers around,
    Ends (typeDeclarationAt depth kind attributes modifiers around)
  carriesBody : ∀ name around, Carries (typeBodyAt depth name around)
  endsBody : ∀ name around, Ends (typeBodyAt depth name around)

theorem typesEnd
    (depth : Nat) :
    TypesEnd depth := by
  induction depth with
  | zero =>
    constructor <;> intros
    · unfold typeDeclarationAt
      infer_instance
    · unfold typeDeclarationAt
      infer_instance
    · unfold typeBodyAt
      infer_instance
    · unfold typeBodyAt
      infer_instance
  | succ depth ih =>
    obtain ⟨_, _, _, _⟩ := ih
    constructor
    · intro kind attributes modifiers around
      unfold typeDeclarationAt
      dsimp only
      infer_instance
    · intro kind attributes modifiers around
      unfold typeDeclarationAt
      dsimp only
      infer_instance
    · intro name around
      have _ := @carries_bodyRound depth around (fun _ _ _ => inferInstance) name
      rw [typeBodyAt_succ]
      infer_instance
    · intro name around
      have _ := @carries_bodyRound depth around (fun _ _ _ => inferInstance) name
      have _ := @ends_bodyRound depth around (fun _ _ _ => inferInstance) (fun _ _ _ => inferInstance) name
      rw [typeBodyAt_succ]
      infer_instance

section

variable (depth : Nat) (kind : DeclarationKind) (attributes : List AttributeUse)
  (modifiers : List String) (name : String) (around : Surroundings)
  (s : List Member × List TypeDeclaration)

instance : Carries (typeDeclarationAt depth kind attributes modifiers around) :=
  (typesEnd depth).carriesType kind attributes modifiers around

instance : Ends (typeDeclarationAt depth kind attributes modifiers around) :=
  (typesEnd depth).endsType kind attributes modifiers around

instance : Carries (bodyRound depth name around s) :=
  carries_bodyRound (fun _ _ _ => inferInstance) name s

instance : Ends (bodyRound depth name around s) :=
  ends_bodyRound (fun _ _ _ => inferInstance) (fun _ _ _ => inferInstance) name s

instance : Carries (typeDeclaration kind attributes modifiers around) := by
  unfold typeDeclaration
  infer_instance

instance : Ends (typeDeclaration kind attributes modifiers around) := by
  unfold typeDeclaration
  infer_instance

end

/-! ## Files -/

instance : Carries usingDirective := by
  unfold usingDirective
  dsimp only
  infer_instance

instance : Ends usingDirective := by
  unfold usingDirective
  dsimp only
  infer_instance

instance : TakesNothing seesUsing :=
  ⟨fun h => by cases h; rfl⟩

instance : Carries seesUsing := by
  refine .of_decided ((isDecided_head fun k => k.bind TokenKind.keyword? == some "using").or
    (isDecided_two (c := fun k => k.bind TokenKind.keyword? == some "global")
      (d := fun k => k.bind TokenKind.keyword? == some "using")
      fun k hk => isBound_of_keyword? (beq_iff_eq.1 hk))) fun ctx ts => ?_
  unfold seesUsing
  simp only [seesKeyword_bind, List.drop_zero, pure_apply]

instance : TakesNothing seesAssemblyAttributes :=
  ⟨fun h => by cases h; rfl⟩

instance : Carries seesAssemblyAttributes := by
  have hword := isDecided_two (d := fun k => k == some (.punct .colon))
    (c := fun k => k.bind TokenKind.keyword? == some "assembly" ||
      k.bind TokenKind.keyword? == some "module")
    fun k hk => (Bool.or_eq_true_iff.1 hk).elim
      (fun hk => isBound_of_keyword? (beq_iff_eq.1 hk))
      (fun hk => isBound_of_keyword? (beq_iff_eq.1 hk))
  refine .of_decided (hword.behind (c := fun k => k == some (.punct .openBracket)) ?_)
    fun ctx ts => ?_
  · intro k hk
    obtain rfl := Option.some.inj (beq_iff_eq.1 hk)
    rfl
  · unfold seesAssemblyAttributes
    simp only [seesKeyword_bind, sees_bind, List.drop_zero, List.drop_drop, pure_apply,
      Bool.and_assoc]

instance (s : NamespaceState) (attributes : List AttributeUse) (words : List String)
    (kind : Option DeclarationKind) : Carries (namespaceItem s attributes words kind) := by
  unfold namespaceItem
  split <;> infer_instance

instance (s : NamespaceState) (attributes : List AttributeUse) (words : List String)
    (kind : Option DeclarationKind) : Ends (namespaceItem s attributes words kind) := by
  unfold namespaceItem
  split <;> infer_instance

instance (s : NamespaceState) : Carries (namespaceType s) := by
  rw [namespaceType_eq]
  infer_instance

instance (s : NamespaceState) : Ends (namespaceType s) := by
  rw [namespaceType_eq]
  infer_instance

theorem carries_namespaceRound
    {depth : Nat} (hnamespace : ∀ name scope, Carries (namespaceMembersAt depth name scope true))
    (inBlock : Bool) (s : NamespaceState) :
    Carries (namespaceRound depth inBlock s) := by
  unfold namespaceRound
  dsimp only
  infer_instance

theorem ends_namespaceRound
    {depth : Nat} (hcarries : ∀ name scope, Carries (namespaceMembersAt depth name scope true))
    (hends : ∀ name scope, Ends (namespaceMembersAt depth name scope true))
    (inBlock : Bool) (s : NamespaceState) :
    Ends (namespaceRound depth inBlock s) := by
  unfold namespaceRound
  dsimp only
  infer_instance

theorem namespacesEnd
    (depth : Nat) :
    (∀ name scope, Carries (namespaceMembersAt depth name scope true)) ∧
      ∀ name scope, Ends (namespaceMembersAt depth name scope true) := by
  induction depth with
  | zero =>
    constructor <;> intros
    · unfold namespaceMembersAt
      infer_instance
    · unfold namespaceMembersAt
      infer_instance
  | succ depth ih =>
    obtain ⟨hcarries, hends⟩ := ih
    have _ := carries_namespaceRound hcarries true
    have _ := ends_namespaceRound hcarries hends true
    constructor
    · intro name scope
      rw [namespaceMembersAt_succ]
      infer_instance
    · intro name scope
      rw [namespaceMembersAt_succ]
      infer_instance

section

variable (depth : Nat) (inBlock : Bool) (s : NamespaceState)

instance : Carries (namespaceRound depth inBlock s) :=
  carries_namespaceRound (namespacesEnd depth).1 inBlock s

instance : Ends (namespaceRound depth inBlock s) :=
  ends_namespaceRound (namespacesEnd depth).1 (namespacesEnd depth).2 inBlock s

end

end Parse
end CSharp
end ContentModels

import ContentModels.Proofs.Generated.Types

/-!
# Reading the types of a model

The interface of a mixin, the class of a model and the class of its extension methods are
read back as they are written, under conditions on the names and texts that come from the
schema and the settings (`Model.IsReadable`): identifiers that start no other declaration,
types that are read as types, and aliases and display names that are one line.
-/

namespace ContentModels

open CSharp CSharp.Parse Generated

/-- The words that are identifiers but cannot be the name of a class in generated code. -/
def reservedClassNames : List String :=
  ["record", "scoped", "__arglist"]

/-- A property whose members can be read back. -/
structure ModelProperty.IsReadable (l : Layout) (p : ModelProperty) : Prop where
  name : isIdentifier p.name = true
  getter : isWord (l.getter p) = true
  aliasName : '\n' ∉ p.type.aliasName.toList
  displayName : '\n' ∉ p.type.name.toList
  valueType : IsTypeText p.valueType

/-- A model whose types can be read back. -/
structure Model.IsReadable (l : Layout) (models : List Model) (m : Model) : Prop where
  name : isIdentifier m.name = true
  notReserved : m.name ∉ reservedClassNames
  aliasName : '\n' ∉ m.type.aliasName.toList
  ownProperties : ∀ p ∈ m.ownProperties, p.IsReadable l
  mixedAccessors : ∀ mixin p, .mixedAccessor mixin p ∈ Generated.mixedAccessors models m →
    isIdentifier mixin.name = true ∧ p.IsReadable l
  bases : BasesRead l (m.baseClass.toList ++ m.interfaces)
  interfaceBases : BasesRead l m.interfaceBases

namespace Generated

variable {l : Layout} {version : LanguageVersion} {typeName : String} {ks : List TokenKind}

/-! ## Types of members -/

/-- What starts with a type of names that are no keywords starts a member. -/
theorem readsMemberType_of_spelled
    {T : String} (h : Spelled T ks) (hks : ∀ k ∈ ks, isTypeToken k = true) :
    ReadsMemberType version ks := by
  obtain ⟨name, -, hspells⟩ := h.spells
  refine ⟨(readsType_of_spellsType hspells).any, hspells.no_call, fun w hw heq => ?_⟩
  have hwords : leadingWords.all (!isTypeWord ·) = true := by decide +kernel
  have htoken : isTypeToken (.ident w false) = true := by
    cases ks with
    | nil => cases heq
    | cons k ks =>
      obtain rfl := Option.some.inj heq
      exact hks _ List.mem_cons_self
  have hnot := List.all_eq_true.1 hwords w hw
  rw [show isTypeToken (.ident w false) = isTypeWord w from rfl] at htoken
  rw [htoken] at hnot
  cases hnot

/-- A type in the text of settings or a schema is read back as it is written. -/
theorem IsTypeText.exists_read
    {T : String} (h : IsTypeText T) (husings : ∀ u ∈ l.usings, IsDotted u)
    (version : LanguageVersion) :
    ∃ ks, Spelled (l.shorten T) ks ∧ TypeRead (l.shorten T) ks ∧ ReadsMemberType version ks := by
  obtain ⟨ks, hspelled, hks⟩ := h.shorten husings
  exact ⟨ks, hspelled, typeRead_of_spelled hspelled, readsMemberType_of_spelled hspelled hks⟩

/-- A fixed word is the type of a member. -/
theorem typeRead_fixedWord
    {w : String} (h : w ∈ fixedWords) :
    TypeRead w [.ident w false] :=
  typeRead_of_spelled (spelled_word (isWord_of_mem_fixedWords h) (ne_default_of_mem_fixedWords h))

/-! ## Parameters -/

theorem startsNone_word
    {words : List String} {w : String} (h : w ∉ words) :
    startsNone words (some (.ident w false)) := by
  rintro v hv heq
  cases heq
  exact h hv

/-- A parameter with the name of a generated type as its type. -/
theorem parametersRead_type
    {type : String} (isExtended : Bool) (h : isIdentifier type = true)
    (hwords : type ∉ reservedClassNames) :
    ParametersRead version [⟨isExtended, type, "that"⟩]
      (parameterKinds (extensionWords isExtended) [.ident type false] "that") := by
  have hall : ∀ w ∈ parameterWords, Naming.keywords.contains w = true ∨ w ∈ reservedClassNames := by
    decide
  have hnot : type ∉ parameterWords := fun hmem =>
    (hall type hmem).elim (fun hk => ne_of_isIdentifier h hk rfl) hwords
  exact .one ⟨isExtended, type, "that"⟩ _
    (typeRead_of_spelled (spelled_word (isWord_of_isIdentifier h)
      (ne_of_isIdentifier h (by decide))))
    (readsType_of_spellsType (spellsType_word type)).any (startsNone_word hnot)
    (by decide : isWord "that" = true) (by decide : "that" ≠ "default")

/-- A word with a capital letter is an identifier, and none that is reserved. -/
theorem isIdentifier_of_capital
    {w : String} {c : Char} (h : isWord w = true) (hc : c ∈ ['I', 'E']) (hmem : c ∈ w.toList) :
    isIdentifier w = true ∧ w ∉ reservedClassNames := by
  have hall : (Naming.keywords ++ reservedClassNames).all
      (fun v => !v.toList.contains 'I' && !v.toList.contains 'E') = true := by decide
  have hnot : w ∉ Naming.keywords ++ reservedClassNames := by
    intro hw
    have hboth := List.all_eq_true.1 hall w hw
    simp only [Bool.and_eq_true, Bool.not_eq_true', List.contains_eq_mem,
      decide_eq_false_iff_not] at hboth
    simp only [List.mem_cons, List.not_mem_nil, or_false] at hc
    rcases hc with rfl | rfl
    · exact hboth.1 hmem
    · exact hboth.2 hmem
  rw [List.mem_append, not_or] at hnot
  refine ⟨?_, hnot.2⟩
  unfold isIdentifier
  simp [h, hnot.1]

theorem isIdentifier_interfaceName
    {t : NamedType} (h : isIdentifier t.name = true) :
    isIdentifier t.interfaceName = true ∧ t.interfaceName ∉ reservedClassNames := by
  refine isIdentifier_of_capital ?_ (by simp : 'I' ∈ ['I', 'E']) (by simp [NamedType.interfaceName])
  obtain ⟨c, cs, hname, -, hpart⟩ := Lexeme.head_of_isWord (isWord_of_isIdentifier h)
  unfold isWord NamedType.interfaceName
  rw [String.toList_append, hname, Bool.and_eq_true, List.all_eq_true]
  refine ⟨(by decide : Piece.isIdentStart 'I' = true), fun x hx => ?_⟩
  rcases List.mem_cons.1 hx with rfl | hx
  · decide
  · exact hpart x hx

theorem isIdentifier_extensionsName
    {t : NamedType} (h : isIdentifier t.name = true) :
    isIdentifier t.extensionsName = true := by
  refine (isIdentifier_of_capital ?_ (by simp : 'E' ∈ ['I', 'E'])
    (by simp [NamedType.extensionsName])).1
  obtain ⟨c, cs, hname, hstart, hpart⟩ := Lexeme.head_of_isWord (isWord_of_isIdentifier h)
  unfold isWord NamedType.extensionsName
  rw [String.toList_append, hname, Bool.and_eq_true, List.all_eq_true]
  refine ⟨hstart, fun x hx => ?_⟩
  rcases List.mem_append.1 hx with hx | hx
  · exact hpart x hx
  · have hall : "Extensions".toList.all Piece.isIdentPart = true := by decide
    exact List.all_eq_true.1 hall x hx

/-! ## Members -/

section Members

variable {models : List Model} {m : Model} {p : ModelProperty} {value : String}

theorem isNote_of_mem_documentation
    {name line : String} {description : Option String}
    (h : line ∈ summary "\t\t" name description) :
    isNote line = true :=
  isNote_of_mem_summary (n := 2) rfl h

/-- The language of the layout has the bodies that it writes. -/
structure SupportsBodies (l : Layout) (version : LanguageVersion) : Prop where
  property : l.expressionBodies = true → version.supports .expressionBodiedProperty = true
  method : l.expressionBodies = true → version.supports .expressionBodiedMethod = true

/-- A property in the interface of a mixin is read back. -/
theorem partsRead_interfaceProperty
    (hp : p.IsReadable l) (husings : ∀ u ∈ l.usings, IsDotted u) :
    PartsRead l version typeName [.member (l.writtenInterfaceProperty p)] [] := by
  obtain ⟨ks, -, htype, hks⟩ := hp.valueType.exists_read husings version
  refine .member_nil ?_ (by simp [Layout.writtenInterfaceProperty])
    (fun _ => isNote_of_mem_documentation) (by simp [Layout.writtenInterfaceProperty])
  have hmodifiers : (l.writtenInterfaceProperty p).modifiers ⊆ memberModifiers := by
    simp [Layout.writtenInterfaceProperty]
  cases hstyle : l.settings.propertyStyle.hasProperties with
  | true =>
    refine memberRead_interfaceProperty ?_ hmodifiers rfl htype hks ?_ <;>
      simp [Layout.writtenInterfaceProperty, hstyle, hp.name]
  | false =>
    refine memberRead_interfaceMethod ?_ hmodifiers rfl htype hks ?_ .none <;>
      simp [Layout.writtenInterfaceProperty, hstyle, hp.getter]

/-- An accessor that gets the value of an expression is read back. -/
theorem partsRead_accessor
    {js : List TokenKind} (hp : p.IsReadable l) (husings : ∀ u ∈ l.usings, IsDotted u)
    (hbodies : SupportsBodies l version) (hvalue : ExpressionRead value js) :
    PartsRead l version typeName [.member (l.writtenAccessor p value)] [] := by
  obtain ⟨ks, -, htype, hks⟩ := hp.valueType.exists_read husings version
  have hmodifiers : (l.writtenAccessor p value).modifiers ⊆ memberModifiers := by
    simp [Layout.writtenAccessor, memberModifiers]
  refine .member_nil ?_ hmodifiers (fun _ => isNote_of_mem_documentation) ?_
  · cases hstyle : l.settings.propertyStyle.hasProperties with
    | true =>
      refine memberRead_property ?_ hmodifiers rfl htype hks ?_ hvalue hbodies.property <;>
        simp [Layout.writtenAccessor, hstyle, hp.name]
    | false =>
      refine memberRead_method ?_ hmodifiers rfl htype hks ?_ .none hvalue hbodies.method <;>
        simp [Layout.writtenAccessor, hstyle, hp.getter]
  · rintro _ ⟨⟩
    exact hp.aliasName

/-- A static method that reads the value of a property is read back. -/
theorem partsRead_getter
    {notes : List String} {isExtended : Bool} {type : String} (hp : p.IsReadable l)
    (husings : ∀ u ∈ l.usings, IsDotted u) (hbodies : SupportsBodies l version)
    (hnotes : ∀ line ∈ notes, isNote line = true) (htype : isIdentifier type = true)
    (hwords : type ∉ reservedClassNames) :
    PartsRead l version typeName [.member (l.writtenGetter notes isExtended type p)] [] := by
  obtain ⟨ks, hspelled, hread, hks⟩ := hp.valueType.exists_read husings version
  have hmodifiers : (l.writtenGetter notes isExtended type p).modifiers ⊆ memberModifiers := by
    simp [Layout.writtenGetter, memberModifiers]
  refine .member_nil ?_ hmodifiers hnotes (by simp [Layout.writtenGetter])
  have hvalue := expressionRead_valueOf (by decide : "that" ∈ fixedWords) hspelled hp.aliasName
  exact memberRead_method rfl hmodifiers rfl hread hks hp.getter
    (parametersRead_type isExtended htype hwords) hvalue hbodies.method

/-- The alias of a content type as the value of a constant. -/
theorem expressionRead_literal
    {aliasName : String} (h : '\n' ∉ aliasName.toList) :
    ExpressionRead (literal aliasName) [.str aliasName false false] := by
  refine ⟨⟨[.literal aliasName], ⟨?_, ?_, ?_⟩, fun _ => rfl⟩, rfl, ⟨rfl, by simp, by simp⟩⟩
  · simp [Lexeme.text, Lexeme.literal]
  · simpa using Lexeme.valid_literal aliasName
  · simp [Lexeme.allKinds, Lexeme.kinds, Lexeme.literal, literalKinds, h]

/-- The kind of a content type as the value of a constant. -/
theorem expressionRead_itemType
    (kind : ContentKind) :
    ExpressionRead ("PublishedItemType." ++ kind.name)
      [.ident "PublishedItemType" false, .punct .dot, .ident kind.name false] := by
  have hkind : kind.name ∈ fixedWords := by cases kind <;> decide
  refine ⟨⟨[.word "PublishedItemType", .mark .dot, .word kind.name], ⟨?_, ?_, rfl⟩, fun _ => rfl⟩,
    needNothing_of_forall ?_, ⟨rfl, by simp, by simp⟩⟩
  · simp [Lexeme.text, Punct.text]
  · simp (disch := decide) [Piece.simpleMarks, isWord_of_mem_fixedWords,
      isWord_of_mem_fixedWords hkind]
  · simp [isFree, ne_default_of_mem_fixedWords hkind]

theorem partsRead_helpers
    (hname : isIdentifier m.name = true) (halias : '\n' ∉ m.type.aliasName.toList)
    (hbodies : SupportsBodies l version) :
    PartsRead l version typeName ((Layout.writtenHelpers m).map .member) [] := by
  have hword : ∀ w, w ∈ fixedWords → w ∉ leadingWords →
      TypeRead w [.ident w false] ∧ ReadsMemberType version [.ident w false] :=
    fun w hw hleading => ⟨typeRead_fixedWord hw, readsMemberType_word hleading⟩
  have hmember : ∀ w ∈ Layout.writtenHelpers m, MemberRead l version typeName w [] := by
    obtain ⟨hstring, hstring'⟩ := hword "string" (by decide) (by decide)
    obtain ⟨hitem, hitem'⟩ := hword "PublishedItemType" (by decide) (by decide)
    obtain ⟨hcontent, hcontent'⟩ := hword "IPublishedContentType" (by decide) (by decide)
    obtain ⟨hproperty, hproperty'⟩ := hword "IPublishedPropertyType" (by decide) (by decide)
    have hselector : ParametersRead version [Layout.selector m] _ :=
      .one (Layout.selector m) _ (typeRead_selector hname)
        (readsType_selector ⟨ne_of_isIdentifier hname (by decide), ne_of_isIdentifier hname (by decide)⟩
          ⟨by decide, by decide⟩)
        (startsNone_word (by decide)) (by decide : isWord "selector" = true)
        (by decide : "selector" ≠ "default")
    simp only [Layout.writtenHelpers, List.forall_mem_cons]
    refine ⟨?_, ?_, ?_, ?_, nofun⟩
    · exact memberRead_constant rfl (by simp [memberModifiers]) rfl hstring hstring'
        (by decide : isIdentifier "ModelTypeAlias" = true) (expressionRead_literal halias) (by simp [isFlat])
    · exact memberRead_constant rfl (by simp [memberModifiers]) rfl hitem hitem'
        (by decide : isIdentifier "ModelItemType" = true) (expressionRead_itemType m.type.kind)
        (by simp [isFlat, (by decide : Punct.dot ∉ listedExpressionEnds),
          show Punct.closer? .dot = none from rfl])
    · exact memberRead_method rfl (by simp [memberModifiers]) rfl hcontent hcontent'
        (by decide : isWord "GetModelContentType" = true) .none expressionRead_contentType
        hbodies.method
    · exact memberRead_genericMethod rfl (by simp [memberModifiers]) rfl hproperty hproperty' rfl
        hselector expressionRead_propertyType hbodies.method
  rw [List.map_eq_flatMap]
  refine .flatMap fun w hw => .member_nil (hmember w hw) ?_ ?_ ?_ <;>
  · simp only [Layout.writtenHelpers, List.mem_cons, List.not_mem_nil, or_false] at hw
    rcases hw with rfl | rfl | rfl | rfl <;> simp [memberModifiers]

/-- A type that is read back as the parameter of a constructor. -/
def ReferenceRead (version : LanguageVersion) (T : String) (reference : TypeName) : Prop :=
  ∃ ks, TypeRead T ks ∧ ReadsType version ks (· = reference) ∧ startsNone parameterWords ks.head?

theorem IsTypeText.exists_reference
    {T : String} (h : IsTypeText T) (husings : ∀ u ∈ l.usings, IsDotted u)
    (version : LanguageVersion) :
    ∃ reference : TypeName, reference.text = l.shorten T ∧ IsSpelled reference ∧
      ReferenceRead version (l.shorten T) reference := by
  obtain ⟨ks, hspelled, htype, hks⟩ := h.exists_read husings version
  obtain ⟨reference, htext, hspells⟩ := hspelled.spells
  refine ⟨reference, htext, ⟨ks, htext ▸ hspelled, hspells⟩, ks, htype,
    readsType_of_spellsType hspells, fun w hw => ?_⟩
  exact hks.starts w (List.mem_append_right _ hw)

theorem partsRead_constructor
    {reference : TypeName} (hname : isIdentifier m.name = true)
    (hwords : m.name ∉ reservedClassNames)
    (h : ReferenceRead version (l.shorten (l.settings.referenceType m.type.kind)) reference) :
    PartsRead l version m.name [.member (l.writtenConstructor m)] [⟨["public"], [reference]⟩] := by
  obtain ⟨ks, htype, hreads, hhead⟩ := h
  have hmodifiers : (l.writtenConstructor m).modifiers ⊆ memberModifiers := by
    simp [Layout.writtenConstructor, memberModifiers]
  have hrecord : m.name ≠ "record" := fun heq => hwords (heq ▸ by decide)
  exact .member (memberRead_constructor rfl hmodifiers rfl hname hrecord htype hreads hhead)
    hmodifiers (by simp [Layout.writtenConstructor]) (by simp [Layout.writtenConstructor])

/-- A member that a class has for a property is read back. -/
theorem partsRead_classMember
    (h : m.IsReadable l models) (husings : ∀ u ∈ l.usings, IsDotted u)
    (hbodies : SupportsBodies l version) {x : ClassMember}
    (hx : x ∈ propertyMembers l.settings.propertyStyle models m) :
    PartsRead l version typeName [.member (l.writtenClassMember m x)] [] := by
  unfold propertyMembers at hx
  split at hx
  · rcases List.mem_append.1 hx with hmixed | hown
    · obtain ⟨y, -, hy⟩ := List.mem_filterMap.1 hmixed
      obtain ⟨mixin, -, hy⟩ := Option.bind_eq_some_iff.1 hy
      obtain ⟨p, -, rfl⟩ := Option.map_eq_some_iff.1 hy
      obtain ⟨hmixin, hp⟩ := h.mixedAccessors mixin p hmixed
      exact partsRead_accessor hp husings hbodies (expressionRead_mixin hmixin hp.getter)
    · obtain ⟨p, hp, hx⟩ := List.mem_flatMap.1 hown
      have hread := h.ownProperties p hp
      rcases List.mem_append.1 hx with hx | hx
      · split at hx
        · obtain rfl := List.mem_singleton.1 hx
          obtain ⟨ks, hspelled, -⟩ := hread.valueType.exists_read husings version
          obtain ⟨js, hvalue⟩ : ∃ js, ExpressionRead
              (if m.isMixin then l.getter p ++ "(this)" else l.valueOf "this" p) js := by
            split
            · exact ⟨_, expressionRead_getter hread.getter⟩
            · exact ⟨_, expressionRead_valueOf (by decide : "this" ∈ fixedWords) hspelled
                hread.aliasName⟩
          exact partsRead_accessor hread husings hbodies hvalue
        · cases hx
      · split at hx
        · obtain rfl := List.mem_singleton.1 hx
          obtain ⟨hinterface, hwords⟩ := isIdentifier_interfaceName h.name
          refine partsRead_getter hread husings hbodies (fun line hline => ?_) hinterface hwords
          obtain rfl := List.mem_singleton.1 hline
          exact isNote_staticGetter_iff.2 hread.displayName
        · cases hx
  · cases hx

/-! ## Types -/

/-- The types of a model as they are read back, with the type that its constructor takes. -/
def Layout.outlines (l : Layout) (reference : TypeName) (m : Model) : List TypeOutline :=
  (if m.isMixin then
    [⟨.interfaceType, ["public", "partial"], m.interfaceName, m.interfaceBases.map l.shorten, []⟩]
  else []) ++
    [⟨.classType, ["public", "partial"], m.name, (m.baseClass.toList ++ m.interfaces).map l.shorten,
      if m.omitsConstructor then [] else [⟨["public"], [reference]⟩]⟩] ++
    if l.settings.propertyStyle.hasExtensionMethods then
      [⟨.classType, ["public", "static", "partial"], m.extensionsName, [], []⟩]
    else []

variable {reference : TypeName}

theorem linesRead_summary
    (name : String) (description : Option String) :
    LinesRead (summary "\t" name description) [] :=
  .notes fun _ hline => isNote_of_mem_summary (n := 1) rfl hline

/-- The interface of a mixin is read back. -/
theorem hasOutline_interface
    (h : m.IsReadable l models) (husings : ∀ u ∈ l.usings, IsDotted u) :
    (l.writtenInterface m).HasOutline l version
      ⟨.interfaceType, ["public", "partial"], m.interfaceName, m.interfaceBases.map l.shorten, []⟩ := by
  obtain ⟨hname, -⟩ := isIdentifier_interfaceName h.name
  refine WrittenType.hasOutline ["partial"] "interface" rfl (by simp) (by simp)
    (.inr ⟨rfl, rfl⟩) hname ?_ (by simp [Layout.writtenInterface]) h.interfaceBases ?_ rfl rfl rfl
  · refine @LinesRead.append _ _ [] [] ?_ (linesRead_summary _ _)
    refine @LinesRead.comment _ 1
      (" Mixin Content Type with alias \"" ++ m.type.aliasName ++ "\"").toList ?_ ?_
    · simp
    · simpa using h.aliasName
  · unfold Layout.writtenInterface
    dsimp only
    split
    · refine .intercalate fun body hbody => ?_
      obtain ⟨p, hp, rfl⟩ := List.mem_map.1 hbody
      exact partsRead_interfaceProperty (h.ownProperties p hp) husings
    · exact .nil

/-- The class of a model is read back. -/
theorem hasOutline_class
    (h : m.IsReadable l models) (husings : ∀ u ∈ l.usings, IsDotted u)
    (hbodies : SupportsBodies l version)
    (hreference : ReferenceRead version (l.shorten (l.settings.referenceType m.type.kind)) reference) :
    (l.writtenClass models m).HasOutline l version
      ⟨.classType, ["public", "partial"], m.name, (m.baseClass.toList ++ m.interfaces).map l.shorten,
        if m.omitsConstructor then [] else [⟨["public"], [reference]⟩]⟩ := by
  refine WrittenType.hasOutline ["partial"] "class" rfl (by simp) (by simp)
    (.inl ⟨rfl, rfl⟩) h.name (linesRead_summary _ _) ?_ h.bases ?_ rfl rfl rfl
  · rintro _ ⟨⟩
    exact h.aliasName
  · have hhelpers : LinesRead ["\t\t// helpers"] [] :=
      @LinesRead.comment _ 2 " helpers".toList (by simp) (by decide)
    have hctor : LinesRead ["\t\t// ctor"] [] :=
      @LinesRead.comment _ 2 " ctor".toList (by simp) (by decide)
    have hproperties : LinesRead ["\t\t// properties"] [] :=
      @LinesRead.comment _ 2 " properties".toList (by simp) (by decide)
    have hstart : PartsRead l version m.name [.note "\t\t// helpers",
        .note "#pragma warning disable 0109 // new is redundant"] [] :=
      (PartsRead.note hhelpers).append (.note (.directive (by simp)))
    have hend : PartsRead l version m.name [.note "#pragma warning restore 0109"] [] :=
      .note (.directive (by simp))
    have hconstructor : PartsRead l version m.name
        (if m.omitsConstructor then []
        else [.note "", .note "\t\t// ctor", .member (l.writtenConstructor m)])
        (if m.omitsConstructor then [] else [⟨["public"], [reference]⟩]) := by
      split
      · exact .nil
      · exact (PartsRead.blank.append (.note hctor)).append
          (partsRead_constructor h.name h.notReserved hreference)
    have hheading : PartsRead l version m.name
        (if (propertyMembers l.settings.propertyStyle models m).isEmpty then []
        else [.note "", .note "\t\t// properties"]) [] := by
      split
      · exact .nil
      · exact PartsRead.blank.append (.note hproperties)
    have hmembers : PartsRead l version m.name
        ((propertyMembers l.settings.propertyStyle models m).flatMap fun x =>
          [.note "", .member (l.writtenClassMember m x)]) [] :=
      .flatMap fun x hx => PartsRead.blank.append (partsRead_classMember h husings hbodies hx)
    have hall := ((((hstart.append (partsRead_helpers h.name h.aliasName hbodies)).append hend).append
      hconstructor).append hheading).append hmembers
    simpa [Layout.writtenClass] using hall

/-- The class of the extension methods of a model is read back. -/
theorem hasOutline_extensions
    (h : m.IsReadable l models) (husings : ∀ u ∈ l.usings, IsDotted u)
    (hbodies : SupportsBodies l version) :
    (l.writtenExtensions m).HasOutline l version
      ⟨.classType, ["public", "static", "partial"], m.extensionsName, [], []⟩ := by
  refine WrittenType.hasOutline ["static", "partial"] "class" rfl (by simp)
    (by simp) (.inl ⟨rfl, rfl⟩) (isIdentifier_extensionsName h.name) .nil (by simp [Layout.writtenExtensions])
    nofun ?_ rfl rfl rfl
  have hextended : isIdentifier m.extended = true ∧ m.extended ∉ reservedClassNames := by
    unfold Model.extended
    split
    · exact isIdentifier_interfaceName h.name
    · exact ⟨h.name, h.notReserved⟩
  refine .intercalate fun body hbody => ?_
  obtain ⟨p, hp, rfl⟩ := List.mem_map.1 hbody
  exact partsRead_getter (h.ownProperties p (List.mem_filter.1 hp).1) husings hbodies
    (fun _ => isNote_of_mem_documentation) hextended.1 hextended.2

end Members

end Generated
end ContentModels

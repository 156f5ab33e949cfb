import ContentModels.Proofs.CodeModel.Names
import ContentModels.Proofs.CodeModel.References
import ContentModels.Proofs.Generated.Files
import ContentModels.Proofs.Naming
import ContentModels.Proofs.Options

/-!
# Code models that can be read back

The checks on the way to a code model leave little to ask for: names are names of the
language, so what is configured decides whether generated code can be read back, next to
two conditions on the schema.  Aliases and names of properties are one line, and no class
has the name of a word that starts another declaration.
-/

namespace ContentModels

open CSharp CSharp.Parse Generated Outcome

/-! ## Names -/

theorem isIdentPart_of_isNameChar
    {c : Char}
    (h : Naming.isNameChar c = true) :
    Piece.isIdentPart c = true := by
  have hascii := Naming.ascii_of_isNameChar h
  unfold Naming.isNameChar Char.isAlphanum at h
  unfold Piece.isIdentPart Text.isAlphanumeric
  simp only [Bool.or_eq_true] at h ⊢
  rcases h with (halpha | hdigit) | hunderscore
  · exact .inr (.inl (Text.isAlphabetic_of_isAlpha halpha))
  · refine .inr (.inr ?_)
    unfold Text.isNumeric
    rw [if_pos hascii]
    exact hdigit
  · exact .inl hunderscore

/-- What is a usable name for models is an identifier of the language. -/
theorem Naming.isIdentifier
    {name : String}
    (h : isValid name = true) :
    Generated.isIdentifier name = true := by
  obtain ⟨c, cs, rfl, hchars, hdigit, hkeyword⟩ := exists_cons_of_isValid h
  have hstart : Piece.isIdentStart c = true := by
    have hc := hchars c List.mem_cons_self
    unfold isNameChar Char.isAlphanum at hc
    unfold Piece.isIdentStart
    simp only [hdigit, Bool.or_false, Bool.or_eq_true] at hc ⊢
    exact hc.elim (fun h => .inr (Text.isAlphabetic_of_isAlpha h)) .inl
  unfold Generated.isIdentifier isWord
  rw [String.toList_ofList]
  simp only [List.head?_cons, Option.any_some, hstart, Bool.true_and, Bool.and_eq_true,
    List.all_eq_true, Bool.not_eq_true', List.contains_eq_mem, decide_eq_false_iff_not]
  exact ⟨fun x hx => isIdentPart_of_isNameChar (hchars x hx), hkeyword⟩

/--
A pattern of identifier characters and placeholders that starts like an identifier: with an
underscore in each place it is a word.
-/
def IsGetterPattern (pattern : String) : Prop :=
  isWord (String.ofList (Text.replaceAll Settings.getterPlaceholder ['_'] pattern.toList)) = true

instance (pattern : String) : Decidable (IsGetterPattern pattern) :=
  inferInstanceAs (Decidable (_ = true))

/-- Characters for a placeholder keep the others those of an identifier. -/
theorem all_replaceAll
    {part new : List Char} (hnew : ∀ x ∈ new, Piece.isIdentPart x = true) (cs : List Char)
    (h : ∀ x ∈ Text.replaceAll part ['_'] cs, Piece.isIdentPart x = true) :
    ∀ x ∈ Text.replaceAll part new cs, Piece.isIdentPart x = true := by
  induction cs using Text.replaceAll.induct part with
  | case1 =>
    unfold Text.replaceAll
    nofun
  | case2 c cs hprefix ih =>
    unfold Text.replaceAll at h ⊢
    rw [if_pos hprefix] at h ⊢
    rw [List.forall_mem_append] at h ⊢
    exact ⟨hnew, ih h.2⟩
  | case3 c cs hprefix ih =>
    unfold Text.replaceAll at h ⊢
    rw [if_neg hprefix] at h ⊢
    rw [List.forall_mem_cons] at h ⊢
    exact ⟨h.1, ih h.2⟩

/-- The getter of a property has a name if its pattern is one of identifier characters. -/
theorem Settings.isWord_getterName
    {s : Settings} {name : String} (h : IsGetterPattern s.getterPattern) (hname : isWord name = true) :
    isWord (s.getterName name) = true := by
  obtain ⟨c, cs, htext, hstart, hpart⟩ := Lexeme.head_of_isWord hname
  unfold IsGetterPattern at h
  unfold isWord at h ⊢
  rw [String.toList_ofList, Bool.and_eq_true, List.all_eq_true] at h
  rw [getterName, String.toList_ofList, Bool.and_eq_true, List.all_eq_true, htext]
  refine ⟨?_, all_replaceAll hpart _ h.2⟩
  have hhead := h.1
  cases hpattern : s.getterPattern.toList with
  | nil =>
    rw [hpattern] at hhead
    unfold Text.replaceAll at hhead
    cases hhead
  | cons d ds =>
    rw [hpattern] at hhead
    unfold Text.replaceAll at hhead ⊢
    split
    · exact hstart
    · rename_i hprefix
      rw [if_neg hprefix] at hhead
      exact hhead

/-! ## What is configured -/

/-- Settings whose names and types can be read back where they are written. -/
structure Settings.IsReadable (s : Settings) : Prop where
  modelsNamespace : IsDotted s.modelsNamespace
  usings : ∀ u ∈ s.usingNamespaces, IsDotted u
  types : ∀ x ∈ s.typeSettings, IsTypeText x.2
  getterPattern : IsGetterPattern s.getterPattern

/-- Options whose names and types can be read back where they are written. -/
structure CodeOptions.IsReadable (o : CodeOptions) : Prop where
  modelsNamespace : ∀ name, o.modelsNamespace = some name → IsDotted name
  usings : ∀ u ∈ o.usingNamespaces, IsDotted u
  modelsBaseClass : ∀ base, o.modelsBaseClass = some base → IsTypeText base

/-- A content type whose aliases and names of properties are one line each. -/
structure ContentType.IsOneLine (t : ContentType) : Prop where
  aliasName : '\n' ∉ t.aliasName.toList
  properties : ∀ p ∈ t.properties, '\n' ∉ p.aliasName.toList ∧ '\n' ∉ p.name.toList

instance (t : ContentType) : Decidable t.IsOneLine :=
  decidable_of_iff (_ ∧ _)
    ⟨fun ⟨haliasName, hproperties⟩ => ⟨haliasName, hproperties⟩, fun h => ⟨h.aliasName, h.properties⟩⟩

/-- A code model whose names and types of values can be read back where they are written. -/
structure CodeModel.IsReadable (m : CodeModel) : Prop where
  names : ∀ t ∈ m.models, t.name ∉ reservedClassNames
  valueTypes : ∀ t ∈ m.models, ∀ p ∈ t.properties, IsTypeText p.valueType

/-- Whether a text is read as one type name up to its end. -/
def readsTypeText (ctx : CSharp.ParseContext) (T : String) : Bool :=
  match CSharp.tokenize T with
  | .error _ => false
  | .ok lexed =>
    match CSharp.Parse.typeName ctx lexed.tokens with
    | .ok (name, []) => name.text == T && lexed.tokens.all fun t => isTypeToken t.kind
    | _ => false

theorem isTypeText_of_reads
    {ctx : CSharp.ParseContext} {T : String} (h : readsTypeText ctx T = true) :
    IsTypeText T := by
  unfold readsTypeText at h
  split at h
  · cases h
  · rename_i lexed hlexed
    split at h
    · rename_i name hname
      rw [Bool.and_eq_true, beq_iff_eq, List.all_eq_true] at h
      exact ⟨lexed, name, ctx, hlexed, hname, h.1, h.2⟩
    · cases h

/-- A code model can be read back if the types of values are read as types. -/
theorem CodeModel.isReadable_of_reads
    {m : CodeModel} (ctx : CSharp.ParseContext)
    (h : ∀ t ∈ m.models, t.name ∉ reservedClassNames ∧
      ∀ p ∈ t.properties, readsTypeText ctx p.valueType = true) :
    m.IsReadable :=
  ⟨fun t ht => (h t ht).1, fun t ht p hp => isTypeText_of_reads ((h t ht).2 p hp)⟩

/-- What is configured when nothing is chosen can be read back. -/
theorem Settings.isReadable_standard : Settings.standard.IsReadable where
  modelsNamespace := ⟨["Umbraco", "Web", "PublishedModels"], by decide, by decide, rfl⟩
  usings := nofun
  types := by
    have hall : ∀ x ∈ Settings.standard.typeSettings,
        readsTypeText ⟨.standard, 1⟩ x.2 = true := by
      decide +kernel
    exact fun x hx => isTypeText_of_reads (hall x hx)
  getterPattern := by decide +kernel

theorem Settings.IsReadable.referenceType
    {s : Settings} (h : s.IsReadable) (kind : ContentKind) :
    IsTypeText (s.referenceType kind) := by
  unfold Settings.referenceType
  split
  · exact h.types ("element_reference_type", _) (by simp [Settings.typeSettings])
  · exact h.types ("content_reference_type", _) (by simp [Settings.typeSettings])

theorem Settings.IsReadable.baseInterface
    {s : Settings} (h : s.IsReadable) (kind : ContentKind) :
    IsTypeText (s.baseInterface kind) := by
  unfold Settings.baseInterface
  split
  · exact h.types ("element_base_interface", _) (by simp [Settings.typeSettings])
  · exact h.types ("content_base_interface", _) (by simp [Settings.typeSettings])

theorem CodeModel.isOneLine_newsSchema :
    ∀ t ∈ newsSchema, t.IsOneLine := by
  decide +kernel

namespace Generated

/-- The parts of a layout that settings ask for. -/
theorem Layout.ofSettings_eq_ok
    {settings : Settings} {usings : List String} {l : Layout}
    (h : ofSettings settings usings = .ok l) :
    l.settings = settings ∧ l.usings = usings.foldl addOnce standardUsings ∧
      ∃ version, settings.version = .ok version ∧
        l.expressionBodies = version.supports .expressionBodiedProperty := by
  obtain ⟨version, hversion, h⟩ := Outcome.bind_eq_ok.1 h
  cases h
  exact ⟨rfl, rfl, version, hversion, rfl⟩

/-- The namespaces that every file uses are dotted names. -/
theorem isDotted_standardUsings :
    ∀ u ∈ standardUsings, IsDotted u := by
  have hall : ∀ u ∈ standardUsings, Text.split '.' u ≠ [] ∧
      (Text.split '.' u).all isIdentifier = true ∧ u = ".".intercalate (Text.split '.' u) := by
    decide +kernel
  intro u hu
  obtain ⟨hne, hsegments, htext⟩ := hall u hu
  exact ⟨_, hne, List.all_eq_true.1 hsegments, htext⟩

theorem Layout.isDotted_usings
    {settings : Settings} {usings : List String} {l : Layout}
    (h : ofSettings settings usings = .ok l) (husings : ∀ u ∈ usings, IsDotted u) :
    ∀ u ∈ l.usings, IsDotted u := by
  intro u hu
  rw [(Layout.ofSettings_eq_ok h).2.1, mem_foldl_addOnce] at hu
  exact hu.elim (isDotted_standardUsings u) (husings u)

/-- Methods have expressions as bodies from the same version on as properties. -/
theorem Layout.supportsBodies
    {settings : Settings} {usings : List String} {l : Layout} {version : LanguageVersion}
    (h : ofSettings settings usings = .ok l) (hversion : settings.version = .ok version) :
    SupportsBodies l version := by
  obtain ⟨-, -, v, hv, hbodies⟩ := Layout.ofSettings_eq_ok h
  obtain rfl : v = version := Except.ok.inj (hv.symm.trans hversion)
  exact ⟨fun h => hbodies ▸ h, fun h => hbodies ▸ h⟩

/-- A word is written as it is: it has no namespace. -/
theorem Layout.shorten_of_isWord
    {w : String} (l : Layout) (h : isWord w = true) :
    l.shorten w = w := by
  obtain ⟨c, cs, htext, -, hpart⟩ := Lexeme.head_of_isWord h
  have hdot : '.' ∉ w.toList := by
    rw [htext]
    intro hmem
    have hdot := hpart '.' hmem
    revert hdot
    decide
  unfold shorten
  simp [hdot]

theorem basesRead_of_isTypeText
    {l : Layout} {bases : List String} (h : ∀ b ∈ bases, IsTypeText b ∨ isIdentifier b = true)
    (husings : ∀ u ∈ l.usings, IsDotted u) :
    BasesRead l bases := by
  intro b hb
  rcases h b hb with htype | hname
  · obtain ⟨ks, hspelled, -⟩ := htype.shorten husings
    exact ⟨ks, hspelled⟩
  · rw [l.shorten_of_isWord (isWord_of_isIdentifier hname)]
    exact ⟨_, spelled_word (isWord_of_isIdentifier hname) (ne_of_isIdentifier hname (by decide))⟩

end Generated

namespace TextSet

theorem mem_toList_ofList
    {names : List String} {name : String}
    (h : name ∈ toList (ofList names)) :
    name ∈ names := by
  suffices hall : ∀ s : TextSet, name ∈ toList (names.foldl add s) → name ∈ names ∨ name ∈ toList s by
    exact (hall .empty h).resolve_right nofun
  clear h
  induction names with
  | nil => exact fun _ h => .inr h
  | cons n names ih =>
    intro s h
    rcases ih (s.add n) h with h | h
    · exact .inl (List.mem_cons_of_mem _ h)
    · obtain ⟨e, he, rfl⟩ := List.mem_map.1 h
      rcases Keyed.mem_updateEntries he with heq | he
      · exact .inl (heq ▸ List.mem_cons_self)
      · exact .inr (List.mem_map_of_mem he)

end TextSet

/-! ## Models -/

namespace CodeModel

variable {settings : Settings} {strategies : Strategies} {schema : List ContentType}
  {options : CodeOptions} {m : CodeModel} {linked : List Schema.LinkedType}
  {named : List NamedType} {mapped : ContentTypeOptions} {propertied : List PropertiedType}
  {t : Model} {p : ModelProperty} {l : Layout}

theorem isDotted_usings
    (hsettings : settings.IsReadable) (hoptions : options.IsReadable) :
    ∀ u ∈ usings settings options, IsDotted u := by
  intro u hu
  rcases List.mem_append.1 (List.mem_filter.1 (TextSet.mem_toList_ofList hu)).1 with h | h
  · exact hsettings.usings u h
  · exact hoptions.usings u h

namespace Built

theorem isDotted_modelsNamespace
    (h : Built settings strategies schema options linked named mapped propertied m)
    (hsettings : settings.IsReadable) (hoptions : options.IsReadable) :
    IsDotted m.modelsNamespace := by
  rw [h.modelsNamespace]
  cases hname : options.modelsNamespace with
  | none => exact hsettings.modelsNamespace
  | some name => exact hoptions.modelsNamespace name hname

/-- The members for an own property can be read back. -/
theorem isReadable_property
    (h : Built settings strategies schema options linked named mapped propertied m)
    (hsettings : settings.IsReadable) (hschema : ∀ t ∈ schema, t.IsOneLine) (hm : m.IsReadable)
    (hl : l.settings = settings) (ht : t ∈ m.models) (hp : p ∈ t.ownProperties) :
    p.IsReadable l := by
  have hname := Naming.isIdentifier (h.isValid_property ht hp)
  have hmem := (List.mem_filter.1 hp).1
  obtain ⟨halias, hdisplay⟩ := (hschema _ (h.type_mem ht)).properties _ (h.property_type_mem ht hmem)
  refine ⟨hname, ?_, halias, hdisplay, hm.valueTypes t ht p hmem⟩
  rw [Layout.getter, hl]
  exact Settings.isWord_getterName hsettings.getterPattern (isWord_of_isIdentifier hname)

/-- A property that a class has from a mixin is one that the mixin does not leave out. -/
theorem of_mem_mixedAccessors
    (h : Built settings strategies schema options linked named mapped propertied m)
    (ht : t ∈ m.models) {mixin : Model}
    (hmixed : .mixedAccessor mixin p ∈ mixedAccessors m.models t) :
    mixin ∈ m.models ∧ p ∈ mixin.ownProperties := by
  obtain ⟨x, hx, heq⟩ := List.mem_filterMap.1 hmixed
  obtain ⟨hx, hgenerate⟩ := List.mem_filter.1 hx
  obtain ⟨u, hu, heq⟩ := Option.bind_eq_some_iff.1 heq
  obtain ⟨q, hq, heq⟩ := Option.map_eq_some_iff.1 heq
  cases heq
  obtain ⟨i, hi⟩ := List.mem_iff_getElem?.1 ht
  obtain ⟨v, r, hv, -, hr, himplies⟩ := h.mixed_refers hi hx
  obtain rfl : mixin = v := Option.some.inj (hu.symm.trans hv)
  obtain rfl : p = r := Option.some.inj (hq.symm.trans hr)
  have hstate := (himplies (by simpa using hgenerate)).1
  exact ⟨List.mem_of_getElem? hu, List.mem_filter.2 ⟨List.mem_of_getElem? hq, by simpa using hstate⟩⟩

/-- The interfaces of a class are those of mixins. -/
theorem isMixinInterface_of_mem
    (h : Built settings strategies schema options linked named mapped propertied m)
    (ht : t ∈ m.models) {name : String} (hname : name ∈ t.interfaces) :
    IsMixinInterface m.models name := by
  obtain ⟨i, hi⟩ := List.mem_iff_getElem?.1 ht
  have hp : t.toParticipant ∈ m.models.map (·.toParticipant) := List.mem_map_of_mem ht
  rw [h.interfaces_eq hi, Inheritance.mem_interfaces] at hname
  rcases hname.1 with hmixin | ⟨hmixin, rfl⟩
  · obtain ⟨j, hj, v, hv, rfl⟩ := Inheritance.mem_mixinInterfaces.1 hmixin
    obtain ⟨u, hu, humixin⟩ := isMixinAt_iff.1 (h.wellFormed.isMixinAt_of_mixin hp hj)
    obtain rfl := Option.some.inj ((h.model_eq hu).1.symm.trans hv)
    exact ⟨u, List.mem_of_getElem? hu, humixin, rfl⟩
  · exact ⟨t, ht, hmixin, rfl⟩

/-- The interface of a mixin extends those of models, or the one that all types of its kind have. -/
theorem of_mem_interfaceBases
    (h : Built settings strategies schema options linked named mapped propertied m)
    (ht : t ∈ m.models) {name : String} (hname : name ∈ t.interfaceBases) :
    (∃ u ∈ m.models, name = u.interfaceName) ∨ name = settings.baseInterface t.type.kind := by
  obtain ⟨i, hi⟩ := List.mem_iff_getElem?.1 ht
  have hbases := congrArg Model.interfaceBases (h.model_eq hi).2
  rw [hbases] at hname
  unfold Inheritance.complete at hname
  dsimp only at hname
  split at hname
  · refine (Inheritance.of_mem_interfaceBases hname).imp_left fun hlink => ?_
    obtain ⟨_, u, -, hu, rfl⟩ := h.link_of_interface hi hlink
    exact ⟨u, List.mem_of_getElem? hu, rfl⟩
  · cases hname

/-- All that is written for a model can be read back. -/
theorem isReadable
    (h : Built settings strategies schema options linked named mapped propertied m)
    (hstrategies : strategies.baseClass = BaseClassQuery.standard)
    (hsettings : settings.IsReadable) (hoptions : options.IsReadable)
    (hschema : ∀ t ∈ schema, t.IsOneLine) (hm : m.IsReadable)
    (hl : Layout.ofSettings settings m.usingNamespaces = .ok l) (ht : t ∈ m.models) :
    t.IsReadable l m.models := by
  have hname : ∀ u ∈ m.models, isIdentifier u.name = true := fun u hu =>
    Naming.isIdentifier (h.isValid_name hu)
  have hinterface : ∀ u ∈ m.models, isIdentifier u.interfaceName = true := fun u hu =>
    (isIdentifier_interfaceName (hname u hu)).1
  have hproperty : ∀ u ∈ m.models, ∀ p ∈ u.ownProperties, p.IsReadable l := fun u hu p hp =>
    h.isReadable_property hsettings hschema hm (Layout.ofSettings_eq_ok hl).1 hu hp
  have husings : ∀ u ∈ l.usings, IsDotted u :=
    Layout.isDotted_usings hl (h.usingNamespaces ▸ isDotted_usings hsettings hoptions)
  refine ⟨hname t ht, hm.names t ht, (hschema _ (h.type_mem ht)).aliasName, hproperty t ht,
    fun mixin p hmixed => ?_, basesRead_of_isTypeText (fun b hb => ?_) husings,
    basesRead_of_isTypeText (fun b hb => ?_) husings⟩
  · obtain ⟨hmixin, hp⟩ := h.of_mem_mixedAccessors ht hmixed
    exact ⟨hname mixin hmixin, hproperty mixin hmixin p hp⟩
  · rcases List.mem_append.1 hb with hb | hb
    · rcases h.of_baseClass hstrategies ht (Option.mem_toList.1 hb) with ⟨u, hu, rfl⟩ | rfl | rfl
      · exact .inr (hname u hu)
      · exact .inl (hsettings.types ("element_base_class", _) (by simp [Settings.typeSettings]))
      · cases hbase : options.modelsBaseClass with
        | none => exact .inl (hsettings.types ("content_base_class", _) (by simp [Settings.typeSettings]))
        | some base => exact .inl (hoptions.modelsBaseClass base hbase)
    · obtain ⟨u, hu, -, rfl⟩ := h.isMixinInterface_of_mem ht hb
      exact .inr (hinterface u hu)
  · rcases h.of_mem_interfaceBases ht hb with ⟨u, hu, rfl⟩ | rfl
    · exact .inr (hinterface u hu)
    · exact .inl (hsettings.baseInterface _)

end Built
end CodeModel
end ContentModels

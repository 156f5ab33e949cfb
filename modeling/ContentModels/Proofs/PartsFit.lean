import ContentModels.Proofs.AddedTypes

/-!
# Parts of models that fit together

A class that is generated has a part in its own file and may have parts in the code of users.
Together the parts are derived from one class and have one constructor by which models are
made: what is read from the code of users decides what the generated part leaves to it.

What is read is known by the simple name of a class and by what names denote before anything
is generated.  So the parts fit where this is what there is in the end (`FindsParts`, `KeepsBases`), and
where the names in the generated part denote what they are written for (`LeavesNames`,
`NamesBase`).
-/

namespace ContentModels

open CSharp CSharp.Parse Generated Outcome

/-! ## What parts agree on -/

namespace CSharp

/-- The entries of base lists, each with the declaration that it stands in. -/
def baseEntries (ds : List TypeDeclaration) : List (TypeDeclaration × TypeName) :=
  ds.flatMap fun d => d.baseList.map (d, ·)

theorem mem_baseEntries
    {ds : List TypeDeclaration} {x : TypeDeclaration × TypeName} :
    x ∈ baseEntries ds ↔ x.1 ∈ ds ∧ x.2 ∈ x.1.baseList := by
  obtain ⟨d, b⟩ := x
  simp [baseEntries]

namespace Compilation

variable {c : Compilation} {x : TypeDeclaration × TypeName} {s : Symbol}

/-- What an entry of a base list denotes. -/
def denoted (c : Compilation) (x : TypeDeclaration × TypeName) : Option Symbol :=
  c.resolve x.2 (.ofType x.1)

/-- An entry of a base list denotes an interface. -/
def DenotesInterface (c : Compilation) (x : TypeDeclaration × TypeName) : Prop :=
  ∃ s, c.denoted x = some s ∧ s.kind = .interfaceType

/-- An entry of a base list denotes a class. -/
def DenotesClass (c : Compilation) (x : TypeDeclaration × TypeName) : Prop :=
  ∃ s, c.denoted x = some s ∧ s.kind = .classType

theorem DenotesClass.not_denotesInterface
    (h : c.DenotesClass x) :
    ¬ c.DenotesInterface x := by
  obtain ⟨s, hs, hkind⟩ := h
  rintro ⟨s', hs', hkind'⟩
  cases hs.symm.trans hs'
  cases hkind.symm.trans hkind'

end Compilation
end CSharp

namespace FactReader

/-- The number of constructors of models in declarations. -/
def constructorCount (r : FactReader) (ds : List TypeDeclaration) : Nat :=
  (ds.flatMap (·.members)).countP r.isModelConstructor

/-- The parts that users write agree on at most one base class and have at most one constructor. -/
structure PartsAgree (r : FactReader) (c : Compilation) (fullName : String) : Prop where
  base : ∀ x ∈ baseEntries (partsIn c.userUnits fullName),
    ∀ y ∈ baseEntries (partsIn c.userUnits fullName),
      ¬ c.DenotesInterface x → ¬ c.DenotesInterface y → c.denoted x = c.denoted y
  constructor : r.constructorCount (partsIn c.userUnits fullName) ≤ 1

/-- All parts together have one base class and one constructor. -/
structure PartsFit (r : FactReader) (c : Compilation) (fullName : String) : Prop where
  base : ∃ s : Symbol, s.kind = .classType ∧
    (∃ x ∈ baseEntries (partsIn c.units fullName), c.denoted x = some s) ∧
    ∀ x ∈ baseEntries (partsIn c.units fullName), c.DenotesInterface x ∨ c.denoted x = some s
  constructor : r.constructorCount (partsIn c.units fullName) = 1

/-! ## Constructors -/

/-- Whether the head of a constructor is that of the one that models have. -/
def isModelHead (r : FactReader) (h : ConstructorHead) : Bool :=
  match h.types with
  | [type] => !h.modifiers.contains "static" && r.referenceTypes.contains type.simpleName
  | _ => false

theorem isModelConstructor_eq
    (r : FactReader) (m : Member) :
    r.isModelConstructor m =
      ((constructorTypes? m.kind).map (⟨m.modifiers, ·⟩)).any r.isModelHead := by
  unfold isModelConstructor constructorTypes?
  cases m.kind with
  | constructor ps =>
    match ps with
    | [] => rfl
    | [_] => rfl
    | _ :: _ :: _ => rfl
  | _ => rfl

/-- The constructors of models are known by their heads. -/
theorem countP_isModelConstructor
    (r : FactReader) (ms : List Member) :
    ms.countP r.isModelConstructor = (constructorHeads ms).countP r.isModelHead := by
  unfold constructorHeads
  rw [List.countP_filterMap]
  refine List.countP_congr fun m _ => ?_
  rw [isModelConstructor_eq]
  cases constructorTypes? m.kind <;> rfl

theorem constructorCount_append
    (r : FactReader) (ds es : List TypeDeclaration) :
    r.constructorCount (ds ++ es) = r.constructorCount ds + r.constructorCount es := by
  unfold constructorCount
  rw [List.flatMap_append, List.countP_append]

theorem constructorCount_cons
    (r : FactReader) (d : TypeDeclaration) (ds : List TypeDeclaration) :
    r.constructorCount (d :: ds) = d.members.countP r.isModelConstructor + r.constructorCount ds := by
  unfold constructorCount
  rw [List.flatMap_cons, List.countP_append]

theorem constructorCount_pos_iff
    {r : FactReader} {ds : List TypeDeclaration} :
    0 < r.constructorCount ds ↔ ∃ d ∈ ds, ∃ m ∈ d.members, r.isModelConstructor m = true := by
  unfold constructorCount
  rw [List.countP_pos_iff]
  simp only [List.mem_flatMap]
  constructor
  · rintro ⟨m, ⟨d, hd, hm⟩, h⟩
    exact ⟨d, hd, m, hm, h⟩
  · rintro ⟨d, hd, m, hm, h⟩
    exact ⟨m, ⟨d, hd, hm⟩, h⟩

end FactReader

/-! ## Names in the generated part -/

/-- The types of a model that others are derived from, with their kinds. -/
def Model.derivable (t : Model) : List (String × DeclarationKind) :=
  (t.name, .classType) :: if t.isMixin then [(t.interfaceName, .interfaceType)] else []

/-- The code of users leaves the names of generated types to what is generated. -/
structure CodeModel.LeavesNames (m : CodeModel) (before : Compilation) (t : Model) : Prop where
  /-- What goes by the name of a generated type is a part of it. -/
  kinds : ∀ u ∈ m.models, ∀ x ∈ u.derivable, ∀ d ∈ before.declaredTypes,
    d.isPartOf (m.fullName x.1) = true → d.kind = x.2
  /-- No type that is nested in the class hides a generated one. -/
  nested : ∀ u ∈ m.models, ∀ x ∈ u.derivable,
    before.symbol? (".".intercalate [m.modelsNamespace, t.name, x.1]) 0 = none

instance (m : CodeModel) (before : Compilation) (t : Model) : Decidable (m.LeavesNames before t) :=
  decidable_of_iff (_ ∧ _) ⟨fun ⟨hkinds, hnested⟩ => ⟨hkinds, hnested⟩, fun h => ⟨h.kinds, h.nested⟩⟩

/-- What the name of a base class may stand for in the generated part of a class. -/
def CodeModel.baseCandidates (m : CodeModel) (l : Layout) (t : Model) (base : String) :
    List (String × Nat) :=
  (Scope.mk m.modelsNamespace [t.name] (usingDirectives l.usings)).candidates
    (dottedType (l.shorten base))

/-- A base class is a class of the references, and nothing hides it in the generated part of a class. -/
structure CodeModel.NamesBase (m : CodeModel) (before : Compilation) (l : Layout) (t : Model)
    (base : String) : Prop where
  dotted : IsDotted base
  referenced : ∃ s ∈ before.symbol? base 0, s.kind = .classType
  undeclared : ∀ d ∈ before.declaredTypes, d.fullName ≠ base
  unhidden : ∀ x ∈ m.baseCandidates l t base, x = (base, 0) ∨ before.symbol? x.1 x.2 = none
  ungenerated : ∀ u ∈ m.models,
    ∀ name ∈ TypeNames.generated l.settings.propertyStyle u.toNamedType,
      ∀ x ∈ m.baseCandidates l t base, x.1 ≠ m.fullName name

instance (m : CodeModel) (before : Compilation) (l : Layout) (t : Model) (base : String) :
    Decidable (m.NamesBase before l t base) :=
  decidable_of_iff (_ ∧ _ ∧ _ ∧ _ ∧ _)
    ⟨fun ⟨hdotted, hreferenced, hundeclared, hunhidden, hungenerated⟩ =>
      ⟨hdotted, hreferenced, hundeclared, hunhidden, hungenerated⟩,
    fun h => ⟨h.dotted, h.referenced, h.undeclared, h.unhidden, h.ungenerated⟩⟩

/-- What is configured for a class to be derived from is a class, also in its generated part. -/
def CodeModel.NamesBases (m : CodeModel) (before : Compilation) (l : Layout) (t : Model) : Prop :=
  ∀ base ∈ t.baseClass, (∀ u ∈ m.models, u.name ≠ base) → m.NamesBase before l t base

instance (m : CodeModel) (before : Compilation) (l : Layout) (t : Model) :
    Decidable (m.NamesBases before l t) :=
  inferInstanceAs (Decidable (∀ base ∈ t.baseClass, _))

/-- The full name of a base class: that of a model, or the one that is configured. -/
def CodeModel.baseName (m : CodeModel) (base : String) : String :=
  if m.models.any (·.name == base) then m.fullName base else base

namespace Generator.Pass

variable {g : Generator} {schema : List ContentType} {sources : SourceFiles} {options : CodeOptions}
  {m : CodeModel} {out : GeneratedModels} {before after : Compilation} {l : Layout} {t : Model}
  {d : TypeDeclaration} {b : TypeName}

theorem isIdentifier_of_mem
    (h : g.Pass schema sources options m out before after) (ht : t ∈ m.models) {name : String}
    (hname : name ∈ TypeNames.generated g.settings.propertyStyle t.toNamedType) :
    isIdentifier name = true := by
  obtain ⟨_, _, _, _, hbuilt⟩ := CodeModel.exists_built h.build
  have ht := Naming.isIdentifier (hbuilt.isValid_name ht)
  unfold TypeNames.generated at hname
  rcases List.mem_append.1 hname with hname | hname
  · rcases List.mem_append.1 hname with hname | hname
    · exact List.mem_singleton.1 hname ▸ ht
    · split at hname
      · exact List.mem_singleton.1 hname ▸ (isIdentifier_interfaceName ht).1
      · cases hname
  · split at hname
    · exact List.mem_singleton.1 hname ▸ isIdentifier_extensionsName ht
    · cases hname

/-- A name that no generated type has denotes nothing still. -/
theorem symbol?_eq_none
    (h : g.Pass schema sources options m out before after) (hreads : ReadsBack g m l)
    {fullName : String} {arity : Nat}
    (hne : ∀ u ∈ m.models, ∀ name ∈ TypeNames.generated l.settings.propertyStyle u.toNamedType,
      fullName ≠ m.fullName name)
    (hnone : before.symbol? fullName arity = none) :
    after.symbol? fullName arity = none := by
  refine Compilation.symbol?_eq_none_of_compile h.before h.after (fun d hd => ?_) hnone
  refine (h.of_mem_declaredTypes hreads hd).imp_right fun ⟨u, hu, hdeclares⟩ heq => ?_
  exact hne u hu _ hdeclares.name_mem (heq.symm.trans (hdeclares.fullName_eq hreads.modelsNamespace))

/-- The types of a model that others are derived from are among those generated for it. -/
theorem mem_generated_of_derivable
    {u : Model} {x : String × DeclarationKind} (hx : x ∈ u.derivable) (style : PropertyStyle) :
    x.1 ∈ TypeNames.generated style u.toNamedType := by
  unfold Model.derivable at hx
  unfold TypeNames.generated
  rcases List.mem_cons.1 hx with rfl | hx
  · simp
  · split at hx
    · rename_i hmixin
      obtain rfl := List.mem_singleton.1 hx
      simp [hmixin]
    · cases hx

theorem kind_of_derivable
    (h : g.Pass schema sources options m out before after) (hreads : ReadsBack g m l)
    {u v : Model} (hu : u ∈ m.models) (hv : v ∈ m.models) {x : String × DeclarationKind}
    (hx : x ∈ u.derivable) (hdeclares : l.Declares m.modelsNamespace v d) (hname : d.name = x.1) :
    d.kind = x.2 := by
  have hstyle := (Layout.ofSettings_eq_ok hreads.layout).1
  have hmem := hdeclares.name_mem
  rw [hname, hstyle] at hmem
  obtain rfl := CodeModel.eq_of_mem_generated h.build hu hv (mem_generated_of_derivable hx _) hmem
  have hnodup := CodeModel.nodup_generated_of_mem h.build hu
  rw [← hstyle] at hnodup
  unfold Model.derivable at hx
  rcases List.mem_cons.1 hx with rfl | hx
  · exact hdeclares.kind_of_name hnodup hname
  · split at hx
    · rename_i hmixin
      obtain rfl := List.mem_singleton.1 hx
      exact hdeclares.kind_of_interfaceName hnodup hmixin hname
    · cases hx

/-- A type that others are derived from is among those that the files declare. -/
theorem exists_declared
    (h : g.Pass schema sources options m out before after) (hreads : ReadsBack g m l)
    {u : Model} (hu : u ∈ m.models) {x : String × DeclarationKind} (hx : x ∈ u.derivable) :
    ∃ d ∈ after.declaredTypes, d.name = x.1 ∧ l.Declares m.modelsNamespace u d := by
  obtain ⟨v, hv, -, -, reference, -, -, htypes, -⟩ :=
    h.exists_generated hreads.layout hu (hreads.texts u hu)
  obtain ⟨o, ho, hname⟩ : ∃ o ∈ l.outlines reference u, o.name = x.1 := by
    unfold Model.derivable at hx
    unfold Layout.outlines
    rcases List.mem_cons.1 hx with rfl | hx
    · exact ⟨l.classOutline reference u, by simp [Layout.classOutline], rfl⟩
    · split at hx
      · rename_i hmixin
        obtain rfl := List.mem_singleton.1 hx
        exact ⟨⟨.interfaceType, ["public", "partial"], u.interfaceName, u.interfaceBases.map l.shorten, []⟩,
          by simp [hmixin], rfl⟩
      · cases hx
  obtain ⟨d, hd, hdescribes⟩ := exists_of_mem_right htypes.flip ho
  exact ⟨d, List.mem_flatMap.2 ⟨v, hv, hd⟩, hdescribes.name.trans hname, reference, o, ho, hdescribes⟩

/-- A simple name denotes the type of that name next to a class, where the class does not hide it. -/
theorem denoted_of_symbol
    (h : g.Pass schema sources options m out before after) (hreads : ReadsBack g m l)
    {w : String} {s : Symbol} (hs : after.symbol? (m.fullName w) 0 = some s)
    (hnested : before.symbol? (".".intercalate [m.modelsNamespace, d.name, w]) 0 = none)
    (henclosing : d.enclosing = m.modelsNamespace) (hcontaining : d.containing = []) :
    after.denoted (d, wordType w) = some s := by
  refine Compilation.resolve_wordType ?_ hcontaining ?_ ?_
  · rw [henclosing]
    exact hreads.modelsNamespace
  · rw [henclosing]
    refine h.symbol?_eq_none hreads (fun v hv name hmem => ?_) hnested
    rw [(Layout.ofSettings_eq_ok hreads.layout).1] at hmem
    exact CodeModel.nested_ne_fullName _ (not_mem_of_isIdentifier (h.isIdentifier_of_mem hv hmem))
  · rw [henclosing]
    exact hs

/-- The name of a generated type denotes this type in classes next to it that do not hide it. -/
theorem denoted_wordType
    (h : g.Pass schema sources options m out before after) (hreads : ReadsBack g m l)
    {u : Model} (hu : u ∈ m.models) {x : String × DeclarationKind} (hx : x ∈ u.derivable)
    (hkinds : ∀ e ∈ before.declaredTypes, e.isPartOf (m.fullName x.1) = true → e.kind = x.2)
    (hnested : before.symbol? (".".intercalate [m.modelsNamespace, d.name, x.1]) 0 = none)
    (henclosing : d.enclosing = m.modelsNamespace) (hcontaining : d.containing = []) :
    ∃ s, after.denoted (d, wordType x.1) = some s ∧ after.symbol? (m.fullName x.1) 0 = some s ∧
      s.kind = .ofDeclaration x.2 := by
  obtain ⟨s, hs, hkind⟩ : ∃ s, after.symbol? (m.fullName x.1) 0 = some s ∧
      s.kind = .ofDeclaration x.2 := by
    obtain ⟨d', hd', hname', hdeclares⟩ := h.exists_declared hreads hu hx
    have harity : d'.arity = 0 := by
      obtain ⟨_, _, -, hdescribes⟩ := hdeclares
      exact hdescribes.arity
    refine Compilation.exists_symbol h.after ⟨d', hd', ?_, harity⟩ fun e he hfull harity => ?_
    · rw [hdeclares.fullName_eq hreads.modelsNamespace, hname']
    · rcases h.of_mem_declaredTypes hreads he with hbefore | ⟨v, hv, hdeclares'⟩
      · exact hkinds e hbefore (by simp [TypeDeclaration.isPartOf, hfull, harity])
      · rw [hdeclares'.fullName_eq hreads.modelsNamespace, CodeModel.fullName_inj] at hfull
        exact h.kind_of_derivable hreads hu hv hx hdeclares' hfull
  exact ⟨s, h.denoted_of_symbol hreads hs hnested henclosing hcontaining, hs, hkind⟩

/-- The name of a generated type denotes this type in the parts of a class. -/
theorem denoted_of_derivable
    (h : g.Pass schema sources options m out before after) (hreads : ReadsBack g m l)
    (hleaves : m.LeavesNames before t) {u : Model} (hu : u ∈ m.models)
    {x : String × DeclarationKind} (hx : x ∈ u.derivable) (henclosing : d.enclosing = m.modelsNamespace)
    (hcontaining : d.containing = []) (hname : d.name = t.name) (hb : IsSpelled b)
    (htext : b.text = x.1) :
    ∃ s, after.denoted (d, b) = some s ∧ after.symbol? (m.fullName x.1) 0 = some s ∧
      s.kind = .ofDeclaration x.2 := by
  have hidentifier : isIdentifier x.1 = true := h.isIdentifier_of_mem hu (mem_generated_of_derivable hx _)
  have hword : b = wordType x.1 := by
    rw [hb.eq_dottedType (htext ▸ isDotted_of_isIdentifier hidentifier), htext, dottedType,
      split_of_isIdentifier hidentifier]
    rfl
  rw [hword]
  exact h.denoted_wordType hreads hu hx (hleaves.kinds u hu x hx) (hname ▸ hleaves.nested u hu x hx)
    henclosing hcontaining

/-- A base class that is configured is denoted by its name in the generated part of a class. -/
theorem denoted_of_namesBase
    (h : g.Pass schema sources options m out before after) (hreads : ReadsBack g m l)
    {base : String} (hbase : m.NamesBase before l t base) (hpart : GeneratedPart g m l t d)
    (hb : IsSpelled b) (htext : b.text = l.shorten base) :
    ∃ s, after.denoted (d, b) = some s ∧ after.symbol? base 0 = some s ∧ s.kind = .classType := by
  obtain ⟨s, hs, hkind⟩ := hbase.referenced
  obtain ⟨_, -, -, hd⟩ := hpart.outline
  have hcandidates : (Scope.ofType d).candidates b = m.baseCandidates l t base := by
    rw [Scope.candidates_of_usesOnly hpart.usings hreads.usings,
      hb.eq_dottedType (htext ▸ Layout.isDotted_shorten hbase.dotted), htext]
    unfold Scope.ofType TypeDeclaration.path
    rw [hd.enclosing, hd.containing, hd.name]
    rfl
  have hmem : (base, 0) ∈ (Scope.ofType d).candidates b := by
    rw [hb.eq_dottedType (htext ▸ Layout.isDotted_shorten hbase.dotted), htext]
    exact Scope.mem_candidates_shorten hpart.usings hbase.dotted
  have hsymbol : after.symbol? base 0 = some s := by
    rw [← hs]
    refine Compilation.symbol?_eq_of_compile h.before h.after hbase.undeclared (fun e he heq => ?_) 0
    rcases h.of_mem_declaredTypes hreads he with hbefore | ⟨u, hu, hdeclares⟩
    · exact hbase.undeclared e hbefore heq
    · rw [hdeclares.fullName_eq hreads.modelsNamespace] at heq
      exact hbase.ungenerated u hu _ hdeclares.name_mem _ (hcandidates ▸ hmem) heq.symm
  refine ⟨s, Compilation.resolve_of_unhidden hmem (fun x hx => ?_) hsymbol, hsymbol, hkind⟩
  rw [hcandidates] at hx
  refine (hbase.unhidden x hx).imp_right fun hnone => h.symbol?_eq_none hreads ?_ hnone
  exact fun u hu name hname => hbase.ungenerated u hu name hname x hx

/-! ## The generated part -/

/-- The name of the base class denotes a class in the generated part. -/
theorem denoted_of_baseClass
    (h : g.Pass schema sources options m out before after) (hreads : ReadsBack g m l)
    (hleaves : m.LeavesNames before t) (hbases : m.NamesBases before l t)
    (hpart : GeneratedPart g m l t d) {base : String} (hbase : t.baseClass = some base)
    (hb : b ∈ d.baseList) (htext : b.text = l.shorten base) :
    ∃ s, after.denoted (d, b) = some s ∧ after.symbol? (m.baseName base) 0 = some s ∧
      s.kind = .classType := by
  obtain ⟨_, -, -, hd⟩ := hpart.outline
  have hspelled := hd.spelled b hb
  unfold CodeModel.baseName
  by_cases hmodel : ∃ u ∈ m.models, u.name = base
  · obtain ⟨u, hu, rfl⟩ := hmodel
    have hname := h.isIdentifier_of_mem hu (mem_generated_of_derivable List.mem_cons_self _)
    have hany : (m.models.any fun v => v.name == u.name) = true :=
      List.any_eq_true.2 ⟨u, hu, beq_self_eq_true _⟩
    rw [l.shorten_of_isWord (isWord_of_isIdentifier hname)] at htext
    rw [if_pos hany]
    exact h.denoted_of_derivable hreads hleaves hu List.mem_cons_self hd.enclosing hd.containing
      hd.name hspelled htext
  · rw [if_neg (by simpa using hmodel)]
    exact h.denoted_of_namesBase hreads (hbases base hbase fun u hu heq => hmodel ⟨u, hu, heq⟩)
      hpart hspelled htext

/-- The other entries of the generated part denote interfaces. -/
theorem denotesInterface_of_mem_interfaces
    (h : g.Pass schema sources options m out before after) (hreads : ReadsBack g m l)
    (hleaves : m.LeavesNames before t) (ht : t ∈ m.models) (hpart : GeneratedPart g m l t d)
    {name : String} (hname : name ∈ t.interfaces) (hb : b ∈ d.baseList)
    (htext : b.text = l.shorten name) :
    after.DenotesInterface (d, b) := by
  obtain ⟨_, _, _, _, hbuilt⟩ := CodeModel.exists_built h.build
  obtain ⟨_, -, -, hd⟩ := hpart.outline
  obtain ⟨u, hu, hmixin, rfl⟩ := hbuilt.isMixinInterface_of_mem ht hname
  have hx : (u.interfaceName, DeclarationKind.interfaceType) ∈ u.derivable := by
    simp [Model.derivable, hmixin]
  have hidentifier := h.isIdentifier_of_mem hu (mem_generated_of_derivable hx _)
  rw [l.shorten_of_isWord (isWord_of_isIdentifier hidentifier)] at htext
  obtain ⟨s, hs, -, hkind⟩ := h.denoted_of_derivable hreads hleaves hu hx hd.enclosing
    hd.containing hd.name (hd.spelled b hb) htext
  exact ⟨s, hs, hkind⟩

/-- What the entries of the generated part are written for. -/
theorem exists_text
    (hpart : GeneratedPart g m l t d) (hb : b ∈ d.baseList) :
    (∃ base, t.baseClass = some base ∧ b.text = l.shorten base) ∨
      ∃ name ∈ t.interfaces, b.text = l.shorten name := by
  obtain ⟨_, -, -, hd⟩ := hpart.outline
  have hmem : b.text ∈ d.baseList.map (·.text) := List.mem_map_of_mem hb
  rw [hd.bases] at hmem
  obtain ⟨w, hw, htext⟩ := List.mem_map.1 hmem
  rcases List.mem_append.1 hw with hw | hw
  · exact .inl ⟨w, Option.mem_toList.1 hw, htext.symm⟩
  · exact .inr ⟨w, hw, htext.symm⟩

/-- The generated part names a base class that is not left to the code of users. -/
theorem exists_mem_baseList
    (hpart : GeneratedPart g m l t d) {base : String} (hbase : t.baseClass = some base) :
    ∃ b ∈ d.baseList, b.text = l.shorten base := by
  obtain ⟨_, -, -, hd⟩ := hpart.outline
  have hmem : l.shorten base ∈ d.baseList.map (·.text) := by
    simp [hd.bases, Layout.classOutline, hbase]
  obtain ⟨b, hb, htext⟩ := List.mem_map.1 hmem
  exact ⟨b, hb, htext⟩

/-! ## Parts in the code of users -/

end Generator.Pass

/-- What is read from the code of users about a class is about its parts. -/
structure CodeModel.FindsParts (m : CodeModel) (before : Compilation) (t : Model) : Prop where
  /-- The types with the name of the class, which are read, are the parts of the class. -/
  named : ∀ u ∈ before.units, u.isGenerated = false → ∀ d ∈ u.types,
    (d.isPartOf (m.fullName t.name) = true ↔
      FactReader.isModelDeclaration d = true ∧ Text.lowercase d.name = Text.lowercase t.name)
  /-- Files that a tool has written declare no part of it, its generated part aside. -/
  marked : ∀ u ∈ before.units, u.isGenerated = true → u.file ≠ fileName t.name →
    ∀ d ∈ u.types, d.isPartOf (m.fullName t.name) = false

instance (m : CodeModel) (before : Compilation) (t : Model) : Decidable (m.FindsParts before t) :=
  decidable_of_iff (_ ∧ _) ⟨fun ⟨hnamed, hmarked⟩ => ⟨hnamed, hmarked⟩, fun h => ⟨h.named, h.marked⟩⟩

/-- What the parts that users write are derived from is what it was taken for. -/
structure CodeModel.KeepsBases (m : CodeModel) (r : FactReader) (before after : Compilation)
    (t : Model) : Prop where
  interfaces : ∀ d ∈ FactReader.namedParts before t.name, ∀ x ∈ d.baseList.zipIdx,
    r.baseRole before d x.2 x.1 = .interface → after.DenotesInterface (d, x.1)
  classes : ∀ d ∈ FactReader.namedParts before t.name, ∀ x ∈ d.baseList.zipIdx,
    r.baseRole before d x.2 x.1 ≠ .interface → after.DenotesClass (d, x.1)
  /-- What is not taken for a base class of users' own is the base class of the generated part. -/
  generated : ∀ base ∈ t.baseClass, ∀ d ∈ FactReader.namedParts before t.name,
    ∀ x ∈ d.baseList.zipIdx, r.baseRole before d x.2 x.1 = .generatedBase →
      after.denoted (d, x.1) = after.symbol? (m.baseName base) 0

namespace Generator.Pass

variable {g : Generator} {schema : List ContentType} {sources : SourceFiles} {options : CodeOptions}
  {m : CodeModel} {out : GeneratedModels} {before after : Compilation} {l : Layout} {t : Model}
  {d : TypeDeclaration} {b : TypeName}

/-- What is read about a class is about the parts that users write. -/
theorem mem_userParts_iff
    (h : g.Pass schema sources options m out before after)
    (hreplaces : ReplacesGenerated g sources out) (hfinds : m.FindsParts before t) :
    d ∈ partsIn after.userUnits (m.fullName t.name) ↔ d ∈ FactReader.namedParts before t.name := by
  rw [FactReader.mem_namedParts, h.userUnits_eq hreplaces]
  unfold partsIn Compilation.userUnits FactReader.modelParts
  simp only [List.mem_flatMap, List.mem_filter, Bool.not_eq_true']
  constructor
  · rintro ⟨u, ⟨hu, hmark⟩, hd, hpart⟩
    obtain ⟨hmodel, hname⟩ := (hfinds.named u hu hmark d hd).1 hpart
    exact ⟨⟨u, ⟨hu, hmark⟩, hd, hmodel⟩, hname⟩
  · rintro ⟨⟨u, ⟨hu, hmark⟩, hd, hmodel⟩, hname⟩
    exact ⟨u, ⟨hu, hmark⟩, hd, (hfinds.named u hu hmark d hd).2 ⟨hmodel, hname⟩⟩

/-- The declarations that a pass reads are the facts in the code of users. -/
theorem exists_facts
    (h : g.Pass schema sources options m out before after)
    (hdeclarations : ∀ d ∈ g.declarations, d.isStructural = false) :
    ∃ ds, options = .ofDeclarations ds ∧
      ∀ d, d.isStructural = true → (d ∈ ds ↔ .ok d ∈ g.reader.findings before) := by
  obtain ⟨c, ds, hc, hoptions, hfacts⟩ := collect_structural h.collect hdeclarations
  obtain rfl : before = c := Except.ok.inj (h.before.symm.trans hc)
  exact ⟨ds, hoptions, hfacts⟩

/-- The constructor of a class is left out exactly if a part that users write has one. -/
theorem omitsConstructor_iff
    (h : g.Pass schema sources options m out before after)
    (hdeclarations : ∀ d ∈ g.declarations, d.isStructural = false) (ht : t ∈ m.models) :
    t.omitsConstructor = true ↔ ∃ d ∈ FactReader.namedParts before t.name,
      ∃ x ∈ d.members, g.reader.isModelConstructor x = true := by
  obtain ⟨ds, rfl, hfacts⟩ := h.exists_facts hdeclarations
  obtain ⟨_, _, _, _, hbuilt⟩ := CodeModel.exists_built h.build
  rw [hbuilt.omitsConstructor_eq ht, FactReader.hasConstructor_iff hfacts]

/-- The generated part has no base class exactly if users' parts have an entry taken for one. -/
theorem baseClass_eq_none_iff
    (h : g.Pass schema sources options m out before after) (hg : g.KeepsSettings)
    (ht : t ∈ m.models) :
    t.baseClass = none ↔ ∃ d ∈ FactReader.namedParts before t.name, ∃ x ∈ d.baseList.zipIdx,
      g.reader.baseRole before d x.2 x.1 = .declaredBase := by
  obtain ⟨ds, rfl, hfacts⟩ := h.exists_facts hg.declarations
  obtain ⟨_, _, _, _, hbuilt⟩ := CodeModel.exists_built h.build
  have hbase := hbuilt.isSome_baseClass hg.baseClass ht
  rw [← FactReader.baseClass?_iff hfacts, ← hbuilt.declaredBase_eq ht]
  cases ht : t.baseClass <;> cases hd : t.declaredBase <;> simp_all

/-- The generated part has the constructor unless a part that users write has it. -/
theorem countP_generatedPart
    (hg : g.KeepsSettings) (hreference : IsDotted (g.settings.referenceType t.type.kind))
    (hpart : GeneratedPart g m l t d) :
    d.members.countP g.reader.isModelConstructor = if t.omitsConstructor then 0 else 1 := by
  obtain ⟨reference, htext, hspelled, hd⟩ := hpart.outline
  rw [FactReader.countP_isModelConstructor, hd.constructors]
  unfold Layout.classOutline
  cases t.omitsConstructor with
  | true => rfl
  | false =>
    have hhead : g.reader.isModelHead ⟨["public"], [reference]⟩ = true := by
      unfold FactReader.isModelHead
      simp [hspelled.simpleName_eq htext hreference, hg.referenceTypes]
    simp [hhead]

/-- All parts together have one constructor of models if those of users have at most one. -/
theorem constructorCount_eq_one
    (h : g.Pass schema sources options m out before after) (hg : g.KeepsSettings)
    (hreference : IsDotted (g.settings.referenceType t.type.kind)) (ht : t ∈ m.models)
    (hpart : GeneratedPart g m l t d) {front back : List TypeDeclaration}
    (hmem : ∀ e, e ∈ front ++ back ↔ e ∈ FactReader.namedParts before t.name)
    (hone : g.reader.constructorCount (front ++ back) ≤ 1) :
    g.reader.constructorCount (front ++ d :: back) = 1 := by
  have homits : t.omitsConstructor = true ↔ 0 < g.reader.constructorCount (front ++ back) := by
    rw [h.omitsConstructor_iff hg.declarations ht, FactReader.constructorCount_pos_iff]
    simp only [hmem]
  rw [FactReader.constructorCount_append] at hone homits
  rw [FactReader.constructorCount_append, FactReader.constructorCount_cons,
    countP_generatedPart hg hreference hpart]
  cases hconstructor : t.omitsConstructor with
  | true =>
    have hpos := homits.1 hconstructor
    simp only [if_true]
    omega
  | false =>
    have hnone : ¬ 0 < g.reader.constructorCount front + g.reader.constructorCount back := by
      rw [← homits, hconstructor]
      decide
    simp only [Bool.false_eq_true, if_false]
    omega

/-- An entry of a part that users write has been read in some role. -/
theorem exists_role
    (hkeeps : m.KeepsBases g.reader before after t) (hd : d ∈ FactReader.namedParts before t.name)
    (hb : b ∈ d.baseList) :
    after.DenotesInterface (d, b) ∨ after.DenotesClass (d, b) ∧
      ((∃ x ∈ d.baseList.zipIdx, g.reader.baseRole before d x.2 x.1 = .declaredBase) ∨
        ∀ base, t.baseClass = some base →
          after.denoted (d, b) = after.symbol? (m.baseName base) 0) := by
  obtain ⟨i, hi⟩ := List.mem_iff_getElem?.1 hb
  have hx : (b, i) ∈ d.baseList.zipIdx := List.mk_mem_zipIdx_iff_getElem?.2 hi
  cases hrole : g.reader.baseRole before d i b with
  | interface => exact .inl (hkeeps.interfaces d hd (b, i) hx hrole)
  | declaredBase =>
    have hclass := hkeeps.classes d hd (b, i) hx (by simp [hrole])
    exact .inr ⟨hclass, .inl ⟨(b, i), hx, hrole⟩⟩
  | generatedBase =>
    have hclass := hkeeps.classes d hd (b, i) hx (by simp [hrole])
    exact .inr ⟨hclass, .inr fun base hbase => hkeeps.generated base hbase d hd (b, i) hx hrole⟩

/-- All parts together are derived from one class if those of users agree on it. -/
theorem exists_base
    (h : g.Pass schema sources options m out before after) (hg : g.KeepsSettings)
    (hreads : ReadsBack g m l) (ht : t ∈ m.models) (hleaves : m.LeavesNames before t)
    (hbases : m.NamesBases before l t) (hkeeps : m.KeepsBases g.reader before after t)
    (hpart : GeneratedPart g m l t d)
    (hagree : ∀ x ∈ FactReader.namedParts before t.name, ∀ b ∈ x.baseList,
      ∀ y ∈ FactReader.namedParts before t.name, ∀ c ∈ y.baseList,
        ¬ after.DenotesInterface (x, b) → ¬ after.DenotesInterface (y, c) →
          after.denoted (x, b) = after.denoted (y, c)) :
    ∃ s : Symbol, s.kind = .classType ∧
      (∃ e, (e = d ∨ e ∈ FactReader.namedParts before t.name) ∧
        ∃ b ∈ e.baseList, after.denoted (e, b) = some s) ∧
      ∀ e, e = d ∨ e ∈ FactReader.namedParts before t.name → ∀ b ∈ e.baseList,
        after.DenotesInterface (e, b) ∨ after.denoted (e, b) = some s := by
  cases hbase : t.baseClass with
  | none =>
    -- The base class is left to a part that users write, and the others agree with it.
    obtain ⟨e, he, ⟨b, i⟩, hx, hrole⟩ := (h.baseClass_eq_none_iff hg ht).1 hbase
    have hb : b ∈ e.baseList := List.mem_of_getElem? (List.mk_mem_zipIdx_iff_getElem?.1 hx)
    have hclass := hkeeps.classes e he (b, i) hx (by simp [hrole])
    obtain ⟨s, hs, hkind⟩ := hclass
    refine ⟨s, hkind, ⟨e, .inr he, b, hb, hs⟩, ?_⟩
    rintro e' (rfl | he') b' hb'
    · rcases exists_text hpart hb' with ⟨base, hsome, -⟩ | ⟨name, hname, htext⟩
      · cases hbase.symm.trans hsome
      · exact .inl (h.denotesInterface_of_mem_interfaces hreads hleaves ht hpart hname hb' htext)
    · refine (exists_role hkeeps he' hb').imp_right ?_
      rintro ⟨hclass', -⟩
      rw [← hs]
      exact hagree e' he' b' hb' e he b hb hclass'.not_denotesInterface
        (Compilation.DenotesClass.not_denotesInterface ⟨s, hs, hkind⟩)
  | some base =>
    -- No entry of users' parts is taken for a base class, so the generated part has it.
    have hundeclared : ∀ e ∈ FactReader.namedParts before t.name, ∀ x ∈ e.baseList.zipIdx,
        g.reader.baseRole before e x.2 x.1 ≠ .declaredBase := by
      intro e he x hx hrole
      cases hbase.symm.trans ((h.baseClass_eq_none_iff hg ht).2 ⟨e, he, x, hx, hrole⟩)
    obtain ⟨b, hb, htext⟩ := exists_mem_baseList hpart hbase
    obtain ⟨s, hs, hsymbol, hkind⟩ :=
      h.denoted_of_baseClass hreads hleaves hbases hpart hbase hb htext
    refine ⟨s, hkind, ⟨d, .inl rfl, b, hb, hs⟩, ?_⟩
    rintro e' (rfl | he') b' hb'
    · rcases exists_text hpart hb' with ⟨base', hsome, htext'⟩ | ⟨name, hname, htext'⟩
      · cases hbase.symm.trans hsome
        obtain ⟨s', hs', hsymbol', -⟩ :=
          h.denoted_of_baseClass hreads hleaves hbases hpart hbase hb' htext'
        exact .inr (hs'.trans (hsymbol'.symm.trans hsymbol))
      · exact .inl (h.denotesInterface_of_mem_interfaces hreads hleaves ht hpart hname hb' htext')
    · refine (exists_role hkeeps he' hb').imp_right ?_
      rintro ⟨-, ⟨x, hx, hrole⟩ | hsame⟩
      · exact absurd hrole (hundeclared e' he' x hx)
      · rw [hsame base hbase, hsymbol]

/-- The name of a class that users declare next to the models denotes it in their classes. -/
theorem denoted_of_declared
    (h : g.Pass schema sources options m out before after) (hreads : ReadsBack g m l)
    (hreplaces : ReplacesGenerated g sources out) {w : String}
    (hungenerated : ∀ u ∈ m.models,
      w ∉ TypeNames.generated l.settings.propertyStyle u.toNamedType)
    (hdeclared : partsIn before.userUnits (m.fullName w) ≠ [])
    (hkind : ∀ e ∈ before.declaredTypes, e.isPartOf (m.fullName w) = true → e.kind = .classType)
    (hnested : before.symbol? (".".intercalate [m.modelsNamespace, d.name, w]) 0 = none)
    (henclosing : d.enclosing = m.modelsNamespace) (hcontaining : d.containing = []) :
    ∃ s, after.denoted (d, wordType w) = some s ∧ after.symbol? (m.fullName w) 0 = some s ∧
      s.kind = .classType := by
  obtain ⟨e, he⟩ := List.exists_mem_of_ne_nil _ hdeclared
  rw [← h.userUnits_eq hreplaces] at he
  obtain ⟨u, hu, he⟩ := List.mem_flatMap.1 he
  obtain ⟨he, hpart⟩ := List.mem_filter.1 he
  unfold TypeDeclaration.isPartOf at hpart
  rw [Bool.and_eq_true, beq_iff_eq, beq_iff_eq] at hpart
  have hdeclared' : e ∈ after.declaredTypes :=
    List.mem_flatMap.2 ⟨u, (List.mem_filter.1 hu).1, he⟩
  obtain ⟨s, hs, hclass⟩ := Compilation.exists_symbol h.after ⟨e, hdeclared', hpart⟩
    fun e' he' hfull harity => by
      rcases h.of_mem_declaredTypes hreads he' with hbefore | ⟨v, hv, hdeclares⟩
      · exact hkind e' hbefore (by simp [TypeDeclaration.isPartOf, hfull, harity])
      · rw [hdeclares.fullName_eq hreads.modelsNamespace, CodeModel.fullName_inj] at hfull
        exact absurd (hfull ▸ hdeclares.name_mem) (hungenerated v hv)
  exact ⟨s, h.denoted_of_symbol hreads hs hnested henclosing hcontaining, hs, hclass⟩

/-! ## Parts derived from one class -/

/-- The parts that users write of a class are derived from a class that they declare next to it. -/
structure DerivesFrom (g : Generator) (m : CodeModel) (before : Compilation) (l : Layout) (t : Model)
    (w : String) : Prop where
  parts : ∀ d ∈ FactReader.namedParts before t.name,
    d.enclosing = m.modelsNamespace ∧ d.containing = [] ∧
      before.symbol? (".".intercalate [m.modelsNamespace, d.name, w]) 0 = none ∧
        ∀ x ∈ d.baseList.zipIdx, x.1 = wordType w ∧
          g.reader.baseRole before d x.2 x.1 = .declaredBase
  ungenerated : ∀ u ∈ m.models,
    w ∉ TypeNames.generated l.settings.propertyStyle u.toNamedType
  declared : partsIn before.userUnits (m.fullName w) ≠ []
  kinds : ∀ e ∈ before.declaredTypes, e.isPartOf (m.fullName w) = true → e.kind = .classType
  entries : (baseEntries (partsIn before.userUnits (m.fullName t.name))).length ≤ 1
  constructor : g.reader.constructorCount (partsIn before.userUnits (m.fullName t.name)) ≤ 1

instance (g : Generator) (m : CodeModel) (before : Compilation) (l : Layout) (t : Model) (w : String) :
    Decidable (DerivesFrom g m before l t w) :=
  decidable_of_iff (_ ∧ _ ∧ _ ∧ _ ∧ _ ∧ _)
    ⟨fun ⟨hparts, hungenerated, hdeclared, hkinds, hentries, hconstructor⟩ =>
      ⟨hparts, hungenerated, hdeclared, hkinds, hentries, hconstructor⟩,
    fun h => ⟨h.parts, h.ungenerated, h.declared, h.kinds, h.entries, h.constructor⟩⟩

/-- What the parts are derived from is a class still. -/
theorem DerivesFrom.keepsBases
    {w : String} (hderives : DerivesFrom g m before l t w)
    (h : g.Pass schema sources options m out before after) (hreads : ReadsBack g m l)
    (hreplaces : ReplacesGenerated g sources out) :
    m.KeepsBases g.reader before after t where
  interfaces d hd x hx hrole := by
    rw [((hderives.parts d hd).2.2.2 x hx).2] at hrole
    cases hrole
  classes d hd x hx _ := by
    obtain ⟨henclosing, hcontaining, hnested, hentries⟩ := hderives.parts d hd
    obtain ⟨s, hs, -, hkind⟩ := h.denoted_of_declared hreads hreplaces hderives.ungenerated
      hderives.declared hderives.kinds hnested henclosing hcontaining
    rw [(hentries x hx).1]
    exact ⟨s, hs, hkind⟩
  generated _ _ d hd x hx hrole := by
    rw [((hderives.parts d hd).2.2.2 x hx).2] at hrole
    cases hrole

theorem DerivesFrom.partsAgree
    {w : String} (hderives : DerivesFrom g m before l t w)
    (h : g.Pass schema sources options m out before after)
    (hreplaces : ReplacesGenerated g sources out) :
    g.reader.PartsAgree after (m.fullName t.name) := by
  have hentries := hderives.entries
  have hconstructor := hderives.constructor
  rw [← h.userUnits_eq hreplaces] at hentries hconstructor
  refine ⟨fun x hx y hy _ _ => ?_, hconstructor⟩
  obtain ⟨e, he⟩ : ∃ e, baseEntries (partsIn after.userUnits (m.fullName t.name)) = [e] :=
    List.length_eq_one_iff.1 (Nat.le_antisymm hentries (List.length_pos_of_mem hx))
  rw [he] at hx hy
  rw [List.mem_singleton.1 hx, List.mem_singleton.1 hy]

/-! ## Results -/

/-- Code by which pages have a base class of their own and a constructor. -/
def derivedSources : SourceFiles :=
  .ofList [("Page.cs", "namespace Umbraco.Web.PublishedModels \x7b " ++
    "public partial class Base \x7b \x7d " ++
    "public partial class Page : Base \x7b public Page(IPublishedContent content) \x7b \x7d \x7d \x7d")]

/-- A content type for pages, without properties. -/
def barePageSchema : List ContentType :=
  [⟨1, "page", none, .content, "Page", none, .nothing, [], []⟩]

/-- Code by which pages of another namespace have a base class of their own and a constructor. -/
def elsewhereSources : SourceFiles :=
  .ofList [("Page.cs", "namespace Other \x7b public partial class Base \x7b \x7d " ++
    "public partial class Page : Base \x7b public Page(IPublishedContent c) \x7b \x7d \x7d \x7d")]

end Generator.Pass
end ContentModels

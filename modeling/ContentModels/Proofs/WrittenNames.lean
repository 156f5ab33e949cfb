import ContentModels.Proofs.PartsFit

/-!
# Type names without their namespaces

A configured type is written without its namespace if generated files use the namespace.  What is
written is looked up where it stands, so that it denotes the type only if nothing is met before:
no type in the declaration, none next to it or in a namespace around it, and none in a namespace
that is used earlier.  Without code of users what may be met are the generated types and those of
the references, and the name keeps its meaning exactly if none of them is met (`writtenNames`).

Nothing checks this.  The class for the alias `publishedContentModel` is next to itself, and so is
its own base class.
-/

namespace ContentModels

open CSharp CSharp.Parse Generated Outcome

/-! ## The first name that denotes something -/

namespace CSharp

namespace Compilation

variable {c : Compilation} {fullName : String}

/-- The first of some full names that denotes something is a given one if those before do not. -/
theorem findSome?_symbol?_iff
    {xs : List (String × Nat)} (hmem : (fullName, 0) ∈ xs) (harity : ∀ x ∈ xs, x.2 = 0)
    (hs : c.symbol? fullName 0 ≠ none) :
    (xs.findSome? fun x => c.symbol? x.1 x.2).map (·.fullName) = some fullName ↔
      ∀ x ∈ xs.takeWhile (·.1 != fullName), c.symbol? x.1 0 = none := by
  induction xs with
  | nil => cases hmem
  | cons x xs ih =>
    obtain ⟨hx, hxs⟩ := List.forall_mem_cons.1 harity
    by_cases hname : x.1 = fullName
    · obtain ⟨s, hs⟩ := Option.ne_none_iff_exists'.1 hs
      rw [List.takeWhile_cons_of_neg (by simp [hname]), List.findSome?_cons, hname, hx, hs]
      exact iff_of_true (congrArg some (fullName_of_symbol? hs)) nofun
    · have hmem : (fullName, 0) ∈ xs :=
        (List.mem_cons.1 hmem).resolve_left fun heq => hname (congrArg Prod.fst heq).symm
      rw [List.takeWhile_cons_of_pos (by simp [hname]), List.forall_mem_cons, List.findSome?_cons, hx]
      cases hfind : c.symbol? x.1 0 with
      | none =>
        rw [← ih hmem hxs]
        exact (and_iff_right rfl).symm
      | some s =>
        refine iff_of_false (fun heq => hname ?_) (by simp)
        rw [← fullName_of_symbol? hfind]
        exact Option.some.inj heq

end Compilation

/-- Where directives only use namespaces, all that a name may denote has as many type parameters. -/
theorem Scope.arity_of_usesOnly
    {s : Scope} {usings : List String} (h : UsesOnly usings s.usings) {name : TypeName}
    {x : String × Nat} (hx : x ∈ s.candidates name) :
    x.2 = name.arity := by
  unfold candidates at hx
  split at hx
  · cases hx
  · simp only [aliasTarget?_of_usesOnly h] at hx
    split at hx
    · exact congrArg Prod.snd (List.mem_singleton.1 hx)
    · split at hx <;> simp only [List.mem_append, List.mem_map] at hx
      · rcases hx with ⟨_, -, rfl⟩ | ⟨_, -, rfl⟩ <;> rfl
      · obtain ⟨_, -, rfl⟩ := hx
        rfl

end CSharp

/-! ## Generated and referenced types -/

/-- The references have a type without type parameters under a full name. -/
def FactReader.Refers (r : FactReader) (fullName : String) : Prop :=
  ∃ a ∈ r.references, ∃ t ∈ a.types, t.fullName = fullName ∧ t.arity = 0

instance (r : FactReader) (fullName : String) : Decidable (r.Refers fullName) :=
  inferInstanceAs (Decidable (∃ a ∈ r.references, ∃ t ∈ a.types, _))

/-- A full name denotes what is declared under it, or else what the references have. -/
theorem CSharp.Compilation.symbol?_eq_none_iff
    {r : FactReader} {sources : SourceFiles} {c : Compilation} (h : r.compile sources = .ok c)
    {fullName : String} :
    c.symbol? fullName 0 = none ↔
      (∀ d ∈ c.declaredTypes, d.arity = 0 → d.fullName ≠ fullName) ∧ ¬ r.Refers fullName := by
  unfold symbol?
  rw [symbols_of_compile h, List.find?_append, Option.or_eq_none_iff, List.find?_eq_none,
    List.find?_eq_none]
  refine and_congr ?_ ?_
  · rw [List.forall_mem_map]
    simp [Symbol.ofDeclaration]
  · unfold FactReader.Refers
    simp only [List.mem_reverse, List.mem_flatMap, Symbol.ofAssembly, List.mem_map]
    constructor
    · rintro hnone ⟨a, ha, t, ht, hname, harity⟩
      exact hnone _ ⟨a, ha, t, ht, rfl⟩ (by simp [hname, harity])
    · rintro hnone _ ⟨a, ha, t, ht, rfl⟩ hsome
      rw [Bool.and_eq_true, beq_iff_eq, beq_iff_eq] at hsome
      exact hnone ⟨a, ha, t, ht, hsome.2, hsome.1⟩

/-- The full names that what is written for a type is tried as before the type, in a declaration. -/
def CodeModel.triedBefore (m : CodeModel) (l : Layout) (declaration fullName : String) :
    List String :=
  (((Scope.mk m.modelsNamespace [declaration] (usingDirectives l.usings)).candidates
    (dottedType (l.shorten fullName))).map (·.1)).takeWhile (· != fullName)

/-- What is written for a type in a declaration is not the name of another type. -/
def CodeModel.KeepsName (m : CodeModel) (r : FactReader) (l : Layout) (declaration fullName : String) :
    Prop :=
  ∀ name ∈ m.triedBefore l declaration fullName,
    ¬ m.Generates l.settings.propertyStyle name ∧ ¬ r.Refers name

instance (m : CodeModel) (r : FactReader) (l : Layout) (declaration fullName : String) :
    Decidable (m.KeepsName r l declaration fullName) :=
  inferInstanceAs (Decidable (∀ name ∈ m.triedBefore l declaration fullName, _))

/-! ## What generated files declare -/

/-- Each generated type of a model has an outline. -/
theorem Generated.Layout.exists_outline
    {l : Layout} {t : Model} {name : String} (reference : TypeName)
    (h : name ∈ TypeNames.generated l.settings.propertyStyle t.toNamedType) :
    ∃ o ∈ l.outlines reference t, o.name = name := by
  unfold TypeNames.generated at h
  unfold outlines
  rcases List.mem_append.1 h with h | h
  · rcases List.mem_append.1 h with h | h
    · obtain rfl := List.mem_singleton.1 h
      exact ⟨l.classOutline reference t, by simp [classOutline], rfl⟩
    · split at h
      · rename_i hmixin
        obtain rfl := List.mem_singleton.1 h
        exact ⟨⟨.interfaceType, ["public", "partial"], t.interfaceName,
          t.interfaceBases.map l.shorten, []⟩, by simp [hmixin], rfl⟩
      · cases h
  · split at h
    · rename_i hstyle
      obtain rfl := List.mem_singleton.1 h
      exact ⟨⟨.classType, ["public", "static", "partial"], t.extensionsName, [], []⟩,
        by simp [hstyle], rfl⟩
    · cases h

namespace Generator.Pass

variable {g : Generator} {schema : List ContentType} {sources : SourceFiles} {options : CodeOptions}
  {m : CodeModel} {out : GeneratedModels} {before after : Compilation} {l : Layout} {t : Model}
  {d : TypeDeclaration} {b : TypeName} {fullName : String}

/-- Each outline of a model is that of a declaration, which stands behind the namespaces used. -/
theorem exists_described
    (h : g.Pass schema sources options m out before after) (hreads : ReadsBack g m l)
    (ht : t ∈ m.models) :
    ∃ reference : TypeName,
      reference.text = l.shorten (g.settings.referenceType t.type.kind) ∧ IsSpelled reference ∧
        ∀ o ∈ l.outlines reference t, ∃ d ∈ after.declaredTypes,
          o.Describes m.modelsNamespace d ∧ UsesOnly l.usings d.usings := by
  obtain ⟨u, hu, -, -, reference, htext, hspelled, htypes, husings⟩ :=
    h.exists_generated hreads.layout ht (hreads.texts t ht)
  refine ⟨reference, htext, hspelled, fun o ho => ?_⟩
  obtain ⟨d, hd, hdescribes⟩ := exists_of_mem_right htypes.flip ho
  exact ⟨d, List.mem_flatMap.2 ⟨u, hu, hd⟩, hdescribes, husings d hd⟩

theorem units_of_empty
    (h : g.Pass schema .empty options m out before after) :
    before.units = [] := by
  obtain ⟨hunits, -⟩ := FactReader.compile_eq_ok_iff.1 h.before
  exact (Except.ok.inj hunits).symm

/-- Without code of users, what there is to denote is generated or referenced. -/
theorem symbol?_eq_none_iff_of_empty
    (h : g.Pass schema .empty options m out before after) (hreads : ReadsBack g m l) :
    after.symbol? fullName 0 = none ↔
      ¬ m.Generates l.settings.propertyStyle fullName ∧ ¬ g.reader.Refers fullName := by
  have hempty : before.declaredTypes = [] := by
    rw [Compilation.declaredTypes, h.units_of_empty]
    rfl
  rw [Compilation.symbol?_eq_none_iff h.after]
  refine and_congr_left fun _ => ⟨fun hnone => ?_, fun hnone d hd _ hname => hnone ?_⟩
  · rintro ⟨t, ht, name, hname, rfl⟩
    obtain ⟨reference, -, -, hdescribed⟩ := h.exists_described hreads ht
    obtain ⟨o, ho, rfl⟩ := Layout.exists_outline reference hname
    obtain ⟨d, hd, hdescribes, -⟩ := hdescribed o ho
    refine hnone d hd hdescribes.arity ?_
    rw [hdescribes.fullName_eq hreads.modelsNamespace, hdescribes.name]
  · rcases h.of_mem_declaredTypes hreads hd with hbefore | ⟨t, ht, hdeclares⟩
    · rw [hempty] at hbefore
      cases hbefore
    · exact hname ▸ hdeclares.generates ht hreads.modelsNamespace

/-- What is written for a type in a declaration denotes the type exactly if it keeps its name. -/
theorem denotes_iff_keepsName
    (h : g.Pass schema .empty options m out before after) (hreads : ReadsBack g m l)
    {o : TypeOutline} (hd : o.Describes m.modelsNamespace d) (husings : UsesOnly l.usings d.usings)
    (hb : IsSpelled b) (htext : b.text = l.shorten fullName) (hdotted : IsDotted fullName)
    (hrefers : g.reader.Refers fullName) :
    (after.resolve b (.ofType d)).map (·.fullName) = some fullName ↔
      m.KeepsName g.reader l d.name fullName := by
  have hwritten : b = dottedType (l.shorten fullName) := by
    rw [hb.eq_dottedType (htext ▸ Layout.isDotted_shorten hdotted), htext]
  have hsymbol : after.symbol? fullName 0 ≠ none := fun hnone =>
    ((h.symbol?_eq_none_iff_of_empty hreads).1 hnone).2 hrefers
  have hcandidates : (Scope.ofType d).candidates b =
      (Scope.mk m.modelsNamespace [d.name] (usingDirectives l.usings)).candidates b := by
    rw [Scope.candidates_of_usesOnly husings hreads.usings]
    unfold Scope.ofType TypeDeclaration.path
    rw [hd.enclosing, hd.containing]
    rfl
  have hmem : (fullName, 0) ∈ (Scope.ofType d).candidates b :=
    hwritten ▸ Scope.mem_candidates_shorten husings hdotted
  have harity : ∀ x ∈ (Scope.ofType d).candidates b, x.2 = 0 := by
    rw [hwritten]
    exact fun x hx => Scope.arity_of_usesOnly husings hx
  unfold Compilation.resolve
  rw [Compilation.findSome?_symbol?_iff hmem harity hsymbol, hcandidates, hwritten]
  unfold CodeModel.KeepsName CodeModel.triedBefore
  rw [List.takeWhile_map, List.forall_mem_map]
  simp only [h.symbol?_eq_none_iff_of_empty hreads]
  rfl

/-! ## Classes without code of users -/

/-- Without code of users each class has its constructor. -/
theorem omitsConstructor_of_empty
    (h : g.Pass schema .empty options m out before after) (hg : g.KeepsSettings)
    (ht : t ∈ m.models) :
    t.omitsConstructor = false := by
  have hiff := h.omitsConstructor_iff hg.declarations ht
  unfold FactReader.namedParts FactReader.modelParts at hiff
  rw [h.units_of_empty] at hiff
  simpa using hiff

/-- Without code of users a class is derived from that of its parent, or from what is configured. -/
theorem baseClass_of_empty
    (h : g.Pass schema .empty options m out before after) (hg : g.KeepsSettings)
    (ht : t ∈ m.models) (hroot : t.parent = none) :
    t.baseClass = BaseClassQuery.standard ⟨t.type, none, none, options.modelsBaseClass, g.settings⟩ := by
  obtain ⟨linked, named, mapped, propertied, hbuilt⟩ := CodeModel.exists_built h.build
  have hdeclared : t.declaredBase = none := by
    obtain ⟨ds, rfl, hfacts⟩ := h.exists_facts hg.declarations
    have hiff := @FactReader.baseClass?_iff g.reader before ds t.name hfacts
    unfold FactReader.namedParts FactReader.modelParts at hiff
    rw [h.units_of_empty] at hiff
    rw [hbuilt.declaredBase_eq ht]
    simpa using hiff
  obtain ⟨i, hi⟩ := List.mem_iff_getElem?.1 ht
  obtain ⟨-, heq⟩ := hbuilt.model_eq hi
  have hbase := congrArg Model.baseClass heq
  have hquery : t.declaredBase = _ := congrArg Model.declaredBase heq
  rw [hdeclared] at hquery
  simp only [Inheritance.complete, CodeModel.planOf] at hbase hquery
  rw [hbase, hg.baseClass, ← hquery, hroot]
  rfl

/-- An interface without a parent and mixins extends what is configured. -/
theorem interfaceBases_of_root
    (h : g.Pass schema sources options m out before after) (ht : t ∈ m.models)
    (hmixin : t.isMixin = true) (hroot : t.parent = none) (hmixins : t.mixins = []) :
    t.interfaceBases = [g.settings.baseInterface t.type.kind] := by
  obtain ⟨linked, named, mapped, propertied, hbuilt⟩ := CodeModel.exists_built h.build
  obtain ⟨i, hi⟩ := List.mem_iff_getElem?.1 ht
  obtain ⟨-, heq⟩ := hbuilt.model_eq hi
  have hbases := congrArg Model.interfaceBases heq
  simp only [Inheritance.complete, CodeModel.planOf, hmixin, if_true] at hbases
  rw [hbases, Inheritance.interfaceBases_eq]
  simp [Inheritance.mixinInterfaces, Inheritance.parentInterface, hroot, hmixins]

end Generator.Pass

/-! ## Written names -/

namespace Generator

/-- What is written for a type in a declaration, and that it denotes it exactly if it keeps its name. -/
structure Writes (g : Generator) (m : CodeModel) (l : Layout) (after : Compilation)
    (d : TypeDeclaration) (fullName : String) (b : TypeName) : Prop where
  text : b.text = l.shorten fullName
  denotes : IsDotted fullName → g.reader.Refers fullName →
    ((after.resolve b (.ofType d)).map (·.fullName) = some fullName ↔
      m.KeepsName g.reader l d.name fullName)

/-- What is written for the types that a model refers to. -/
structure WritesNames (g : Generator) (options : CodeOptions) (m : CodeModel) (l : Layout)
    (after : Compilation) (t : Model) : Prop where
  /-- A class that has no parent is derived from what is configured. -/
  root : t.parent = none →
    t.baseClass = BaseClassQuery.standard ⟨t.type, none, none, options.modelsBaseClass, g.settings⟩
  classPart : ∃ d ∈ after.declaredTypes,
    d.name = t.name ∧ d.fullName = m.fullName t.name ∧ d.kind = .classType ∧
      (∀ base ∈ t.baseClass, ∃ b ∈ d.baseList, g.Writes m l after d base b) ∧
        ∃ b, constructorHeads d.members = [⟨["public"], [b]⟩] ∧
          g.Writes m l after d (g.settings.referenceType t.type.kind) b
  /-- An interface that has no parent and no mixins extends what is configured. -/
  rootInterface : t.isMixin = true → t.parent = none → t.mixins = [] →
    t.interfaceBases = [g.settings.baseInterface t.type.kind]
  interfacePart : t.isMixin = true → ∃ d ∈ after.declaredTypes,
    d.name = t.interfaceName ∧ d.fullName = m.fullName t.interfaceName ∧ d.kind = .interfaceType ∧
      ∀ base ∈ t.interfaceBases, ∃ b ∈ d.baseList, g.Writes m l after d base b

variable {g : Generator} {schema : List ContentType} {options : CodeOptions} {m : CodeModel}
  {out : GeneratedModels} {before after : Compilation} {l : Layout} {t : Model}

/-- Each base of an outline is written in its declaration. -/
theorem Pass.exists_writes
    (h : g.Pass schema .empty options m out before after) (hreads : Pass.ReadsBack g m l)
    {o : TypeOutline} {d : TypeDeclaration} (hd : o.Describes m.modelsNamespace d)
    (husings : UsesOnly l.usings d.usings) {base : String} (hbase : l.shorten base ∈ o.bases) :
    ∃ b ∈ d.baseList, g.Writes m l after d base b := by
  rw [← hd.bases] at hbase
  obtain ⟨b, hb, htext⟩ := List.mem_map.1 hbase
  exact ⟨b, hb, htext, h.denotes_iff_keepsName hreads hd husings (hd.spelled b hb) htext⟩

/--
Without code of users, what is written for the base class of a class, for the type that its
constructor takes, and for the bases of its interface, denotes these types exactly if no generated
or referenced type has one of the names that are tried before.
-/
theorem writtenNames
    (h : g.Pass schema .empty options m out before after) (hg : g.KeepsSettings)
    (hreadable : Pass.IsReadable g schema options m)
    (hl : Layout.ofSettings g.settings m.usingNamespaces = .ok l) :
    ∀ t ∈ m.models, g.WritesNames options m l after t := by
  intro t ht
  have hreads := h.readsBack hg hreadable hl
  obtain ⟨reference, htext, hspelled, hdescribed⟩ := h.exists_described hreads ht
  refine ⟨fun hroot => h.baseClass_of_empty hg ht hroot, ?_, h.interfaceBases_of_root ht,
    fun hmixin => ?_⟩
  · obtain ⟨d, hd, hdescribes, husings⟩ :=
      hdescribed (l.classOutline reference t) (by simp [Layout.outlines, Layout.classOutline])
    refine ⟨d, hd, hdescribes.name, ?_, hdescribes.kind, fun base hbase => ?_, reference, ?_, htext, ?_⟩
    · rw [hdescribes.fullName_eq hreads.modelsNamespace, hdescribes.name]
      rfl
    · refine h.exists_writes hreads hdescribes husings ?_
      simp [Layout.classOutline, Option.mem_def.1 hbase]
    · rw [hdescribes.constructors]
      simp [Layout.classOutline, h.omitsConstructor_of_empty hg ht]
    · exact h.denotes_iff_keepsName hreads hdescribes husings hspelled htext
  · obtain ⟨d, hd, hdescribes, husings⟩ := hdescribed
      ⟨.interfaceType, ["public", "partial"], t.interfaceName, t.interfaceBases.map l.shorten, []⟩
      (by simp [Layout.outlines, hmixin])
    refine ⟨d, hd, hdescribes.name, ?_, hdescribes.kind, fun base hbase => ?_⟩
    · rw [hdescribes.fullName_eq hreads.modelsNamespace, hdescribes.name]
    · exact h.exists_writes hreads hdescribes husings (List.mem_map_of_mem hbase)

/-- A content type whose class has the simple name of the base class that is configured for it. -/
def capturedSchema : List ContentType :=
  [CodeModel.typeWith 1 "publishedContentModel" none []]

theorem isOneLine_capturedSchema :
    ∀ t ∈ capturedSchema, t.IsOneLine := by
  decide +kernel

/-- The class is not derived from what is configured, and its constructor takes what is configured. -/
theorem writtenNames_captured :
    ∃ (g : Generator) (out : GeneratedModels) (after : Compilation) (d : TypeDeclaration)
      (base reference : TypeName), g.generate capturedSchema .empty = .ok out ∧
        g.reader.compile (out.addTo .empty) = .ok after ∧ d ∈ after.declaredTypes ∧
        base ∈ d.baseList ∧ base.text = "PublishedContentModel" ∧
        (after.resolve base (.ofType d)).map (·.fullName) ≠ some g.settings.contentBaseClass ∧
        constructorHeads d.members = [⟨["public"], [reference]⟩] ∧
        (after.resolve reference (.ofType d)).map (·.fullName) =
          some g.settings.contentReferenceType := by
  obtain ⟨g, options, m, before, l, h, hshape⟩ := @exists_prepared capturedSchema .empty
    (fun g options m _ l => decide (∃ t ∈ m.models,
      (t.type.kind = .content ∧ t.parent = none ∧ options.modelsBaseClass = none) ∧
      l.shorten g.settings.contentBaseClass = "PublishedContentModel" ∧
      (IsDotted g.settings.contentBaseClass ∧ g.reader.Refers g.settings.contentBaseClass) ∧
      (IsDotted g.settings.contentReferenceType ∧ g.reader.Refers g.settings.contentReferenceType) ∧
      ¬ m.KeepsName g.reader l t.name g.settings.contentBaseClass ∧
      m.KeepsName g.reader l t.name g.settings.contentReferenceType))
    (by decide +kernel)
  obtain ⟨t, ht, ⟨hcontent, hroot, hmodels⟩, hshorten, ⟨hbase, hbaseRefers⟩,
    ⟨hreference, hreferenceRefers⟩, hcaptured, hkept⟩ := of_decide_eq_true hshape
  obtain ⟨out, after, hout, hpass⟩ := h.exists_pass isOneLine_capturedSchema
  have hwritten := writtenNames hpass h.keepsSettings (h.isReadable isOneLine_capturedSchema)
    h.ofSettings_layout t ht
  have hderived : t.baseClass = some g.settings.contentBaseClass := by
    rw [hwritten.root hroot]
    simp [BaseClassQuery.standard, hcontent, hmodels]
  have hparameter : g.settings.referenceType t.type.kind = g.settings.contentReferenceType := by
    rw [hcontent]
    rfl
  obtain ⟨d, hd, hname, -, -, hbases, reference, hheads, hreferenceWritten⟩ := hwritten.classPart
  obtain ⟨base, hmem, hbaseWritten⟩ := hbases _ hderived
  rw [hparameter] at hreferenceWritten
  refine ⟨g, out, after, d, base, reference, hout, hpass.after, hd, hmem,
    hbaseWritten.text.trans hshorten, fun hdenotes => hcaptured ?_, hheads, ?_⟩
  · rw [← hname]
    exact (hbaseWritten.denotes hbase hbaseRefers).1 hdenotes
  · rw [hreferenceWritten.denotes hreference hreferenceRefers, hname]
    exact hkept

end Generator
end ContentModels

import ContentModels.Proofs.CombinedFiles
import ContentModels.Proofs.Lookup

/-!
# Types that generated files add

The generated types have names of their own, so each of them is declared by the file of one
model, and only once.  What the code of users and the generated files declare together is
what they declare each.
-/

namespace ContentModels

open CSharp Generated Outcome

/-! ## Full names -/

namespace CodeModel

/-- The full name of a type in the namespace of the models. -/
def fullName (m : CodeModel) (name : String) : String :=
  ".".intercalate [m.modelsNamespace, name]

variable {m : CodeModel} {a b : String}

theorem fullName_eq
    (m : CodeModel) (name : String) :
    m.fullName name = m.modelsNamespace ++ "." ++ name :=
  rfl

theorem fullName_inj :
    m.fullName a = m.fullName b ↔ a = b := by
  rw [fullName_eq, fullName_eq, String.append_right_inj]

/-- No nested type has the name of one that is next to the type around it. -/
theorem nested_ne_fullName
    (w : String) (hb : '.' ∉ b.toList) :
    ".".intercalate [m.modelsNamespace, a, w] ≠ m.fullName b := by
  have hnested : ".".intercalate [m.modelsNamespace, a, w] =
      m.modelsNamespace ++ "." ++ (a ++ "." ++ w) := by
    simp
  rw [hnested, fullName_eq, Ne, String.append_right_inj]
  rintro rfl
  simp at hb

end CodeModel

/-- A full name is that of a generated type. -/
def CodeModel.Generates (m : CodeModel) (style : PropertyStyle) (fullName : String) : Prop :=
  ∃ t ∈ m.models, ∃ name ∈ TypeNames.generated style t.toNamedType, m.fullName name = fullName

instance (m : CodeModel) (style : PropertyStyle) (fullName : String) :
    Decidable (m.Generates style fullName) :=
  inferInstanceAs (Decidable (∃ t ∈ m.models, ∃ name ∈ TypeNames.generated style t.toNamedType, _))

/-- The full name of a type in a namespace. -/
theorem CSharp.TypeDeclaration.fullName_eq
    {d : TypeDeclaration} (henclosing : d.enclosing ≠ "") (hcontaining : d.containing = []) :
    d.fullName = ".".intercalate [d.enclosing, d.name] := by
  unfold fullName path
  rw [if_neg henclosing, hcontaining]
  rfl

/-! ## Declarations of generated types -/

namespace Generated.Layout

/-- A declaration is one of those that are generated for a model. -/
def Declares (l : Layout) (modelsNamespace : String) (t : Model) (d : TypeDeclaration) : Prop :=
  ∃ reference, ∃ o ∈ l.outlines reference t, o.Describes modelsNamespace d

variable {l : Layout} {modelsNamespace : String} {t : Model} {d : TypeDeclaration}

/-- A model has the interface of a mixin, a class, and the class of its extension methods. -/
theorem mem_outlines
    {reference : TypeName} {o : TypeOutline} (h : o ∈ l.outlines reference t) :
    (o.name = t.interfaceName ∧ o.kind = .interfaceType ∧ t.isMixin = true) ∨
      (o.name = t.name ∧ o.kind = .classType) ∨
        (o.name = t.extensionsName ∧ l.settings.propertyStyle.hasExtensionMethods = true) := by
  unfold outlines at h
  rcases List.mem_append.1 h with h | h
  · rcases List.mem_append.1 h with h | h
    · split at h
      · rename_i hmixin
        obtain rfl := List.mem_singleton.1 h
        exact .inl ⟨rfl, rfl, hmixin⟩
      · cases h
    · obtain rfl := List.mem_singleton.1 h
      exact .inr (.inl ⟨rfl, rfl⟩)
  · split at h
    · rename_i hstyle
      obtain rfl := List.mem_singleton.1 h
      exact .inr (.inr ⟨rfl, hstyle⟩)
    · cases h

namespace Declares

theorem name_mem
    (h : l.Declares modelsNamespace t d) :
    d.name ∈ TypeNames.generated l.settings.propertyStyle t.toNamedType := by
  obtain ⟨_, o, ho, hd⟩ := h
  rw [hd.name]
  unfold TypeNames.generated
  rcases mem_outlines ho with ⟨hname, -, hmixin⟩ | ⟨hname, -⟩ | ⟨hname, hstyle⟩
  · simp [hname, hmixin]
  · simp [hname]
  · simp [hname, hstyle]

/-- What has the name of the class is the class. -/
theorem kind_of_name
    (h : l.Declares modelsNamespace t d)
    (hnodup : (TypeNames.generated l.settings.propertyStyle t.toNamedType).Nodup)
    (hname : d.name = t.name) :
    d.kind = .classType := by
  obtain ⟨_, o, ho, hd⟩ := h
  rw [hd.name] at hname
  rw [hd.kind]
  unfold TypeNames.generated at hnodup
  rcases mem_outlines ho with ⟨hname', -, hmixin⟩ | ⟨-, hkind⟩ | ⟨hname', hstyle⟩
  · simp [hmixin, ← hname, ← hname'] at hnodup
  · exact hkind
  · simp [hstyle, ← hname, ← hname'] at hnodup

/-- What has the name of the interface is the interface. -/
theorem kind_of_interfaceName
    (h : l.Declares modelsNamespace t d)
    (hnodup : (TypeNames.generated l.settings.propertyStyle t.toNamedType).Nodup)
    (hmixin : t.isMixin = true) (hname : d.name = t.interfaceName) :
    d.kind = .interfaceType := by
  obtain ⟨_, o, ho, hd⟩ := h
  rw [hd.name] at hname
  rw [hd.kind]
  unfold TypeNames.generated at hnodup
  rcases mem_outlines ho with ⟨-, hkind, -⟩ | ⟨hname', -⟩ | ⟨hname', hstyle⟩
  · exact hkind
  · simp [hmixin, ← hname, ← hname'] at hnodup
  · simp [hmixin, hstyle, ← hname, ← hname'] at hnodup

end Declares
end Generated.Layout

/-! ## Parts of a type -/

namespace CSharp

/-- Whether a declaration is a part of the type with a full name and without type parameters. -/
def TypeDeclaration.isPartOf (fullName : String) (d : TypeDeclaration) : Bool :=
  d.fullName == fullName && d.arity == 0

/-- The parts of a type in files. -/
def partsIn (units : List CompilationUnit) (fullName : String) : List TypeDeclaration :=
  units.flatMap fun u => u.types.filter (·.isPartOf fullName)

end CSharp

namespace Generated

theorem TypeOutline.Describes.fullName_eq
    {m : CodeModel} {o : TypeOutline} {d : TypeDeclaration} (h : o.Describes m.modelsNamespace d)
    (hnamespace : IsDotted m.modelsNamespace) :
    d.fullName = m.fullName d.name := by
  have hne : d.enclosing ≠ "" := by
    rw [h.enclosing]
    exact hnamespace.ne_empty
  rw [d.fullName_eq hne h.containing, h.enclosing]
  rfl

theorem Layout.Declares.fullName_eq
    {m : CodeModel} {l : Layout} {t : Model} {d : TypeDeclaration}
    (h : l.Declares m.modelsNamespace t d) (hnamespace : IsDotted m.modelsNamespace) :
    d.fullName = m.fullName d.name := by
  obtain ⟨_, o, -, hd⟩ := h
  exact hd.fullName_eq hnamespace

theorem Layout.Declares.generates
    {m : CodeModel} {l : Layout} {t : Model} {d : TypeDeclaration}
    (h : l.Declares m.modelsNamespace t d) (ht : t ∈ m.models)
    (hnamespace : IsDotted m.modelsNamespace) :
    m.Generates l.settings.propertyStyle d.fullName :=
  ⟨t, ht, d.name, h.name_mem, (h.fullName_eq hnamespace).symm⟩

/-- A type with an outline is a part of the type with its name. -/
theorem TypeOutline.Describes.isPartOf_iff
    {m : CodeModel} {o : TypeOutline} {d : TypeDeclaration} {name : String}
    (h : o.Describes m.modelsNamespace d) (hnamespace : IsDotted m.modelsNamespace) :
    d.isPartOf (m.fullName name) = true ↔ o.name = name := by
  unfold TypeDeclaration.isPartOf
  simp [h.fullName_eq hnamespace, h.name, h.arity, CodeModel.fullName_inj]

/-- The class of a model as it is read back. -/
def Layout.classOutline (l : Layout) (reference : TypeName) (t : Model) : TypeOutline :=
  ⟨.classType, ["public", "partial"], t.name, (t.baseClass.toList ++ t.interfaces).map l.shorten,
    if t.omitsConstructor then [] else [⟨["public"], [reference]⟩]⟩

/-- One of the types of a model is its class. -/
theorem Layout.filter_outlines
    {l : Layout} {reference : TypeName} {t : Model}
    (hnodup : (TypeNames.generated l.settings.propertyStyle t.toNamedType).Nodup) :
    (l.outlines reference t).filter (·.name == t.name) = [l.classOutline reference t] := by
  unfold TypeNames.generated at hnodup
  have hinterface : t.isMixin = true → t.interfaceName ≠ t.name := by
    rintro hmixin heq
    simp [hmixin, heq] at hnodup
  have hextensions : l.settings.propertyStyle.hasExtensionMethods = true →
      t.extensionsName ≠ t.name := by
    rintro hstyle heq
    simp [hstyle, heq] at hnodup
  unfold outlines
  rw [List.filter_append, List.filter_append, List.filter_singleton]
  have hskip : ∀ (b : Bool) (o : TypeOutline), (b = true → o.name ≠ t.name) →
      (if b then [o] else []).filter (·.name == t.name) = [] := by
    rintro (_ | _) o hne
    · rfl
    · simp [hne rfl]
  rw [hskip _ _ hinterface, hskip _ _ hextensions]
  simp [classOutline]

/-- What is read back for a model has one part of its class. -/
theorem Layout.exists_part
    {l : Layout} {m : CodeModel} {reference : TypeName} {t : Model} {ds : List TypeDeclaration}
    (h : List.Forall₂ (fun o d => o.Describes m.modelsNamespace d) (l.outlines reference t) ds)
    (hnodup : (TypeNames.generated l.settings.propertyStyle t.toNamedType).Nodup)
    (hnamespace : IsDotted m.modelsNamespace) :
    ∃ d, ds.filter (·.isPartOf (m.fullName t.name)) = [d] ∧
      (l.classOutline reference t).Describes m.modelsNamespace d := by
  have hfilter := List.rel_filter (p := fun o : TypeOutline => o.name == t.name)
    (q := fun d : TypeDeclaration => d.isPartOf (m.fullName t.name))
    (fun o d hd => by
      exact beq_iff_eq.trans (hd.isPartOf_iff hnamespace).symm) h
  rw [filter_outlines hnodup] at hfilter
  obtain ⟨d, rest, hd, hrest, heq⟩ := List.forall₂_cons_left_iff.1 hfilter
  obtain rfl := List.forall₂_nil_left_iff.1 hrest
  exact ⟨d, heq, hd⟩

end Generated

/-- A generator reads and builds as its settings say. -/
structure Generator.KeepsSettings (g : Generator) : Prop where
  version : g.settings.version = .ok g.reader.version
  baseClass : g.strategies.baseClass = BaseClassQuery.standard
  referenceTypes : ∀ kind,
    Text.lastSegment (g.settings.referenceType kind) ∈ g.reader.referenceTypes
  declarations : ∀ d ∈ g.declarations, d.isStructural = false

/-- So does the generator that settings ask for, with any references. -/
theorem Generator.keepsSettings_ofSettings
    {settings : Settings} {g : Generator} (h : ofSettings settings = .ok g)
    (references : List Assembly) :
    ({ g with reader := { g.reader with references } } : Generator).KeepsSettings := by
  obtain ⟨_, -, h⟩ := bind_eq_ok.1 h
  obtain ⟨reader, hreader, h⟩ := bind_eq_ok.1 h
  obtain ⟨version, hversion, hreader⟩ := bind_eq_ok.1 hreader
  cases h
  cases hreader
  refine ⟨hversion, rfl, fun kind => ?_, nofun⟩
  have hfold : ([settings.contentReferenceType, settings.elementReferenceType].foldl
      (fun l t => addOnce l (Text.lastSegment t)) (FactReader.ofVersion version).referenceTypes) =
      [Text.lastSegment settings.contentReferenceType,
        Text.lastSegment settings.elementReferenceType].foldl addOnce
          (FactReader.ofVersion version).referenceTypes := rfl
  dsimp only
  rw [hfold, mem_foldl_addOnce]
  unfold Settings.referenceType
  split <;> simp

namespace Generator.Pass

variable {g : Generator} {schema : List ContentType} {sources : SourceFiles} {options : CodeOptions}
  {m : CodeModel} {out : GeneratedModels} {before after : Compilation} {l : Layout} {t : Model}
  {u : CompilationUnit} {d : TypeDeclaration}

/-- What a pass generates is read back. -/
structure ReadsBack (g : Generator) (m : CodeModel) (l : Layout) : Prop where
  layout : Layout.ofSettings g.settings m.usingNamespaces = .ok l
  usings : ∀ u ∈ l.usings, IsDotted u
  modelsNamespace : IsDotted m.modelsNamespace
  texts : ∀ t ∈ m.models, l.ReadsAs g.reader.version m.modelsNamespace
    (l.file m.modelsNamespace (l.types m.models t)) t

/-- The names, types and aliases of a pass can be read back where they are written. -/
structure IsReadable (g : Generator) (schema : List ContentType) (options : CodeOptions)
    (m : CodeModel) : Prop where
  settings : g.settings.IsReadable
  options : options.IsReadable
  schema : ∀ t ∈ schema, t.IsOneLine
  model : m.IsReadable

theorem readsBack
    (h : g.Pass schema sources options m out before after) (hg : g.KeepsSettings)
    (hreadable : IsReadable g schema options m)
    (hl : Layout.ofSettings g.settings m.usingNamespaces = .ok l) :
    ReadsBack g m l := by
  obtain ⟨_, _, _, _, hbuilt⟩ := CodeModel.exists_built h.build
  refine ⟨hl, Layout.isDotted_usings hl ?_,
    hbuilt.isDotted_modelsNamespace hreadable.settings hreadable.options, fun t ht => ?_⟩
  · rw [hbuilt.usingNamespaces]
    exact CodeModel.isDotted_usings hreadable.settings hreadable.options
  · exact CodeModel.readsAs h.build hg.baseClass hreadable.settings hreadable.options
      hreadable.schema hreadable.model hl hg.version ht

/-- Each file is there before, or it is the file of a model. -/
theorem of_mem_units
    (h : g.Pass schema sources options m out before after) (hreads : ReadsBack g m l)
    (hu : u ∈ after.units) :
    u ∈ before.units ∨ ∃ t ∈ m.models, u.file = fileName t.name ∧
      ∀ d ∈ u.types, l.Declares m.modelsNamespace t d := by
  obtain ⟨l', hl', htexts⟩ := h.exists_layout
  obtain rfl : l = l' := Except.ok.inj (hreads.layout.symm.trans hl')
  obtain ⟨e, he, hparse⟩ := FactReader.exists_entry h.after hu
  rcases Keyed.of_mem_entries_foldl_insert he with hfile | hsource
  · obtain ⟨x, hx, rfl⟩ := List.mem_map.1 hfile
    rw [htexts] at hx
    obtain ⟨t, ht, rfl⟩ := List.mem_map.1 hx
    have htext := hreads.texts t ht
    dsimp only at hparse
    generalize l.file m.modelsNamespace (l.types m.models t) = text at htext hparse
    obtain ⟨reference, -, -, hfiles⟩ := htext
    obtain ⟨v, hv, -, -, htypes, -⟩ := hfiles (fileName t.name)
    obtain rfl : u = v := Except.ok.inj (hparse.symm.trans hv)
    refine .inr ⟨t, ht, file_of_parseUnit hparse, fun d hd => ?_⟩
    obtain ⟨o, ho, hdescribes⟩ := exists_of_mem_right htypes hd
    exact ⟨reference, o, ho, hdescribes⟩
  · obtain ⟨v, hv, hparse'⟩ := exists_mem_of_mapM (FactReader.compile_eq_ok h.before) hsource
    obtain rfl : u = v := Except.ok.inj (hparse.symm.trans hparse')
    exact .inl hv

/-- Each type is declared before, or it is generated for a model. -/
theorem of_mem_declaredTypes
    (h : g.Pass schema sources options m out before after) (hreads : ReadsBack g m l)
    (hd : d ∈ after.declaredTypes) :
    d ∈ before.declaredTypes ∨ ∃ t ∈ m.models, l.Declares m.modelsNamespace t d := by
  obtain ⟨u, hu, hd⟩ := List.mem_flatMap.1 hd
  rcases h.of_mem_units hreads hu with hbefore | ⟨t, ht, -, hdeclares⟩
  · exact .inl (List.mem_flatMap.2 ⟨u, hbefore, hd⟩)
  · exact .inr ⟨t, ht, hdeclares d hd⟩

/-- Files that a tool has written declare no part of a class, apart from its own file. -/
theorem filter_isPartOf_eq_nil
    (h : g.Pass schema sources options m out before after) (hreads : ReadsBack g m l)
    (ht : t ∈ m.models)
    (hmarked : ∀ u ∈ before.units, u.isGenerated = true → u.file ≠ fileName t.name →
      ∀ d ∈ u.types, d.isPartOf (m.fullName t.name) = false)
    (hu : u ∈ after.units) (hne : u.file ≠ fileName t.name) (hmark : u.isGenerated = true) :
    u.types.filter (·.isPartOf (m.fullName t.name)) = [] := by
  rw [List.filter_eq_nil_iff]
  intro d hd hpart
  rcases h.of_mem_units hreads hu with hbefore | ⟨t', ht', hfile, hdeclares⟩
  · rw [hmarked u hbefore hmark hne d hd] at hpart
    cases hpart
  · have hmem := (hdeclares d hd).name_mem
    obtain ⟨_, o, -, hdescribes⟩ := hdeclares d hd
    rw [hdescribes.name, (hdescribes.isPartOf_iff hreads.modelsNamespace).1 hpart,
      (Layout.ofSettings_eq_ok hreads.layout).1] at hmem
    have hname : t.name ∈ TypeNames.generated g.settings.propertyStyle t.toNamedType := by
      simp [TypeNames.generated]
    obtain rfl := CodeModel.eq_of_mem_generated h.build ht ht' hname hmem
    exact hne hfile

/-- The part of a class in the file that is generated for it. -/
structure GeneratedPart (g : Generator) (m : CodeModel) (l : Layout) (t : Model)
    (d : TypeDeclaration) : Prop where
  outline : ∃ reference : TypeName, reference.text = l.shorten (g.settings.referenceType t.type.kind) ∧
    IsSpelled reference ∧ (l.classOutline reference t).Describes m.modelsNamespace d
  usings : UsesOnly l.usings d.usings

/-- A class has the parts in the files of users and one that is generated. -/
theorem exists_parts
    (h : g.Pass schema sources options m out before after) (hreads : ReadsBack g m l)
    (ht : t ∈ m.models)
    (hmarked : ∀ u ∈ before.units, u.isGenerated = true → u.file ≠ fileName t.name →
      ∀ d ∈ u.types, d.isPartOf (m.fullName t.name) = false) :
    ∃ front back d, GeneratedPart g m l t d ∧
      partsIn after.units (m.fullName t.name) = front ++ d :: back ∧
        partsIn after.userUnits (m.fullName t.name) = front ++ back := by
  obtain ⟨v, hv, hfile, hgenerated, reference, htext, hspelled, htypes, husings⟩ :=
    h.exists_generated hreads.layout ht (hreads.texts t ht)
  have hnodup := CodeModel.nodup_generated_of_mem h.build ht
  rw [← (Layout.ofSettings_eq_ok hreads.layout).1] at hnodup
  obtain ⟨d, hfilter, hd⟩ := Layout.exists_part htypes hnodup hreads.modelsNamespace
  have hmem : d ∈ v.types := (List.mem_filter.1 (hfilter ▸ List.mem_singleton_self d)).1
  obtain ⟨front, back, hunits⟩ := List.append_of_mem hv
  have hother : ∀ u ∈ front ++ back, u ∈ after.units ∧ u.file ≠ fileName t.name := by
    have hfiles := FactReader.nodup_units h.after
    rw [hunits, List.map_append, List.map_cons, hfile] at hfiles
    intro u hu
    have hne := (List.nodup_middle.1 hfiles).notMem
    rw [← List.map_append] at hne
    refine ⟨?_, fun heq => hne (List.mem_map.2 ⟨u, hu, heq⟩)⟩
    rw [hunits]
    exact (List.perm_middle.mem_iff).2 (List.mem_cons_of_mem _ hu)
  have hdrop : ∀ us ⊆ front ++ back, partsIn (us.filter (!·.isGenerated)) (m.fullName t.name) =
      partsIn us (m.fullName t.name) := by
    intro us hus
    induction us with
    | nil => rfl
    | cons u us ih =>
      obtain ⟨hu, hrest⟩ := List.cons_subset.1 hus
      obtain ⟨hunit, hne⟩ := hother u hu
      rw [List.filter_cons]
      split
      · exact congrArg (_ ++ ·) (ih hrest)
      · rename_i hmark
        have hnone := h.filter_isPartOf_eq_nil hreads ht hmarked hunit hne (by simpa using hmark)
        rw [ih hrest, partsIn, partsIn, List.flatMap_cons, hnone, List.nil_append]
  refine ⟨partsIn front (m.fullName t.name), partsIn back (m.fullName t.name), d,
    ⟨⟨reference, htext, hspelled, hd⟩, husings d hmem⟩, ?_, ?_⟩
  · rw [hunits, partsIn, List.flatMap_append, List.flatMap_cons, hfilter]
    rfl
  · rw [← hdrop front (List.subset_append_left _ _), ← hdrop back (List.subset_append_right _ _)]
    unfold Compilation.userUnits
    rw [hunits, List.filter_append, List.filter_cons, if_neg (by simp [hgenerated])]
    exact List.flatMap_append

end Generator.Pass

/-! ## Passes over given code -/

namespace Generator.Prepared

variable {g : Generator} {schema : List ContentType} {sources : SourceFiles} {options : CodeOptions}
  {m : CodeModel} {before : Compilation} {l : Layout}

theorem keepsSettings
    (h : Prepared g schema sources options m before l) :
    g.KeepsSettings :=
  keepsSettings_ofSettings h.settings g.reader.references

/-- What a pass is prepared for can be read back. -/
theorem isReadable
    (h : Prepared g schema sources options m before l) (hschema : ∀ t ∈ schema, t.IsOneLine) :
    Pass.IsReadable g schema options m := by
  obtain ⟨hsettings, -⟩ := ofSettings_eq_ok h.settings
  exact ⟨hsettings ▸ Settings.isReadable_standard, h.isReadable_options, hschema,
    h.isReadable_model⟩

theorem ofSettings_layout
    (h : Prepared g schema sources options m before l) :
    Layout.ofSettings g.settings m.usingNamespaces = .ok l := by
  obtain ⟨hsettings, -⟩ := ofSettings_eq_ok h.settings
  exact hsettings ▸ h.layout

end Generator.Prepared
end ContentModels

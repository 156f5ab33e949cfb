import ContentModels.Proofs.CodeModel.Refusals
import ContentModels.Proofs.Compilation
import ContentModels.Proofs.Generated.FileNames
import ContentModels.Proofs.Regeneration

/-!
# Generating without code of users

A pass over no code fails only while the code model is built, and only because the schema or
the settings are refused (`generate_of_model`).  What it generates is read back file by file
as the types of the models and as nothing else (`reads_generated`).

Both hold of settings and a schema whose names, types and aliases can be read back where they
are written.  An alias with a line feed, for one, ends the comment and the literals that it is
written into, and the builder does not refuse it.
-/

namespace ContentModels

open CSharp Generated Outcome

/-! ## Files of models -/

/-- A text is read back as the types of a model in a namespace, whatever the name of its file. -/
def Generated.Layout.ReadsAs
    (l : Layout) (version : LanguageVersion) (modelsNamespace text : String) (t : Model) : Prop :=
  ∃ reference : TypeName, reference.text = l.shorten (l.settings.referenceType t.type.kind) ∧
    IsSpelled reference ∧ ∀ file, ∃ unit, parseUnit file text version = .ok unit ∧
      unit.isGenerated = true ∧ unit.assemblyAttributes = [] ∧
      List.Forall₂ (fun o d => o.Describes modelsNamespace d) (l.outlines reference t) unit.types ∧
      ∀ d ∈ unit.types, UsesOnly l.usings d.usings

/-- The file of each model is read back as its types. -/
theorem CodeModel.readsAs
    {settings : Settings} {strategies : Strategies} {schema : List ContentType}
    {options : CodeOptions} {m : CodeModel} {l : Layout} {version : LanguageVersion} {t : Model}
    (hbuild : build settings strategies schema options = .ok m)
    (hstrategies : strategies.baseClass = BaseClassQuery.standard)
    (hsettings : settings.IsReadable) (hoptions : options.IsReadable)
    (hschema : ∀ t ∈ schema, t.IsOneLine) (hm : m.IsReadable)
    (hl : Layout.ofSettings settings m.usingNamespaces = .ok l)
    (hversion : settings.version = .ok version) (ht : t ∈ m.models) :
    l.ReadsAs version m.modelsNamespace (l.file m.modelsNamespace (l.types m.models t)) t := by
  obtain ⟨linked, named, mapped, propertied, hbuilt⟩ := exists_built hbuild
  have husings : ∀ u ∈ l.usings, IsDotted u := by
    refine Layout.isDotted_usings hl ?_
    rw [hbuilt.usingNamespaces]
    exact isDotted_usings hsettings hoptions
  have htype := hsettings.referenceType t.type.kind
  rw [← (Layout.ofSettings_eq_ok hl).1] at htype
  obtain ⟨reference, htext, hspelled, hreference⟩ := htype.exists_reference husings version
  exact ⟨reference, htext, hspelled, fun file => exists_unit file
    (hbuilt.isReadable hstrategies hsettings hoptions hschema hm hl ht) husings
    (hbuilt.isDotted_modelsNamespace hsettings hoptions) (Layout.supportsBodies hl hversion) hreference⟩

theorem Generated.TypeOutline.Describes.isPartial
    {o : TypeOutline} {enclosing : String} {d : TypeDeclaration} (h : o.Describes enclosing d)
    (hpartial : "partial" ∈ o.modifiers) :
    d.isPartial = true := by
  unfold TypeDeclaration.isPartial
  rw [h.modifiers]
  simpa using hpartial

theorem Generated.Layout.partial_mem_modifiers
    {l : Layout} {reference : TypeName} {t : Model} {o : TypeOutline} (h : o ∈ l.outlines reference t) :
    "partial" ∈ o.modifiers := by
  unfold outlines at h
  rcases List.mem_append.1 h with h | h
  · rcases List.mem_append.1 h with h | h
    · split at h
      · obtain rfl := List.mem_singleton.1 h
        simp
      · cases h
    · obtain rfl := List.mem_singleton.1 h
      simp
  · split at h
    · obtain rfl := List.mem_singleton.1 h
      simp
    · cases h

theorem Generated.Layout.ReadsAs.exists_unit
    {l : Layout} {version : LanguageVersion} {modelsNamespace text : String} {t : Model}
    (h : l.ReadsAs version modelsNamespace text t) (file : String) :
    ∃ unit, parseUnit file text version = .ok unit := by
  obtain ⟨_, -, -, hreads⟩ := h
  exact (hreads file).imp fun _ h => h.1

/-- All that the file of a model declares may have further parts. -/
theorem Generated.Layout.ReadsAs.isPartial
    {l : Layout} {version : LanguageVersion} {modelsNamespace text file : String} {t : Model}
    {unit : CompilationUnit} (h : l.ReadsAs version modelsNamespace text t)
    (hunit : parseUnit file text version = .ok unit) :
    ∀ d ∈ unit.types, d.isPartial = true := by
  obtain ⟨reference, -, -, hreads⟩ := h
  obtain ⟨unit', hunit', -, -, htypes, -⟩ := hreads file
  obtain rfl : unit = unit' := Except.ok.inj (hunit.symm.trans hunit')
  intro d hd
  obtain ⟨o, ho, hdescribes⟩ := exists_of_mem_right htypes hd
  exact hdescribes.isPartial (Layout.partial_mem_modifiers ho)

/-! ## Compiling generated files -/

namespace CSharp.Compilation

/-- Types that may all have further parts are no duplicates of each other. -/
theorem checkDuplicates_of_isPartial
    {declared : List (String × TypeDeclaration)} (h : ∀ x ∈ declared, x.2.isPartial = true) :
    checkDuplicates [] declared = .ok () := by
  refine (checkDuplicates_eq_ok_iff .nil).2 (List.pairwise_of_forall_mem_list ?_)
  have hpartial : ∀ d ∈ declared.map (·.2), d.isPartial = true := List.forall_mem_map.2 h
  exact fun a ha b hb _ => ⟨hpartial a ha, hpartial b hb⟩

end CSharp.Compilation

/-- Files whose types may all have further parts compile. -/
theorem FactReader.validate_of_isPartial
    {r : FactReader} {sources : SourceFiles}
    (h : ∀ e ∈ sources.entries, ∃ unit, parseUnit e.1 e.2 r.version = .ok unit ∧
      ∀ d ∈ unit.types, d.isPartial = true) :
    r.validate sources = .ok () := by
  obtain ⟨units, hunits⟩ := exists_mapM fun e he => (h e he).imp fun _ h => h.1
  have hpartial : ∀ x ∈ Compilation.declarations units, x.2.isPartial = true := by
    intro x hx
    obtain ⟨unit, hunit, hx⟩ := List.mem_flatMap.1 hx
    obtain ⟨d, hd, rfl⟩ := List.mem_map.1 hx
    obtain ⟨i, hi⟩ := List.mem_iff_getElem?.1 hunit
    obtain ⟨e, he, hparse⟩ := exists_of_mapM hunits hi
    obtain ⟨unit', hparse', hall⟩ := h e (List.mem_of_getElem? he)
    obtain rfl : unit = unit' := Except.ok.inj (hparse.symm.trans hparse')
    exact hall d hd
  refine bind_eq_ok.2 ⟨_, bind_eq_ok.2 ⟨units, hunits, bind_eq_ok.2 ⟨(), ?_, rfl⟩⟩, rfl⟩
  exact Compilation.checkDuplicates_of_isPartial hpartial

/-! ## Passes over no code -/

/-- Settings contribute to the options of content types only. -/
theorem Settings.ofDeclarations_declarations
    (s : Settings) :
    ∃ contentTypes, CodeOptions.ofDeclarations s.declarations = ⟨none, [], none, contentTypes⟩ := by
  suffices h : ∀ ds : List Declaration, (∀ d ∈ ds, ∀ o : CodeOptions,
      o.declare d = { o with contentTypes := o.contentTypes.declare d }) →
      ∀ c, ∃ contentTypes, CodeOptions.declareAll ⟨none, [], none, c⟩ ds =
        ⟨none, [], none, contentTypes⟩ from by
    refine h _ (fun d hd o => ?_) .empty
    unfold declarations at hd
    simp only [List.mem_append, List.mem_map, List.mem_flatMap] at hd
    obtain ((⟨_, -, rfl⟩ | ⟨_, -, _, -, rfl⟩) | ⟨_, -, rfl⟩) | ⟨_, -, _, -, rfl⟩ := hd <;> rfl
  intro ds
  induction ds with
  | nil => exact fun _ c => ⟨c, rfl⟩
  | cons d ds ih =>
    intro h c
    unfold CodeOptions.declareAll
    rw [List.foldl_cons, h d List.mem_cons_self]
    exact ih (fun x hx => h x (List.mem_cons_of_mem _ hx)) _

namespace Generator

variable {settings : Settings} {g : Generator} {schema : List ContentType} {sources : SourceFiles}
  {options : CodeOptions} {m : CodeModel} {out : GeneratedModels}

/-- What a generator takes from settings. -/
theorem ofSettings_eq_ok
    (h : ofSettings settings = .ok g) :
    g.settings = settings ∧ g.strategies = .standard settings ∧ g.declarations = [] ∧
      settings.version = .ok g.reader.version := by
  obtain ⟨_, -, h⟩ := bind_eq_ok.1 h
  obtain ⟨reader, hreader, h⟩ := bind_eq_ok.1 h
  obtain ⟨version, hversion, hreader⟩ := bind_eq_ok.1 hreader
  cases h
  cases hreader
  exact ⟨rfl, rfl, rfl, hversion⟩

/-- Without code the options are those of the settings. -/
theorem collect_empty
    (h : ofSettings settings = .ok g) :
    g.collect .empty = .ok (.ofDeclarations settings.declarations) := by
  obtain ⟨hsettings, -, hdeclarations, -⟩ := ofSettings_eq_ok h
  have hread : g.reader.read .empty = .ok [] := by
    unfold FactReader.read FactReader.compile
    rfl
  unfold collect
  rw [hread, hsettings, hdeclarations]
  simp [bind, Except.bind, pure, Except.pure]

theorem model_empty
    (h : ofSettings settings = .ok g) :
    g.model schema .empty = CodeModel.build settings (.standard settings) schema
      (.ofDeclarations settings.declarations) := by
  obtain ⟨hsettings, hstrategies, -, -⟩ := ofSettings_eq_ok h
  unfold model
  rw [collect_empty h, hsettings, hstrategies]
  rfl

theorem modelsNamespace_of_build
    (h : CodeModel.build settings (.standard settings) schema
      (.ofDeclarations settings.declarations) = .ok m) :
    m.modelsNamespace = settings.modelsNamespace := by
  obtain ⟨_, _, _, _, hbuilt⟩ := CodeModel.exists_built h
  obtain ⟨_, hoptions⟩ := settings.ofDeclarations_declarations
  rw [hbuilt.modelsNamespace, hoptions]
  rfl

theorem Settings.isReadable_ofDeclarations
    (s : Settings) :
    (CodeOptions.ofDeclarations s.declarations).IsReadable := by
  obtain ⟨_, h⟩ := s.ofDeclarations_declarations
  rw [h]
  exact ⟨nofun, nofun, nofun⟩

/-- The texts of a model that can be read back are read as its types. -/
theorem exists_texts
    (hg : ofSettings settings = .ok g) (hsettings : settings.IsReadable) (hoptions : options.IsReadable)
    (hschema : ∀ t ∈ schema, t.IsOneLine)
    (hbuild : CodeModel.build settings (.standard settings) schema options = .ok m)
    (hm : m.IsReadable) :
    ∃ l texts, Layout.ofSettings settings m.usingNamespaces = .ok l ∧
      Generated.texts settings m = .ok texts ∧
      List.Forall₂ (fun x t => x.1 = t.name ∧
        l.ReadsAs g.reader.version m.modelsNamespace x.2 t) texts m.models := by
  obtain ⟨-, -, -, hversion⟩ := ofSettings_eq_ok hg
  obtain ⟨l, hl⟩ : ∃ l, Layout.ofSettings settings m.usingNamespaces = .ok l :=
    ⟨_, bind_eq_ok.2 ⟨_, hversion, rfl⟩⟩
  refine ⟨l, _, hl, texts_eq hbuild hl, ?_⟩
  rw [List.forall₂_map_left_iff, List.forall₂_same]
  intro t ht
  have hreads := CodeModel.readsAs hbuild rfl hsettings hoptions hschema hm hl hversion ht
  refine ⟨rfl, ?_⟩
  dsimp only
  exact hreads

/-- What is generated for a model that can be read back compiles with code that is partial throughout. -/
theorem exists_generate
    (hg : ofSettings settings = .ok g) (hsettings : settings.IsReadable)
    (hcollect : g.collect sources = .ok options) (hoptions : options.IsReadable)
    (hschema : ∀ t ∈ schema, t.IsOneLine) (hmodel : g.model schema sources = .ok m)
    (hm : m.IsReadable)
    (hsources : ∀ e ∈ sources.entries, ∃ unit, parseUnit e.1 e.2 g.reader.version = .ok unit ∧
      ∀ d ∈ unit.types, d.isPartial = true) :
    ∃ out, g.generate schema sources = .ok out := by
  obtain ⟨hsame, hstrategies, -, -⟩ := ofSettings_eq_ok hg
  obtain ⟨options', hcollect', hbuild⟩ := bind_eq_ok.1 hmodel
  obtain rfl : options = options' := Except.ok.inj (hcollect.symm.trans hcollect')
  rw [hsame, hstrategies] at hbuild
  obtain ⟨l, texts, -, htexts, hreads⟩ := exists_texts hg hsettings hoptions hschema hbuild hm
  refine ⟨⟨m.modelsNamespace, texts⟩, generate_eq_ok.2 ⟨m, hmodel, hsame ▸ htexts, rfl, ?_⟩⟩
  refine FactReader.validate_of_isPartial fun e he => ?_
  rcases Keyed.of_mem_entries_foldl_insert he with hfile | hsource
  · obtain ⟨x, hx, rfl⟩ := List.mem_map.1 hfile
    obtain ⟨t, -, -, htext⟩ := exists_of_mem_right hreads.flip hx
    obtain ⟨unit, hunit⟩ := htext.exists_unit (fileName x.1)
    exact ⟨unit, hunit, htext.isPartial hunit⟩
  · exact hsources e hsource

/-- Without code of users nothing but the model has to be readable. -/
theorem exists_generate_empty
    (hg : ofSettings settings = .ok g) (hsettings : settings.IsReadable)
    (hschema : ∀ t ∈ schema, t.IsOneLine) (hmodel : g.model schema .empty = .ok m)
    (hm : m.IsReadable) :
    ∃ out, g.generate schema .empty = .ok out :=
  exists_generate hg hsettings (collect_empty hg) (Settings.isReadable_ofDeclarations settings)
    hschema hmodel hm nofun

/-- The standard settings give a model for pages and news, which can be read back. -/
theorem exists_model_newsSchema :
    ∃ g m, ofSettings .standard = .ok g ∧ g.model CodeModel.newsSchema .empty = .ok m ∧
      m.models.length = 4 ∧ m.IsReadable := by
  obtain ⟨g, hg, -⟩ := exists_generate_nil
  have h : ∃ m, CodeModel.build .standard (.standard .standard) CodeModel.newsSchema .empty = .ok m ∧
      decide (m.models.length = 4 ∧ ∀ t ∈ m.models, t.name ∉ reservedClassNames ∧
        ∀ p ∈ t.properties, readsTypeText ⟨.standard, 1⟩ p.valueType = true) = true :=
    exists_of_toOption_map (by decide +kernel)
  obtain ⟨m, hm, hshape⟩ := h
  obtain ⟨hlength, hreads⟩ := of_decide_eq_true hshape
  exact ⟨g, m, hg, (model_empty hg).trans hm, hlength, CodeModel.isReadable_of_reads _ hreads⟩

/-! ## Results -/

/-- Each generated file is read back as the types of its model, and as nothing else. -/
theorem reads_generated
    (hg : ofSettings settings = .ok g) (hsettings : settings.IsReadable)
    (hschema : ∀ t ∈ schema, t.IsOneLine) (hmodel : g.model schema .empty = .ok m)
    (hm : m.IsReadable) (hout : g.generate schema .empty = .ok out) :
    ∃ l, Layout.ofSettings settings m.usingNamespaces = .ok l ∧
      List.Forall₂ (fun x t => x.1 = t.name ∧
        l.ReadsAs g.reader.version settings.modelsNamespace x.2 t) out.texts m.models := by
  obtain ⟨hsame, -⟩ := ofSettings_eq_ok hg
  have hbuild := (model_empty hg).symm.trans hmodel
  obtain ⟨l, texts, hl, htexts, hreads⟩ :=
    exists_texts hg hsettings (Settings.isReadable_ofDeclarations settings) hschema hbuild hm
  obtain ⟨m', hmodel', houttexts, -⟩ := generate_eq_ok.1 hout
  obtain rfl : m = m' := Except.ok.inj (hmodel.symm.trans hmodel')
  obtain rfl : texts = out.texts := Except.ok.inj (htexts.symm.trans (hsame ▸ houttexts))
  rw [← modelsNamespace_of_build hbuild]
  exact ⟨l, hl, hreads⟩

theorem reads_generated_news :
    ∃ (g : Generator) (m : CodeModel) (out : GeneratedModels) (l : Layout),
      ofSettings .standard = .ok g ∧ g.model CodeModel.newsSchema .empty = .ok m ∧
        m.models.length = 4 ∧ g.generate CodeModel.newsSchema .empty = .ok out ∧
          List.Forall₂ (fun x t => x.1 = t.name ∧
            l.ReadsAs g.reader.version "Umbraco.Web.PublishedModels" x.2 t) out.texts m.models := by
  obtain ⟨g, m, hg, hmodel, hlength, hm⟩ := exists_model_newsSchema
  obtain ⟨out, hout⟩ :=
    exists_generate_empty hg Settings.isReadable_standard CodeModel.isOneLine_newsSchema hmodel hm
  obtain ⟨l, -, hreads⟩ :=
    reads_generated hg Settings.isReadable_standard CodeModel.isOneLine_newsSchema hmodel hm hout
  exact ⟨g, m, out, l, hg, hmodel, hlength, hout, hreads⟩

/--
Without code, generating fails only as building the model does, which is because the schema or
the settings are refused.
-/
theorem generate_of_model
    (hg : ofSettings settings = .ok g) (hsettings : settings.IsReadable)
    (hschema : ∀ t ∈ schema, t.IsOneLine) :
    (∀ m, g.model schema .empty = .ok m → m.IsReadable → ∃ out, g.generate schema .empty = .ok out) ∧
      ∀ e, g.model schema .empty = .error e → ∃ fault, e = .configuration fault := by
  refine ⟨fun m hmodel hm => exists_generate_empty hg hsettings hschema hmodel hm, ?_⟩
  rw [model_empty hg]
  exact CodeModel.onlyRefuses_build (CodeOptions.mapped_ofDeclarations _) _ _ _

theorem generate_of_model_news :
    ∃ g out, ofSettings .standard = .ok g ∧ g.generate CodeModel.newsSchema .empty = .ok out := by
  obtain ⟨g, m, hg, hmodel, -, hm⟩ := exists_model_newsSchema
  obtain ⟨out, hout⟩ :=
    (generate_of_model hg Settings.isReadable_standard CodeModel.isOneLine_newsSchema).1 m hmodel hm
  exact ⟨g, out, hg, hout⟩

end Generator
end ContentModels

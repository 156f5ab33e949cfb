import ContentModels.Proofs.PartialClasses
import ContentModels.Proofs.ReadBack

/-!
# Code next to generated files

A pass reads the code of users and compiles it once more together with what is generated.
The files of users are the same both times, unless a generated file takes the place of one.
The file of each model is there once, and declares the types of the model.
-/

namespace ContentModels

open CSharp Generated Outcome

/-! ## Files -/

namespace FactReader

variable {r : FactReader} {sources : SourceFiles} {c : Compilation} {u : CompilationUnit}

/-- Each file of a compilation is read from a source file. -/
theorem exists_entry
    (h : r.compile sources = .ok c) (hu : u ∈ c.units) :
    ∃ e ∈ sources.entries, parseUnit e.1 e.2 r.version = .ok u := by
  obtain ⟨i, hi⟩ := List.mem_iff_getElem?.1 hu
  obtain ⟨e, he, hparse⟩ := exists_of_mapM (compile_eq_ok h) hi
  exact ⟨e, List.mem_of_getElem? he, hparse⟩

/-- The files of a compilation are in the order of their names. -/
theorem sorted_units
    (h : r.compile sources = .ok c) :
    c.units.Pairwise fun u v => u.file < v.file := by
  have hsorted : (c.units.map (·.file)).Pairwise (· < ·) := by
    rw [map_of_mapM (fun e u => file_of_parseUnit) (compile_eq_ok h)]
    exact List.pairwise_map.2 sources.sorted
  exact List.pairwise_map.1 hsorted

/-- The files of a compilation have different names. -/
theorem nodup_units
    (h : r.compile sources = .ok c) :
    (c.units.map (·.file)).Nodup :=
  List.pairwise_map.2 ((sorted_units h).imp fun hlt => String.ne_of_lt hlt)

end FactReader

/-- The files that no tool has written. -/
def CSharp.Compilation.userUnits (c : Compilation) : List CompilationUnit :=
  c.units.filter (!·.isGenerated)

/-! ## Passes -/

/-- A pass that succeeds, with what it goes through. -/
structure Generator.Pass
    (g : Generator) (schema : List ContentType) (sources : SourceFiles) (options : CodeOptions)
    (m : CodeModel) (out : GeneratedModels) (before after : Compilation) : Prop where
  collect : g.collect sources = .ok options
  build : CodeModel.build g.settings g.strategies schema options = .ok m
  texts : Generated.texts g.settings m = .ok out.texts
  /-- The code of users. -/
  before : g.reader.compile sources = .ok before
  /-- The code of users with the generated files. -/
  after : g.reader.compile (out.addTo sources) = .ok after

theorem Generator.exists_pass
    {g : Generator} {schema : List ContentType} {sources : SourceFiles} {out : GeneratedModels}
    (h : g.generate schema sources = .ok out) :
    ∃ options m before after, g.Pass schema sources options m out before after := by
  obtain ⟨m, hm, htexts, -, hvalid⟩ := generate_eq_ok.1 h
  obtain ⟨options, hcollect, hbuild⟩ := bind_eq_ok.1 hm
  obtain ⟨facts, hread, -⟩ := bind_eq_ok.1 hcollect
  obtain ⟨before, hbefore, -⟩ := bind_eq_ok.1 hread
  obtain ⟨after, hafter, -⟩ := bind_eq_ok.1 hvalid
  exact ⟨options, m, before, after, hcollect, hbuild, htexts, hbefore, hafter⟩

namespace Generator.Pass

variable {g : Generator} {schema : List ContentType} {sources : SourceFiles} {options : CodeOptions}
  {m : CodeModel} {out : GeneratedModels} {before after : Compilation} {l : Layout} {t : Model}
  {u : CompilationUnit}

/-- The layout of the generated files. -/
theorem exists_layout
    (h : g.Pass schema sources options m out before after) :
    ∃ l, Layout.ofSettings g.settings m.usingNamespaces = .ok l ∧
      out.texts = m.models.map fun x => (x.name, l.file m.modelsNamespace (l.types m.models x)) := by
  obtain ⟨l, hl, -⟩ := bind_eq_ok.1 h.texts
  exact ⟨l, hl, Except.ok.inj (h.texts.symm.trans (texts_eq h.build hl))⟩

/-- The generated files have different names. -/
theorem nodup_files
    (h : g.Pass schema sources options m out before after) :
    (out.files.map (·.1)).Nodup := by
  obtain ⟨l, -, htexts⟩ := h.exists_layout
  have hkeys : out.files.map (·.1) = (m.models.map (·.name)).map fileName := by
    unfold GeneratedModels.files
    rw [htexts, List.map_map, List.map_map, List.map_map]
    rfl
  rw [hkeys]
  exact (CodeModel.nodup_names h.build).map fun a b heq => (String.append_left_inj suffix).1 heq

/-- The generated file of a model is there, and is read back as its types. -/
theorem exists_generated
    (h : g.Pass schema sources options m out before after)
    (hl : Layout.ofSettings g.settings m.usingNamespaces = .ok l) (ht : t ∈ m.models)
    (hreads : l.ReadsAs g.reader.version m.modelsNamespace
      (l.file m.modelsNamespace (l.types m.models t)) t) :
    ∃ u ∈ after.units, u.file = fileName t.name ∧ u.isGenerated = true ∧
      ∃ reference : TypeName, reference.text = l.shorten (g.settings.referenceType t.type.kind) ∧
        IsSpelled reference ∧
        List.Forall₂ (fun o d => o.Describes m.modelsNamespace d) (l.outlines reference t) u.types ∧
        ∀ d ∈ u.types, UsesOnly l.usings d.usings := by
  obtain ⟨l', hl', htexts⟩ := h.exists_layout
  obtain rfl : l = l' := Except.ok.inj (hl.symm.trans hl')
  -- The text is a variable from here on, for nothing depends on what it is.
  generalize htextOf : l.file m.modelsNamespace (l.types m.models t) = text at hreads
  have hfile : (fileName t.name, text) ∈ out.files := by
    refine List.mem_map.2 ⟨(t.name, text), ?_, rfl⟩
    rw [htexts, ← htextOf]
    exact List.mem_map.2 ⟨t, ht, rfl⟩
  obtain ⟨reference, htext, hspelled, hreads⟩ := hreads
  obtain ⟨u, hu, hgenerated, -, htypes⟩ := hreads (fileName t.name)
  obtain ⟨v, hv, hparse⟩ := exists_mem_of_mapM (FactReader.compile_eq_ok h.after)
    (Keyed.mem_entries_foldl_insert h.nodup_files sources hfile)
  obtain rfl : u = v := Except.ok.inj (hu.symm.trans hparse)
  rw [(Layout.ofSettings_eq_ok hl).1] at htext
  exact ⟨u, hv, file_of_parseUnit hu, hgenerated, reference, htext, hspelled, htypes⟩

/-- Generated files take the places of files only that are known as generated. -/
def ReplacesGenerated (g : Generator) (sources : SourceFiles) (out : GeneratedModels) : Prop :=
  ∀ e ∈ sources.entries, ∀ x ∈ out.files, x.1 = e.1 → ∀ v,
    parseUnit e.1 e.2 g.reader.version = .ok v → v.isGenerated = true

theorem replacesGenerated_of_isGeneratedName
    (h : ∀ e ∈ sources.entries, isGeneratedName e.1 = false) :
    ReplacesGenerated g sources out := by
  intro e he x hx heq
  have hgenerated := GeneratedModels.isGeneratedName_of_mem_files hx
  rw [heq, h e he] at hgenerated
  cases hgenerated

/-- The files that no tool has written are those of users, before and after. -/
theorem mem_units_iff
    (h : g.Pass schema sources options m out before after)
    (hreplaces : ReplacesGenerated g sources out) (hu : u.isGenerated = false) :
    u ∈ after.units ↔ u ∈ before.units := by
  constructor
  · intro hmem
    obtain ⟨e, he, hparse⟩ := FactReader.exists_entry h.after hmem
    rcases Keyed.of_mem_entries_foldl_insert he with hfile | hsource
    · have hgenerated := isGenerated_of_mem_files h.texts hfile hparse
      rw [hu] at hgenerated
      cases hgenerated
    · obtain ⟨v, hv, hparse'⟩ := exists_mem_of_mapM (FactReader.compile_eq_ok h.before) hsource
      obtain rfl : u = v := Except.ok.inj (hparse.symm.trans hparse')
      exact hv
  · intro hmem
    obtain ⟨e, he, hparse⟩ := FactReader.exists_entry h.before hmem
    have hne : ∀ x ∈ out.files, x.1 ≠ e.1 := by
      intro x hx heq
      have hgenerated := hreplaces e he x hx heq u hparse
      rw [hu] at hgenerated
      cases hgenerated
    obtain ⟨v, hv, hparse'⟩ := exists_mem_of_mapM (FactReader.compile_eq_ok h.after)
      (Keyed.mem_entries_foldl_insert_of_ne he hne)
    obtain rfl : u = v := Except.ok.inj (hparse.symm.trans hparse')
    exact hv

/-- The code of users is the same before and after. -/
theorem userUnits_eq
    (h : g.Pass schema sources options m out before after)
    (hreplaces : ReplacesGenerated g sources out) :
    after.userUnits = before.userUnits := by
  have hinjective : Function.Injective fun u : CompilationUnit => (u.file, u) :=
    fun _ _ heq => congrArg Prod.snd heq
  have hmem : ∀ u, u ∈ after.userUnits ↔ u ∈ before.userUnits := by
    intro u
    unfold Compilation.userUnits
    simp only [List.mem_filter, Bool.not_eq_true', and_congr_left_iff]
    exact h.mem_units_iff hreplaces
  refine hinjective.list_map (Keyed.eq_of_mem_iff ?_ ?_ fun x => ?_)
  · exact List.pairwise_map.2 ((FactReader.sorted_units h.after).filter _)
  · exact List.pairwise_map.2 ((FactReader.sorted_units h.before).filter _)
  · simp only [List.mem_map, hmem]

end Generator.Pass

/-! ## Passes over given code -/

namespace Generator

/-- Whether options, a model and code are such that what is generated is known to compile. -/
def isReadable (options : CodeOptions) (m : CodeModel) (before : Compilation) : Bool :=
  decide (options.modelsNamespace = none ∧ options.usingNamespaces = [] ∧
    options.modelsBaseClass = none ∧
    (∀ t ∈ m.models, t.name ∉ reservedClassNames ∧
      ∀ p ∈ t.properties, readsTypeText ⟨.standard, 1⟩ p.valueType = true) ∧
    ∀ u ∈ before.units, ∀ d ∈ u.types, d.isPartial = true)

/-- What a pass with the standard settings goes through before it generates. -/
structure Prepared (g : Generator) (schema : List ContentType) (sources : SourceFiles)
    (options : CodeOptions) (m : CodeModel) (before : Compilation) (l : Layout) : Prop where
  settings : ofSettings .standard = .ok g
  collect : g.collect sources = .ok options
  model : g.model schema sources = .ok m
  readable : isReadable options m before = true
  before : g.reader.compile sources = .ok before
  layout : Layout.ofSettings .standard m.usingNamespaces = .ok l

variable {g : Generator} {schema : List ContentType} {sources : SourceFiles} {options : CodeOptions}
  {m : CodeModel} {before : Compilation} {l : Layout}

/-- What holds of all that a pass goes through can be computed. -/
theorem exists_prepared
    {P : Generator → CodeOptions → CodeModel → Compilation → Layout → Bool}
    (h : (do
      let g ← ofSettings .standard
      let options ← g.collect sources
      let m ← CodeModel.build g.settings g.strategies schema options
      let before ← g.reader.compile sources
      let l ← Layout.ofSettings .standard m.usingNamespaces
      return isReadable options m before && P g options m before l).toOption = some true) :
    ∃ g options m before l, Prepared g schema sources options m before l ∧
      P g options m before l = true := by
  obtain ⟨g, hg, h⟩ := bind_eq_ok.1 (ok_of_toOption h)
  obtain ⟨options, hoptions, h⟩ := bind_eq_ok.1 h
  obtain ⟨m, hm, h⟩ := bind_eq_ok.1 h
  obtain ⟨before, hbefore, h⟩ := bind_eq_ok.1 h
  obtain ⟨l, hl, h⟩ := bind_eq_ok.1 h
  obtain ⟨hreadable, hP⟩ := (Bool.and_eq_true _ _).mp (Except.ok.inj h)
  exact ⟨g, options, m, before, l,
    ⟨hg, hoptions, bind_eq_ok.2 ⟨options, hoptions, hm⟩, hreadable, hbefore, hl⟩, hP⟩

theorem Prepared.isReadable_options
    (h : Prepared g schema sources options m before l) :
    options.IsReadable := by
  obtain ⟨hnamespace, husings, hbase, -⟩ := of_decide_eq_true h.readable
  exact ⟨by simp [hnamespace], by simp [husings], by simp [hbase]⟩

theorem Prepared.isReadable_model
    (h : Prepared g schema sources options m before l) :
    m.IsReadable :=
  CodeModel.isReadable_of_reads _ (of_decide_eq_true h.readable).2.2.2.1

/-- A pass generates what it is prepared for. -/
theorem Prepared.exists_generate
    (h : Prepared g schema sources options m before l) (hschema : ∀ t ∈ schema, t.IsOneLine) :
    ∃ out, g.generate schema sources = .ok out := by
  refine Generator.exists_generate h.settings Settings.isReadable_standard h.collect
    h.isReadable_options hschema h.model h.isReadable_model fun e he => ?_
  obtain ⟨u, hu, hparse⟩ := exists_mem_of_mapM (FactReader.compile_eq_ok h.before) he
  exact ⟨u, hparse, (of_decide_eq_true h.readable).2.2.2.2 u hu⟩

theorem Prepared.exists_pass
    (h : Prepared g schema sources options m before l) (hschema : ∀ t ∈ schema, t.IsOneLine) :
    ∃ out after, g.generate schema sources = .ok out ∧
      g.Pass schema sources options m out before after := by
  obtain ⟨out, hout⟩ := h.exists_generate hschema
  obtain ⟨options', m', before', after, hpass⟩ := Generator.exists_pass hout
  obtain rfl : options = options' := Except.ok.inj (h.collect.symm.trans hpass.collect)
  obtain rfl : m = m' := Except.ok.inj
    (h.model.symm.trans (bind_eq_ok.2 ⟨options, hpass.collect, hpass.build⟩))
  obtain rfl : before = before' := Except.ok.inj (h.before.symm.trans hpass.before)
  exact ⟨out, after, hout, hpass⟩

end Generator

/-- A page that is composed of texts for search engines. -/
def pageSchema : List ContentType :=
  [CodeModel.typeWith 1 "seo" none [], CodeModel.typeWith 2 "page" none [1]]

theorem isOneLine_pageSchema :
    ∀ t ∈ pageSchema, t.IsOneLine := by
  decide +kernel

end ContentModels

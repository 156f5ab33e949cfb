import ContentModels.Generation
import ContentModels.Proofs.Compilation
import ContentModels.Proofs.Generated.Text
import ContentModels.Proofs.Lists
import ContentModels.Proofs.Tables

/-!
# Generating again

Generated files that are put next to the code of users contribute types for names to
denote and nothing else.  What a second pass reads from the code of users depends on
these types only by what each entry of a base list is taken for, by which attributes
are markers, and by the full name of the base class for all models: if these stay as
they were, the second pass generates what the first one did.

The condition cannot be dropped.  An entry that denotes nothing is taken for a base class
if it is the first of its list and for an interface otherwise, and the generated code may
give it a denotation of the other kind (`baseFact_eq_iff`).
-/

namespace ContentModels

open CSharp

/-! ### What names in code are taken for -/

/-- What an entry of a base list is taken for. -/
inductive BaseRole where
  | interface
  /-- A base class that is generated, so that declaring it says nothing. -/
  | generatedBase
  | declaredBase
deriving DecidableEq, Repr

namespace FactReader

/-- What an entry of a base list is taken for, by what it denotes. -/
def baseRole
    (r : FactReader) (c : Compilation) (t : TypeDeclaration) (index : Nat) (base : TypeName) :
    BaseRole :=
  let denoted := c.resolve base (.ofType t)
  let isInterface := t.kind == .interfaceType ||
    match denoted with
    | some s => s.kind == .interfaceType
    | none => 0 < index
  if isInterface then .interface
  else if r.isGeneratedBase base denoted then .generatedBase
  else .declaredBase

/-- What an entry of a base list declares in a role. -/
def roleFindings (t : TypeDeclaration) (base : TypeName) : BaseRole → List Finding
  | .interface => [.ok (.interface t.name base.displayName)]
  | .generatedBase => []
  | .declaredBase => [.ok (.baseClass t.name base.displayName)]

theorem baseFact_eq_roleFindings
    (r : FactReader) (c : Compilation) (t : TypeDeclaration) (index : Nat) (base : TypeName) :
    r.baseFact c t index base = roleFindings t base (r.baseRole c t index base) := by
  unfold baseFact baseRole
  generalize c.resolve base (.ofType t) = denoted
  dsimp only
  generalize (t.kind == .interfaceType || _) = isInterface
  cases isInterface with
  | true => rfl
  | false => cases hg : r.isGeneratedBase base denoted <;> rfl

/-- An entry declares the same in two compilations exactly if it has one role in both. -/
theorem baseFact_eq_iff
    (r : FactReader) (c d : Compilation) (t : TypeDeclaration) (index : Nat) (base : TypeName) :
    r.baseFact c t index base = r.baseFact d t index base ↔
      r.baseRole c t index base = r.baseRole d t index base := by
  rw [baseFact_eq_roleFindings, baseFact_eq_roleFindings]
  cases r.baseRole c t index base <;> cases r.baseRole d t index base <;> simp [roleFindings]

/-- The names in a type are taken for the same in two compilations. -/
structure KeepsType (r : FactReader) (c d : Compilation) (t : TypeDeclaration) : Prop where
  markers : ∀ a ∈ t.attributes,
    Marker.identify? a c (.ofType t) = Marker.identify? a d (.ofType t)
  bases : ∀ x ∈ t.baseList.zipIdx, r.baseRole c t x.2 x.1 = r.baseRole d t x.2 x.1
  memberMarkers : ∀ m ∈ t.members, ∀ a ∈ m.attributes,
    Marker.identify? a c (.ofType t) = Marker.identify? a d (.ofType t)

/-- The names in a file are taken for the same in two compilations. -/
structure KeepsUnit (r : FactReader) (c d : Compilation) (u : CompilationUnit) : Prop where
  markers : ∀ a ∈ u.assemblyAttributes,
    Marker.identify? a c (.ofFile u) = Marker.identify? a d (.ofFile u)
  modelsBaseClass : ∀ a ∈ u.assemblyAttributes, ∀ name,
    Marker.modelsBaseClass.typeArgument a u.file = .ok name →
      (c.resolve name (.ofFile u)).map (·.fullName) =
        (d.resolve name (.ofFile u)).map (·.fullName)
  types : ∀ t ∈ u.types, isModelDeclaration t = true → r.KeepsType c d t

/-- The names in the code that users write are taken for the same when files are added to it. -/
def KeepsNames (r : FactReader) (sources extended : SourceFiles) : Prop :=
  ∀ c d, r.compile sources = .ok c → r.compile extended = .ok d →
    ∀ u ∈ c.units, u.isGenerated = false → r.KeepsUnit c d u

section Reading

variable {r : FactReader} {c d : Compilation}

theorem typeFacts_eq
    {t : TypeDeclaration}
    (h : r.KeepsType c d t) (file : String) :
    r.typeFacts c file t = r.typeFacts d file t := by
  unfold typeFacts
  congr 1
  · congr 1
    · refine flatMap_congr fun a ha => ?_
      rw [h.markers a ha]
    · refine flatMap_congr fun x hx => ?_
      exact (r.baseFact_eq_iff c d t x.2 x.1).2 (h.bases x hx)
  · refine flatMap_congr fun m hm => ?_
    unfold memberFacts
    congr 1
    refine flatMap_congr fun a ha => ?_
    unfold memberFact
    rw [h.memberMarkers m hm a ha]

/-- A marker on an assembly declares the same if the base class for all models has one full name. -/
theorem assemblyFact_eq
    {scope : Scope} {file : String} {a : AttributeUse} {m : Marker}
    (h : m = .modelsBaseClass → ∀ name, Marker.modelsBaseClass.typeArgument a file = .ok name →
      (c.resolve name scope).map (·.fullName) = (d.resolve name scope).map (·.fullName)) :
    assemblyFact c scope file a m = assemblyFact d scope file a m := by
  cases m with
  | modelsBaseClass =>
    cases hname : Marker.modelsBaseClass.typeArgument a file with
    | error e => simp only [assemblyFact, hname]
    | ok name =>
      have hfull := h rfl name hname
      simp only [assemblyFact, hname]
      cases hc : c.resolve name scope with
      | none =>
        cases hd : d.resolve name scope with
        | none => rfl
        | some s => simp [hc, hd] at hfull
      | some s =>
        cases hd : d.resolve name scope with
        | none => simp [hc, hd] at hfull
        | some s' =>
          have : s.fullName = s'.fullName := by simpa [hc, hd] using hfull
          simp only [this]
  | _ => rfl

theorem assemblyFacts_eq
    {u : CompilationUnit}
    (hmarkers : ∀ a ∈ u.assemblyAttributes,
      Marker.identify? a c (.ofFile u) = Marker.identify? a d (.ofFile u))
    (hbase : ∀ a ∈ u.assemblyAttributes, Marker.identify? a d (.ofFile u) = some .modelsBaseClass →
      ∀ name, Marker.modelsBaseClass.typeArgument a u.file = .ok name →
        (c.resolve name (.ofFile u)).map (·.fullName) =
          (d.resolve name (.ofFile u)).map (·.fullName)) :
    assemblyFacts c u = assemblyFacts d u := by
  unfold assemblyFacts
  refine flatMap_congr fun a ha => ?_
  rw [hmarkers a ha]
  cases hm : Marker.identify? a d (.ofFile u) with
  | none => rfl
  | some m => exact assemblyFact_eq fun heq => hbase a ha (heq ▸ hm)

/-- A file of users declares the same if its attributes and its types do. -/
theorem unitFacts_eq
    {u : CompilationUnit}
    (hassembly : assemblyFacts c u = assemblyFacts d u)
    (htypes : ∀ t ∈ u.types, isModelDeclaration t = true → r.KeepsType c d t) :
    r.unitFacts c u = r.unitFacts d u := by
  unfold unitFacts
  rw [hassembly]
  congr 2
  refine flatMap_congr fun t ht => ?_
  obtain ⟨hmem, hmodel⟩ := List.mem_filter.1 ht
  exact typeFacts_eq (htypes t hmem hmodel) u.file

theorem KeepsUnit.unitFacts_eq
    {u : CompilationUnit}
    (h : r.KeepsUnit c d u) :
    r.unitFacts c u = r.unitFacts d u :=
  FactReader.unitFacts_eq (assemblyFacts_eq h.markers fun a ha _ => h.modelsBaseClass a ha) h.types

end Reading
end FactReader

/-! ### Files next to each other -/

/-- Whether a file goes by the name of a generated one. -/
def isGeneratedName (name : String) : Bool :=
  Generated.suffix.toList.isSuffixOf name.toList

namespace GeneratedModels

theorem isGeneratedName_of_mem_files
    {out : GeneratedModels} {e : String × String}
    (h : e ∈ out.files) :
    isGeneratedName e.1 = true := by
  unfold files at h
  obtain ⟨x, -, rfl⟩ := List.mem_map.1 h
  unfold isGeneratedName Generated.fileName
  rw [List.isSuffixOf_iff_suffix, String.toList_append]
  exact List.suffix_append _ _

/-- The files of users among source files and generated files. -/
theorem filter_addTo
    {out : GeneratedModels} {sources : SourceFiles}
    (h : ∀ e ∈ sources.entries, isGeneratedName e.1 = false) :
    (out.addTo sources).entries.filter (fun e => !isGeneratedName e.1) = sources.entries := by
  unfold addTo
  exact Keyed.filter_foldl_insert (p := fun name => !isGeneratedName name)
    (fun e he => by rw [h e he]; rfl)
    (fun e he => by rw [isGeneratedName_of_mem_files he]; rfl)

theorem addTo_addTo
    (out : GeneratedModels) (sources : SourceFiles) :
    out.addTo (out.addTo sources) = out.addTo sources :=
  Keyed.foldl_insert_idem out.files sources

end GeneratedModels

/-! ### The second pass -/

namespace Generator

open Outcome

variable {g : Generator} {schema : List ContentType} {sources : SourceFiles}
  {out : GeneratedModels}

/-- The steps of a pass that succeeds. -/
theorem generate_eq_ok :
    g.generate schema sources = .ok out ↔
      ∃ m, g.model schema sources = .ok m ∧
        Generated.texts g.settings m = .ok out.texts ∧
        out.modelsNamespace = m.modelsNamespace ∧
        g.reader.validate (out.addTo sources) = .ok () := by
  unfold generate
  rw [bind_eq_ok]
  constructor
  · rintro ⟨m, hm, h⟩
    obtain ⟨texts, htexts, h⟩ := bind_eq_ok.1 h
    obtain ⟨_, hvalid, h⟩ := bind_eq_ok.1 h
    cases h
    exact ⟨m, hm, htexts, rfl, hvalid⟩
  · rintro ⟨m, hm, htexts, hns, hvalid⟩
    refine ⟨m, hm, bind_eq_ok.2 ⟨out.texts, htexts, bind_eq_ok.2 ⟨(), ?_, ?_⟩⟩⟩
    · rw [← hns]
      exact hvalid
    · rw [← hns]
      rfl

/-- What is read from generated files is known as generated. -/
theorem isGenerated_of_mem_files
    {settings : Settings} {m : CodeModel} {e : String × String} {unit : CompilationUnit}
    {version : LanguageVersion}
    (htexts : Generated.texts settings m = .ok out.texts) (he : e ∈ out.files)
    (hunit : parseUnit e.1 e.2 version = .ok unit) :
    unit.isGenerated = true := by
  obtain ⟨l, -, hl⟩ := bind_eq_ok.1 htexts
  simp only [pure, Except.pure, Except.ok.injEq] at hl
  obtain ⟨x, hx, rfl⟩ := List.mem_map.1 he
  rw [← hl] at hx
  obtain ⟨model, -, hfile⟩ := List.mem_map.1 (Generated.of_mem_byClass hx)
  rw [show x.2 = l.file m.modelsNamespace (l.types m.models model) by rw [← hfile]] at hunit
  exact Generated.isGenerated_file hunit

end Generator

namespace FactReader

open Outcome

variable {r : FactReader} {sources : SourceFiles} {c : Compilation}

/-- Files that a tool has written declare nothing. -/
theorem unitFacts_of_isGenerated
    {u : CompilationUnit} (h : u.isGenerated = true) :
    r.unitFacts c u = [] := by
  unfold unitFacts
  rw [if_pos h]

/-- Files next to which a tool has written others declare what they declare alone. -/
theorem findings_eq_of_generated
    {extended : SourceFiles} {d : Compilation}
    (hkept : ∀ e ∈ sources.entries, e ∈ extended.entries)
    (hgenerated : ∀ e ∈ extended.entries, e ∉ sources.entries →
      ∀ u, parseUnit e.1 e.2 r.version = .ok u → u.isGenerated = true)
    (hc : r.compile sources = .ok c) (hd : r.compile extended = .ok d)
    (hsame : ∀ u ∈ c.units, u.isGenerated = false → r.unitFacts c u = r.unitFacts d u) :
    r.findings d = r.findings c := by
  have hfilter : extended.entries.filter (fun e => decide (e ∈ sources.entries)) =
      sources.entries := by
    refine Keyed.eq_of_mem_iff (extended.sorted.filter _) sources.sorted fun e => ?_
    rw [List.mem_filter, decide_eq_true_iff]
    exact ⟨And.right, fun he => ⟨hkept e he, he⟩⟩
  have hdrop : ∀ e ∈ extended.entries, decide (e ∈ sources.entries) = false →
      ∀ u, parseUnit e.1 e.2 r.version = .ok u → r.unitFacts d u = [] := fun e he hnew u hu =>
    unitFacts_of_isGenerated (hgenerated e he (of_decide_eq_false hnew) u hu)
  obtain ⟨units, hunits, heq⟩ := mapM_filter_flatMap hdrop (compile_eq_ok hd)
  rw [hfilter, compile_eq_ok hc] at hunits
  cases hunits
  unfold findings
  rw [heq]
  refine flatMap_congr fun u hu => ?_
  cases hg : u.isGenerated with
  | true => rw [unitFacts_of_isGenerated hg, unitFacts_of_isGenerated hg]
  | false => exact (hsame u hu hg).symm

/-- A second pass reads what the first one did if names are taken for the same. -/
theorem read_addTo
    {out : GeneratedModels} {declarations : List Declaration}
    (hkeys : ∀ e ∈ sources.entries, isGeneratedName e.1 = false)
    (hread : r.read sources = .ok declarations)
    (hvalid : r.validate (out.addTo sources) = .ok ())
    (hgenerated : ∀ e ∈ out.files, ∀ unit, parseUnit e.1 e.2 r.version = .ok unit →
      unit.isGenerated = true)
    (hkeep : r.KeepsNames sources (out.addTo sources)) :
    r.read (out.addTo sources) = .ok declarations := by
  obtain ⟨c, hc, hfindings⟩ := bind_eq_ok.1 hread
  obtain ⟨d, hd, -⟩ := bind_eq_ok.1 hvalid
  refine bind_eq_ok.2 ⟨d, hd, ?_⟩
  have hsame : r.findings d = r.findings c := by
    refine findings_eq_of_generated (fun e he => ?_) (fun e he hnew => hgenerated e ?_) hc hd
      fun u hu hg => (hkeep c d hc hd u hu hg).unitFacts_eq
    · rw [← @GeneratedModels.filter_addTo out sources hkeys] at he
      exact (List.mem_filter.1 he).1
    · exact (Keyed.of_mem_entries_foldl_insert he).resolve_right hnew
  rw [hsame]
  exact hfindings

end FactReader

namespace Generator

open Outcome

variable {g : Generator} {schema : List ContentType} {sources : SourceFiles}
  {out : GeneratedModels}

/-- A pass over code and what was generated for it generates the same once more. -/
theorem generate_addTo
    (hkeys : ∀ e ∈ sources.entries, isGeneratedName e.1 = false)
    (hout : g.generate schema sources = .ok out)
    (hkeep : g.reader.KeepsNames sources (out.addTo sources)) :
    g.generate schema (out.addTo sources) = .ok out := by
  obtain ⟨m, hm, htexts, hns, hvalid⟩ := generate_eq_ok.1 hout
  refine generate_eq_ok.2 ⟨m, ?_, htexts, hns, ?_⟩
  · obtain ⟨options, hoptions, hbuild⟩ := bind_eq_ok.1 hm
    obtain ⟨declarations, hread, hcollect⟩ := bind_eq_ok.1 hoptions
    have hagain := FactReader.read_addTo hkeys hread hvalid
      (fun e he unit hunit => isGenerated_of_mem_files htexts he hunit) hkeep
    exact bind_eq_ok.2 ⟨options, bind_eq_ok.2 ⟨declarations, hagain, hcollect⟩, hbuild⟩
  · rw [GeneratedModels.addTo_addTo]
    exact hvalid

/-- With the standard settings there is nothing to generate for no content types. -/
theorem exists_generate_nil :
    ∃ g, Generator.ofSettings .standard = .ok g ∧
      g.generate [] .empty = .ok ⟨"Umbraco.Web.PublishedModels", []⟩ := by
  have h : (do
      let g ← Generator.ofSettings .standard
      g.generate [] .empty).toOption = some ⟨"Umbraco.Web.PublishedModels", []⟩ := by
    decide +kernel
  obtain ⟨g, hg, h⟩ := bind_eq_ok.1 (ok_of_toOption h)
  exact ⟨g, hg, h⟩

end Generator
end ContentModels

import ContentModels.Proofs.Regeneration

/-!
# Files that a tool has written

Next to the code of users, files that a tool has written only give names something to denote.
What is read from the code of users depends on them only by what the entries of base lists, the
names of attributes and the base class for all models denote, and of that only by full name
and kind: where these stay, the same declarations are read, or the same failure is met behind
the same declarations (`read_extended`).
-/

namespace ContentModels

open CSharp Outcome

/-! ### What names denote in two compilations -/

/-- Two names denote types with one full name and kind, or both denote nothing. -/
def CSharp.DenoteAlike (s t : Option Symbol) : Prop :=
  s.map (fun s => (s.fullName, s.kind)) = t.map fun s => (s.fullName, s.kind)

instance (s t : Option Symbol) : Decidable (DenoteAlike s t) :=
  inferInstanceAs (Decidable (_ = _))

/-- The types that an attribute has as arguments by position. -/
def CSharp.AttributeUse.typeArguments (a : AttributeUse) : List TypeName :=
  a.positional.filterMap fun
    | .typeOf t => some t
    | _ => none

/--
The names in a file that facts are read from denote alike in two compilations: the entries of
base lists, the names of attributes, and the base class for all models.
-/
structure CSharp.CompilationUnit.DenotesAlike (u : CompilationUnit) (c d : Compilation) : Prop where
  assemblyAttributes : ∀ a ∈ u.assemblyAttributes,
    DenoteAlike (c.resolveAttribute a.name (.ofFile u)) (d.resolveAttribute a.name (.ofFile u))
  modelsBaseClass : ∀ a ∈ u.assemblyAttributes,
    Marker.identify? a c (.ofFile u) = some .modelsBaseClass → ∀ name ∈ a.typeArguments,
      DenoteAlike (c.resolve name (.ofFile u)) (d.resolve name (.ofFile u))
  baseLists : ∀ t ∈ u.types, ∀ base ∈ t.baseList,
    DenoteAlike (c.resolve base (.ofType t)) (d.resolve base (.ofType t))
  typeAttributes : ∀ t ∈ u.types, ∀ a ∈ t.attributes,
    DenoteAlike (c.resolveAttribute a.name (.ofType t)) (d.resolveAttribute a.name (.ofType t))
  memberAttributes : ∀ t ∈ u.types, ∀ m ∈ t.members, ∀ a ∈ m.attributes,
    DenoteAlike (c.resolveAttribute a.name (.ofType t)) (d.resolveAttribute a.name (.ofType t))

instance (u : CompilationUnit) (c d : Compilation) : Decidable (u.DenotesAlike c d) :=
  decidable_of_iff (_ ∧ _ ∧ _ ∧ _ ∧ _)
    ⟨fun ⟨hassembly, hmodels, hbases, htypes, hmembers⟩ =>
      ⟨hassembly, hmodels, hbases, htypes, hmembers⟩,
    fun h => ⟨h.assemblyAttributes, h.modelsBaseClass, h.baseLists, h.typeAttributes,
      h.memberAttributes⟩⟩

namespace Marker

/-- A marker is known by the full name of what its name denotes. -/
theorem identify?_eq
    {a : AttributeUse} {c d : Compilation} {scope scope' : Scope}
    (h : DenoteAlike (c.resolveAttribute a.name scope) (d.resolveAttribute a.name scope')) :
    identify? a c scope = identify? a d scope' := by
  unfold identify?
  congr 1
  funext m
  unfold DenoteAlike at h
  cases hc : c.resolveAttribute a.name scope with
  | none =>
    cases hd : d.resolveAttribute a.name scope' with
    | none => rfl
    | some s => simp [hc, hd] at h
  | some s =>
    cases hd : d.resolveAttribute a.name scope' with
    | none => simp [hc, hd] at h
    | some s' =>
      obtain ⟨hname, -⟩ : s.fullName = s'.fullName ∧ s.kind = s'.kind := by
        simpa [hc, hd] using h
      simp only [isDenotedBy, hname]

theorem mem_typeArguments
    {m : Marker} {a : AttributeUse} {file : String} {name : TypeName}
    (h : m.typeArgument a file = .ok name) :
    name ∈ a.typeArguments := by
  unfold typeArgument at h
  unfold AttributeUse.typeArguments
  split at h
  · rename_i t hpositional
    cases h
    simp [hpositional]
  · cases h
  · cases h

end Marker

namespace FactReader

variable {r : FactReader} {c d : Compilation} {sources extended : SourceFiles}

/-- What an entry of a base list is taken for depends on the full name and kind that it denotes. -/
theorem baseRole_eq
    {t t' : TypeDeclaration} {base : TypeName} (index : Nat) (hkind : t.kind = t'.kind)
    (h : DenoteAlike (c.resolve base (.ofType t)) (d.resolve base (.ofType t'))) :
    r.baseRole c t index base = r.baseRole d t' index base := by
  unfold DenoteAlike at h
  unfold baseRole
  rw [hkind]
  cases hc : c.resolve base (.ofType t) with
  | none =>
    cases hd : d.resolve base (.ofType t') with
    | none => rfl
    | some s => simp [hc, hd] at h
  | some s =>
    cases hd : d.resolve base (.ofType t') with
    | none => simp [hc, hd] at h
    | some s' =>
      obtain ⟨hname, hkind⟩ : s.fullName = s'.fullName ∧ s.kind = s'.kind := by
        simpa [hc, hd] using h
      simp only [isGeneratedBase, Option.any_some, hname, hkind]
      rfl

/-- A file in which names denote alike declares the same. -/
theorem unitFacts_eq_of_denotesAlike
    {u : CompilationUnit} (h : u.DenotesAlike c d) :
    r.unitFacts c u = r.unitFacts d u := by
  have hmarkers := fun a ha => Marker.identify?_eq (h.assemblyAttributes a ha)
  refine unitFacts_eq (assemblyFacts_eq hmarkers fun a ha hmarker name hname => ?_)
    fun t ht _ => ⟨fun a ha => ?_, fun x hx => ?_, fun m hm a ha => ?_⟩
  · rw [← hmarkers a ha] at hmarker
    have hdenotes := h.modelsBaseClass a ha hmarker name (Marker.mem_typeArguments hname)
    simpa [Option.map_map, Function.comp_def] using congrArg (Option.map Prod.fst) hdenotes
  · exact Marker.identify?_eq (h.typeAttributes t ht a ha)
  · exact baseRole_eq x.2 rfl (h.baseLists t ht x.1 (List.fst_mem_of_mem_zipIdx hx))
  · exact Marker.identify?_eq (h.memberAttributes t ht m hm a ha)

/-- A file declares the same where full names denote the same. -/
theorem unitFacts_congr
    (h : ∀ fullName arity, c.symbol? fullName arity = d.symbol? fullName arity)
    (u : CompilationUnit) :
    r.unitFacts c u = r.unitFacts d u := by
  refine unitFacts_eq_of_denotesAlike ⟨?_, ?_, ?_, ?_, ?_⟩ <;> intros <;>
    simp only [Compilation.resolve_congr h, Compilation.resolveAttribute_congr h, DenoteAlike]

/-! ### Reading code next to generated files -/

/-- Source files are extended by files that a tool has written. -/
structure AddsGenerated (r : FactReader) (sources extended : SourceFiles) : Prop where
  kept : ∀ e ∈ sources.entries, e ∈ extended.entries
  generated : ∀ e ∈ extended.entries, e ∉ sources.entries →
    ∀ u, parseUnit e.1 e.2 r.version = .ok u → u.isGenerated = true

/--
Files that a tool has written change nothing that is read as long as the names in the code of
users denote alike: neither the declarations, nor the failure and what is declared before it.
-/
theorem read_extended
    (hadds : r.AddsGenerated sources extended)
    (hc : r.compile sources = .ok c) (hd : r.compile extended = .ok d)
    (hnames : ∀ u ∈ c.units, u.isGenerated = false → u.DenotesAlike c d) :
    r.read extended = r.read sources ∧
      r.readUpToFailure extended = r.readUpToFailure sources := by
  have hfindings : r.findings d = r.findings c :=
    findings_eq_of_generated hadds.kept hadds.generated hc hd fun u hu hg =>
      unitFacts_eq_of_denotesAlike (hnames u hu hg)
  constructor
  · show (r.compile extended >>= fun c => (r.findings c).mapM id) =
      r.compile sources >>= fun c => (r.findings c).mapM id
    rw [hc, hd]
    exact congrArg (List.mapM id) hfindings
  · unfold readUpToFailure
    rw [hc, hd]
    exact congrArg readUpToFailure.upTo hfindings

/-- Code with a base class for all models and a page that implements a property. -/
def basedSources : SourceFiles :=
  .ofList [("Page.cs", "[assembly: ModelsBaseClass(typeof(Base))] class Base \x7b \x7d " ++
    "partial class Page : Base \x7b [ImplementPropertyType(\"title\")] string Title => null; \x7d")]

/-- The same code with a part of pages that a tool has written. -/
def basedFiles : SourceFiles :=
  basedSources.insert "Page.generated.cs"
    "// <auto-generated>\npartial class Page : Base \x7b \x7d"

/-- The part that a tool has written changes nothing that is read from the code. -/
theorem read_extended_page :
    ∃ c d, (ofVersion .standard).compile basedSources = .ok c ∧
      (ofVersion .standard).compile basedFiles = .ok d ∧
      (ofVersion .standard).AddsGenerated basedSources basedFiles ∧
      (∀ u ∈ c.units, u.isGenerated = false → u.DenotesAlike c d) ∧
      (ofVersion .standard).read basedFiles = (ofVersion .standard).read basedSources := by
  have hcompile : (do
      let c ← (ofVersion .standard).compile basedSources
      let d ← (ofVersion .standard).compile basedFiles
      return decide (∀ u ∈ c.units, u.isGenerated = false → u.DenotesAlike c d)).toOption =
        some true := by
    decide +kernel
  have hfiles : (∀ e ∈ basedSources.entries, e ∈ basedFiles.entries) ∧
      ∀ e ∈ basedFiles.entries, e ∉ basedSources.entries →
        (parseUnit e.1 e.2 .standard).toOption.all (·.isGenerated) = true := by
    decide +kernel
  obtain ⟨c, hc, h⟩ := bind_eq_ok.1 (ok_of_toOption hcompile)
  obtain ⟨d, hd, h⟩ := bind_eq_ok.1 h
  have hnames := of_decide_eq_true (Except.ok.inj h)
  have hadds : (ofVersion .standard).AddsGenerated basedSources basedFiles :=
    ⟨hfiles.1, fun e he hnew u hu => by
      have hmark := hfiles.2 e he hnew
      rwa [show parseUnit e.1 e.2 .standard = .ok u from hu] at hmark⟩
  exact ⟨c, d, hc, hd, hadds, hnames, (read_extended hadds hc hd hnames).1⟩

end FactReader
end ContentModels

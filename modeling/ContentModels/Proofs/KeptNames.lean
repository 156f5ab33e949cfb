import ContentModels.Proofs.InertFiles
import ContentModels.Proofs.PartsFit

/-!
# Code that names generated types

A second pass generates the same if the names in the code of users are taken for the same when
the generated types are there to be denoted.  Most names cannot stand for a generated type at all
(`CodeModel.Spares`).  An entry of a base list may be the simple name of one.  As long as it
denotes nothing it is taken for a base class if it is the first and for an interface otherwise,
so the generated type has to be a class or an interface accordingly (`CodeModel.NamesType`).

Both can be decided before anything is generated.
-/

namespace ContentModels

open CSharp CSharp.Parse Generated Outcome

/-! ## What names in code are meant for -/

namespace CodeModel

/-- A name cannot stand for a generated type. -/
def Spares (m : CodeModel) (style : PropertyStyle) (scope : Scope) (name : TypeName) : Prop :=
  ∀ x ∈ scope.candidates name, ¬ m.Generates style x.1

instance (m : CodeModel) (style : PropertyStyle) (scope : Scope) (name : TypeName) :
    Decidable (m.Spares style scope name) :=
  inferInstanceAs (Decidable (∀ x ∈ scope.candidates name, _))

/-- The name of an attribute cannot, with the ending `Attribute` or without. -/
def SparesAttribute (m : CodeModel) (style : PropertyStyle) (scope : Scope) (a : AttributeUse) :
    Prop :=
  ∀ name ∈ a.name :: (Compilation.suffixed? a.name).toList, m.Spares style scope name

instance (m : CodeModel) (style : PropertyStyle) (scope : Scope) (a : AttributeUse) :
    Decidable (m.SparesAttribute style scope a) :=
  inferInstanceAs (Decidable (∀ name ∈ a.name :: (Compilation.suffixed? a.name).toList, _))

/--
An entry of a base list, with its place, is the simple name of a generated type.  So far it denotes
this type, of which users write a part, or nothing.
-/
structure NamesType (m : CodeModel) (before : Compilation) (d : TypeDeclaration) (b : TypeName × Nat)
    (x : String × DeclarationKind) : Prop where
  name : b.1 = wordType x.1
  /-- What goes by the name of the type is a part of it. -/
  kinds : ∀ e ∈ before.declaredTypes, e.isPartOf (m.fullName x.1) = true → e.kind = x.2
  /-- No type that is nested in the class hides it. -/
  nested : before.symbol? (".".intercalate [m.modelsNamespace, d.name, x.1]) 0 = none
  denoted : ∀ s ∈ before.denoted (d, b.1),
    s.fullName = m.fullName x.1 ∧ s.kind = .ofDeclaration x.2
  /-- By its place it is taken for what the type is. -/
  place : before.denoted (d, b.1) = none → (x.2 = .interfaceType ↔ 0 < b.2)

instance (m : CodeModel) (before : Compilation) (d : TypeDeclaration) (b : TypeName × Nat)
    (x : String × DeclarationKind) : Decidable (m.NamesType before d b x) :=
  decidable_of_iff (_ ∧ _ ∧ _ ∧ _ ∧ _)
    ⟨fun ⟨hname, hkinds, hnested, hdenoted, hplace⟩ => ⟨hname, hkinds, hnested, hdenoted, hplace⟩,
      fun h => ⟨h.name, h.kinds, h.nested, h.denoted, h.place⟩⟩

/-- An entry of a base list names a type that is generated next to the class. -/
def NamesGenerated (m : CodeModel) (before : Compilation) (d : TypeDeclaration)
    (b : TypeName × Nat) : Prop :=
  d.enclosing = m.modelsNamespace ∧ ∃ u ∈ m.models, ∃ x ∈ u.derivable, m.NamesType before d b x

instance (m : CodeModel) (before : Compilation) (d : TypeDeclaration) (b : TypeName × Nat) :
    Decidable (m.NamesGenerated before d b) :=
  inferInstanceAs (Decidable (_ ∧ _))

/-- What the names in a type are taken for does not change with the generated types. -/
structure SettlesType (m : CodeModel) (style : PropertyStyle) (before : Compilation)
    (d : TypeDeclaration) : Prop where
  attributes : ∀ a ∈ d.attributes, m.SparesAttribute style (.ofType d) a
  bases : ∀ b ∈ d.baseList.zipIdx,
    m.Spares style (.ofType d) b.1 ∨ m.NamesGenerated before d b
  memberAttributes : ∀ x ∈ d.members, ∀ a ∈ x.attributes, m.SparesAttribute style (.ofType d) a

instance (m : CodeModel) (style : PropertyStyle) (before : Compilation) (d : TypeDeclaration) :
    Decidable (m.SettlesType style before d) :=
  decidable_of_iff (_ ∧ _ ∧ _)
    ⟨fun ⟨hattributes, hbases, hmembers⟩ => ⟨hattributes, hbases, hmembers⟩,
      fun h => ⟨h.attributes, h.bases, h.memberAttributes⟩⟩

/-- What the names in a file are taken for does not change with the generated types. -/
structure SettlesUnit (m : CodeModel) (style : PropertyStyle) (before : Compilation)
    (u : CompilationUnit) : Prop where
  attributes : ∀ a ∈ u.assemblyAttributes, m.SparesAttribute style (.ofFile u) a
  typeArguments : ∀ a ∈ u.assemblyAttributes, ∀ name ∈ a.typeArguments,
    m.Spares style (.ofFile u) name
  types : ∀ d ∈ u.types, FactReader.isModelDeclaration d = true → m.SettlesType style before d

instance (m : CodeModel) (style : PropertyStyle) (before : Compilation) (u : CompilationUnit) :
    Decidable (m.SettlesUnit style before u) :=
  decidable_of_iff (_ ∧ _ ∧ _)
    ⟨fun ⟨hattributes, harguments, htypes⟩ => ⟨hattributes, harguments, htypes⟩,
      fun h => ⟨h.attributes, h.typeArguments, h.types⟩⟩

end CodeModel

/-! ## What names are taken for -/

namespace FactReader

variable {r : FactReader} {c c' : Compilation} {d : TypeDeclaration} {name : TypeName} {s : Symbol}

/-- A type that has the simple name of an entry makes no generated base class of it. -/
theorem isGeneratedBase_some
    (h : Text.lastSegment s.fullName = name.simpleName) :
    r.isGeneratedBase name (some s) = r.isGeneratedBase name none := by
  unfold isGeneratedBase
  congr 1
  funext full
  by_cases hfull : s.fullName = full
  · simp [← hfull, h]
  · simp [beq_eq_false_iff_ne.2 hfull]

/-- An entry is taken for the same if its place says the kind of what it denotes only later. -/
theorem baseRole_eq_of_place
    {i : Nat} (hbefore : c.resolve name (.ofType d) = none)
    (hafter : c'.resolve name (.ofType d) = some s)
    (hname : Text.lastSegment s.fullName = name.simpleName)
    (hkind : s.kind = .interfaceType ↔ 0 < i) :
    r.baseRole c d i name = r.baseRole c' d i name := by
  have hplace : (s.kind == .interfaceType) = decide (0 < i) := by
    rw [Bool.eq_iff_iff, beq_iff_eq, decide_eq_true_iff]
    exact hkind
  unfold baseRole
  rw [hbefore, hafter]
  simp only [hplace, isGeneratedBase_some hname]

end FactReader

namespace Generator.Pass

variable {g : Generator} {schema : List ContentType} {sources : SourceFiles} {options : CodeOptions}
  {m : CodeModel} {out : GeneratedModels} {before after : Compilation} {l : Layout}
  {d : TypeDeclaration} {u : CompilationUnit} {scope : Scope}

/-- Where no file of users has the name of a generated one, generated files declare generated types. -/
theorem declares_of_isGeneratedName
    (h : g.Pass schema sources options m out before after) (hreads : ReadsBack g m l)
    (hkeys : ∀ e ∈ sources.entries, isGeneratedName e.1 = false) (hu : u ∈ after.units)
    (hname : isGeneratedName u.file = true) (hd : d ∈ u.types) :
    ∃ t ∈ m.models, l.Declares m.modelsNamespace t d := by
  rcases h.of_mem_units hreads hu with hbefore | ⟨t, ht, -, hdeclares⟩
  · obtain ⟨e, he, hparse⟩ := FactReader.exists_entry h.before hbefore
    rw [file_of_parseUnit hparse, hkeys e he] at hname
    cases hname
  · exact ⟨t, ht, hdeclares d hd⟩

/-- The parts of a type that is not generated are the same before and after. -/
theorem filter_declaredTypes
    (h : g.Pass schema sources options m out before after) (hreads : ReadsBack g m l)
    (hkeys : ∀ e ∈ sources.entries, isGeneratedName e.1 = false)
    {p : TypeDeclaration → Bool}
    (hp : ∀ d, p d = true → ¬ m.Generates l.settings.propertyStyle d.fullName) :
    after.declaredTypes.filter p = before.declaredTypes.filter p := by
  have hdrop : ∀ e ∈ (out.addTo sources).entries, (!isGeneratedName e.1) = false →
      ∀ u, parseUnit e.1 e.2 g.reader.version = .ok u → u.types.filter p = [] := by
    intro e he hname u hparse
    obtain ⟨v, hv, hparse'⟩ := exists_mem_of_mapM (FactReader.compile_eq_ok h.after) he
    obtain rfl : u = v := Except.ok.inj (hparse.symm.trans hparse')
    rw [Bool.not_eq_false', ← file_of_parseUnit hparse] at hname
    rw [List.filter_eq_nil_iff]
    intro d hd hpd
    obtain ⟨t, ht, hdeclares⟩ := h.declares_of_isGeneratedName hreads hkeys hv hname hd
    exact hp d hpd (hdeclares.generates ht hreads.modelsNamespace)
  obtain ⟨units, hunits, heq⟩ := mapM_filter_flatMap hdrop (FactReader.compile_eq_ok h.after)
  rw [GeneratedModels.filter_addTo hkeys, FactReader.compile_eq_ok h.before] at hunits
  cases hunits
  unfold Compilation.declaredTypes
  rw [List.filter_flatMap, List.filter_flatMap]
  exact heq

/-- A full name that no generated type has denotes the same before and after. -/
theorem symbol?_eq
    (h : g.Pass schema sources options m out before after) (hreads : ReadsBack g m l)
    (hkeys : ∀ e ∈ sources.entries, isGeneratedName e.1 = false) {fullName : String}
    (hname : ¬ m.Generates l.settings.propertyStyle fullName) (arity : Nat) :
    after.symbol? fullName arity = before.symbol? fullName arity := by
  have hfind : ∀ ds : List TypeDeclaration,
      (ds.map Symbol.ofDeclaration).find? (fun s => s.arity == arity && s.fullName == fullName) =
        ((ds.filter fun d => d.arity == arity && d.fullName == fullName).head?).map
          Symbol.ofDeclaration := by
    intro ds
    rw [List.find?_map, List.head?_filter]
    rfl
  unfold Compilation.symbol?
  rw [Compilation.symbols_of_compile h.before, Compilation.symbols_of_compile h.after,
    List.find?_append, List.find?_append, hfind, hfind, h.filter_declaredTypes hreads hkeys]
  intro d hd hgenerates
  rw [Bool.and_eq_true, beq_iff_eq, beq_iff_eq] at hd
  exact hname (hd.2 ▸ hgenerates)

theorem resolve_eq
    (h : g.Pass schema sources options m out before after) (hreads : ReadsBack g m l)
    (hkeys : ∀ e ∈ sources.entries, isGeneratedName e.1 = false) {name : TypeName}
    (hspares : m.Spares l.settings.propertyStyle scope name) :
    before.resolve name scope = after.resolve name scope :=
  Compilation.resolve_eq_of_candidates fun x hx =>
    (h.symbol?_eq hreads hkeys (hspares x hx) x.2).symm

theorem identify?_eq
    (h : g.Pass schema sources options m out before after) (hreads : ReadsBack g m l)
    (hkeys : ∀ e ∈ sources.entries, isGeneratedName e.1 = false) {a : AttributeUse}
    (hspares : m.SparesAttribute l.settings.propertyStyle scope a) :
    Marker.identify? a before scope = Marker.identify? a after scope := by
  obtain ⟨hname, hsuffixed⟩ := List.forall_mem_cons.1 hspares
  refine Marker.identify?_eq ?_
  unfold Compilation.resolveAttribute
  cases hs : Compilation.suffixed? a.name with
  | none => exact congrArg _ (h.resolve_eq hreads hkeys hname)
  | some name =>
    have hspares' := hsuffixed name (by simp [hs])
    dsimp only
    rw [h.resolve_eq hreads hkeys hname, h.resolve_eq hreads hkeys hspares']
    rfl

/-- An entry that names a generated type is taken for what this type is. -/
theorem baseRole_eq
    (h : g.Pass schema sources options m out before after) (hreads : ReadsBack g m l)
    {b : TypeName × Nat} (hcontaining : d.containing = []) (hnames : m.NamesGenerated before d b) :
    g.reader.baseRole before d b.2 b.1 = g.reader.baseRole after d b.2 b.1 := by
  obtain ⟨henclosing, u, hu, x, hx, hnamed⟩ := hnames
  obtain ⟨s, hs, hsymbol, hkind⟩ :=
    h.denoted_wordType hreads hu hx hnamed.kinds hnamed.nested henclosing hcontaining
  rw [← hnamed.name] at hs
  have hfull := Compilation.fullName_of_symbol? hsymbol
  cases hbefore : before.denoted (d, b.1) with
  | some s' =>
    obtain ⟨hfull', hkind'⟩ := hnamed.denoted s' hbefore
    refine FactReader.baseRole_eq b.2 rfl ?_
    show (before.denoted (d, b.1)).map _ = (after.denoted (d, b.1)).map _
    rw [hbefore, hs, Option.map_some, Option.map_some, hfull, hfull', hkind, hkind']
  | none =>
    have hidentifier : isIdentifier x.1 = true :=
      h.isIdentifier_of_mem hu (mem_generated_of_derivable hx _)
    refine FactReader.baseRole_eq_of_place hbefore hs ?_ ?_
    · rw [hfull, hnamed.name]
      exact @Text.lastSegment_dotted [m.modelsNamespace] x.1 hidentifier
    · rw [hkind, ← hnamed.place hbefore]
      cases x.2 <;> decide

theorem keepsType
    (h : g.Pass schema sources options m out before after) (hreads : ReadsBack g m l)
    (hkeys : ∀ e ∈ sources.entries, isGeneratedName e.1 = false)
    (hmodel : FactReader.isModelDeclaration d = true)
    (hsettles : m.SettlesType l.settings.propertyStyle before d) :
    g.reader.KeepsType before after d where
  markers a ha := h.identify?_eq hreads hkeys (hsettles.attributes a ha)
  bases b hb := by
    rcases hsettles.bases b hb with hspares | hnames
    · exact FactReader.baseRole_eq b.2 rfl (congrArg _ (h.resolve_eq hreads hkeys hspares))
    · refine h.baseRole_eq hreads ?_ hnames
      exact List.isEmpty_iff.1 ((Bool.and_eq_true _ _).mp hmodel).1
  memberMarkers x hx a ha := h.identify?_eq hreads hkeys (hsettles.memberAttributes x hx a ha)

/-! ## Results -/

/--
The names in the code of users are taken for the same next to the generated files if none of
them can stand for a generated type, entries of base lists aside that are rightly placed.
-/
theorem keepsNames
    (h : g.Pass schema sources options m out before after) (hreads : ReadsBack g m l)
    (hkeys : ∀ e ∈ sources.entries, isGeneratedName e.1 = false)
    (hsettles : ∀ u ∈ before.units, u.isGenerated = false →
      m.SettlesUnit l.settings.propertyStyle before u) :
    g.reader.KeepsNames sources (out.addTo sources) := by
  intro c c' hc hc' u hu hmark
  obtain rfl : before = c := Except.ok.inj (h.before.symm.trans hc)
  obtain rfl : after = c' := Except.ok.inj (h.after.symm.trans hc')
  have hunit := hsettles u hu hmark
  refine ⟨fun a ha => h.identify?_eq hreads hkeys (hunit.attributes a ha),
    fun a ha name hname => ?_,
    fun d hd hmodel => h.keepsType hreads hkeys hmodel (hunit.types d hd hmodel)⟩
  rw [h.resolve_eq hreads hkeys (hunit.typeArguments a ha name (Marker.mem_typeArguments hname))]

end Generator.Pass

namespace Generator

/-- Home pages, and pages that are composed of texts for search engines. -/
def homeSchema : List ContentType :=
  [CodeModel.typeWith 1 "seo" none [], CodeModel.typeWith 2 "home" none [],
    CodeModel.typeWith 3 "page" none [1]]

/-- Code by which pages are home pages with a property of their own, and have a generated interface. -/
def homeSources : SourceFiles :=
  .ofList [("Page.cs", "namespace Umbraco.Web.PublishedModels \x7b " ++
    "public partial class Page : Home, ISeo \x7b " ++
    "[ImplementPropertyType(\"pageText\")] public string Text => null; \x7d \x7d")]

/-- The code names two generated types, and a second pass over it repeats the first. -/
theorem generate_addTo_home :
    ∃ (g : Generator) (out : GeneratedModels),
      ofSettings .standard = .ok g ∧
        (∀ e ∈ homeSources.entries, isGeneratedName e.1 = false) ∧
        g.generate homeSchema homeSources = .ok out ∧ out.texts.length = 3 ∧
          g.generate homeSchema (out.addTo homeSources) = .ok out := by
  have hkeys : ∀ e ∈ homeSources.entries, isGeneratedName e.1 = false := by decide +kernel
  have hschema : ∀ t ∈ homeSchema, t.IsOneLine := by decide +kernel
  obtain ⟨g, options, m, before, l, h, hshape⟩ := @exists_prepared homeSchema homeSources
    (fun _ _ m before l => decide (m.models.length = 3 ∧
      ∀ u ∈ before.units, m.SettlesUnit l.settings.propertyStyle before u))
    (by decide +kernel)
  obtain ⟨hlength, hsettles⟩ := of_decide_eq_true hshape
  obtain ⟨out, after, hout, hpass⟩ := h.exists_pass hschema
  have hreads := hpass.readsBack h.keepsSettings (h.isReadable hschema) h.ofSettings_layout
  have hkeep := hpass.keepsNames hreads hkeys fun u hu _ => hsettles u hu
  obtain ⟨_, -, htexts⟩ := hpass.exists_layout
  refine ⟨g, out, h.settings, hkeys, hout, ?_, generate_addTo hkeys hout hkeep⟩
  rw [htexts, List.length_map, hlength]

end Generator
end ContentModels

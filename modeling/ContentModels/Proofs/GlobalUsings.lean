import ContentModels.Proofs.Lookup
import ContentModels.Proofs.Parsing.Directives
import ContentModels.Proofs.Places

/-!
# Directives marked as global

The mark `global` of a directive is checked against the version of the language and then dropped,
so that the directive comes into scope for its own file and for no other one.  It acts as the plain
directive in the same file, and as the plain directive in all files only as long as the names in
the other files denote alike with the directive and without it (`collect_globalUsing`).
-/

namespace ContentModels

open CSharp Generated Outcome

/-! ### Names behind directives -/

/-- A scope with directives in front of its own. -/
def CSharp.Scope.behind (ds : List UsingDirective) (s : Scope) : Scope :=
  { s with usings := ds ++ s.usings }

/--
The names in a file that facts are read from denote alike with and without directives in front:
the entries of base lists, the names of attributes, and the base class for all models.
-/
structure CSharp.CompilationUnit.Ignores
    (u : CompilationUnit) (ds : List UsingDirective) (c : Compilation) : Prop where
  assemblyAttributes : ∀ a ∈ u.assemblyAttributes,
    DenoteAlike (c.resolveAttribute a.name (.ofFile u))
      (c.resolveAttribute a.name (.behind ds (.ofFile u)))
  modelsBaseClass : ∀ a ∈ u.assemblyAttributes,
    Marker.identify? a c (.ofFile u) = some .modelsBaseClass → ∀ name ∈ a.typeArguments,
      DenoteAlike (c.resolve name (.ofFile u)) (c.resolve name (.behind ds (.ofFile u)))
  baseLists : ∀ t ∈ u.types, ∀ base ∈ t.baseList,
    DenoteAlike (c.resolve base (.ofType t)) (c.resolve base (.behind ds (.ofType t)))
  typeAttributes : ∀ t ∈ u.types, ∀ a ∈ t.attributes,
    DenoteAlike (c.resolveAttribute a.name (.ofType t))
      (c.resolveAttribute a.name (.behind ds (.ofType t)))
  memberAttributes : ∀ t ∈ u.types, ∀ m ∈ t.members, ∀ a ∈ m.attributes,
    DenoteAlike (c.resolveAttribute a.name (.ofType t))
      (c.resolveAttribute a.name (.behind ds (.ofType t)))

instance (u : CompilationUnit) (ds : List UsingDirective) (c : Compilation) :
    Decidable (u.Ignores ds c) :=
  decidable_of_iff (_ ∧ _ ∧ _ ∧ _ ∧ _)
    ⟨fun ⟨hassembly, hmodels, hbases, htypes, hmembers⟩ =>
      ⟨hassembly, hmodels, hbases, htypes, hmembers⟩,
    fun h => ⟨h.assemblyAttributes, h.modelsBaseClass, h.baseLists, h.typeAttributes,
      h.memberAttributes⟩⟩

/-! ### Files that ignore a namespace -/

namespace CSharp

variable {c : Compilation} {scope : Scope} {name : TypeName} {used : String}

theorem Scope.aliasTarget?_behind
    (scope : Scope) (used first : String) :
    (scope.behind (usingDirectives [used])).aliasTarget? first = scope.aliasTarget? first := by
  unfold aliasTarget?
  rw [show (scope.behind (usingDirectives [used])).usings =
    ⟨.namespaceMembers, dottedType used⟩ :: scope.usings from rfl, List.reverse_cons,
    List.find?_append, List.find?_cons_of_neg (by simp), List.find?_nil, Option.or_none]

theorem Scope.importedNames_behind
    (hused : IsDotted used) (scope : Scope) (written : String) :
    (scope.behind (usingDirectives [used])).importedNames written =
      (used ++ "." ++ written) :: scope.importedNames written := by
  unfold importedNames
  rw [show (scope.behind (usingDirectives [used])).usings =
    ⟨.namespaceMembers, dottedType used⟩ :: scope.usings from rfl,
    List.filter_cons_of_pos rfl, List.map_cons]
  obtain ⟨-, -, hjoin⟩ := isDotted_iff.1 hused
  congr 2
  exact congrArg (· ++ ".") hjoin.symm

namespace Compilation

/-- A name denotes the same behind a directive, unless it names a type of the namespace. -/
theorem resolve_behind
    (hused : IsDotted used)
    (hnone : c.symbol? (used ++ "." ++ ".".intercalate name.path) name.arity = none) :
    c.resolve name (scope.behind (usingDirectives [used])) = c.resolve name scope := by
  have hnested : (scope.behind (usingDirectives [used])).nestedNames = scope.nestedNames := rfl
  have hnames : (scope.behind (usingDirectives [used])).namespaceNames = scope.namespaceNames := rfl
  unfold resolve Scope.candidates
  rw [hnested, hnames]
  cases hpath : name.path with
  | nil => rfl
  | cons first others =>
    dsimp only
    rw [Scope.aliasTarget?_behind, Scope.importedNames_behind hused]
    cases name.fromGlobal with
    | true => rfl
    | false =>
      rw [if_neg Bool.false_ne_true, if_neg Bool.false_ne_true]
      cases scope.aliasTarget? first with
      | some target => rfl
      | none =>
        dsimp only
        split
        · rw [hpath] at hnone
          rw [List.findSome?_append, List.findSome?_append, List.map_cons, List.findSome?_cons, hnone]
        · rfl

end Compilation

/-- The names that what an attribute denotes is looked up by. -/
def AttributeUse.names (a : AttributeUse) : List TypeName :=
  a.name :: (Compilation.suffixed? a.name).toList

theorem Compilation.resolveAttribute_behind
    {a : AttributeUse} (hused : IsDotted used)
    (hnone : ∀ name ∈ a.names,
      c.symbol? (used ++ "." ++ ".".intercalate name.path) name.arity = none) :
    c.resolveAttribute a.name (scope.behind (usingDirectives [used])) =
      c.resolveAttribute a.name scope := by
  obtain ⟨hname, hsuffixed⟩ := List.forall_mem_cons.1 hnone
  unfold resolveAttribute
  cases h : suffixed? a.name with
  | none => exact resolve_behind hused hname
  | some suffixed =>
    dsimp only
    rw [resolve_behind hused hname, resolve_behind hused (hsuffixed suffixed (by simp [h]))]

/-- The names in a file that facts are read from. -/
def CompilationUnit.names (u : CompilationUnit) : List TypeName :=
  u.assemblyAttributes.flatMap (fun a => a.names ++ a.typeArguments) ++
    u.types.flatMap fun t => t.baseList ++ t.attributes.flatMap (·.names) ++
      t.members.flatMap fun m => m.attributes.flatMap (·.names)

/-- A file ignores a namespace that has none of the types that are named in the file. -/
theorem CompilationUnit.ignores_of_undefined
    {u : CompilationUnit} (hused : IsDotted used)
    (h : ∀ name ∈ u.names, c.symbol? (used ++ "." ++ ".".intercalate name.path) name.arity = none) :
    u.Ignores (usingDirectives [used]) c := by
  unfold names at h
  obtain ⟨hassembly, htypes⟩ := List.forall_mem_append.1 h
  rw [List.forall_mem_flatMap] at hassembly htypes
  have hattributes : ∀ a ∈ u.assemblyAttributes, _ := fun a ha =>
    List.forall_mem_append.1 (hassembly a ha)
  have hparts : ∀ t ∈ u.types, _ := fun t ht => List.forall_mem_append.1 (htypes t ht)
  refine ⟨fun a ha => ?_, fun a ha _ name hname => ?_, fun t ht base hbase => ?_,
    fun t ht a ha => ?_, fun t ht m hm a ha => ?_⟩ <;> unfold DenoteAlike
  · rw [Compilation.resolveAttribute_behind hused (hattributes a ha).1]
  · rw [Compilation.resolve_behind hused ((hattributes a ha).2 name hname)]
  · rw [Compilation.resolve_behind hused
      ((List.forall_mem_append.1 (hparts t ht).1).1 base hbase)]
  · rw [Compilation.resolveAttribute_behind hused
      (List.forall_mem_flatMap.1 (List.forall_mem_append.1 (hparts t ht).1).2 a ha)]
  · rw [Compilation.resolveAttribute_behind hused
      (List.forall_mem_flatMap.1 (List.forall_mem_flatMap.1 (hparts t ht).2 m hm) a ha)]

end CSharp

/-! ### What a file declares behind directives -/

namespace FactReader

variable {r : FactReader} {c d : Compilation} {ds : List UsingDirective} {u : CompilationUnit}

/-- A type declares the same some lines further down and behind directives that it ignores. -/
theorem declared_typeFacts_moved
    {t : TypeDeclaration}
    (hsymbol : ∀ fullName arity, c.symbol? fullName arity = d.symbol? fullName arity)
    (hu : u.Ignores ds c) (ht : t ∈ u.types) (n : Nat) (file : String) :
    declared (r.typeFacts c file t) = declared (r.typeFacts d file (t.moved n ds)) := by
  have hmarker : ∀ a, DenoteAlike (c.resolveAttribute a.name (.ofType t))
      (c.resolveAttribute a.name (.behind ds (.ofType t))) →
        Marker.identify? a c (.ofType t) = Marker.identify? (a.moved n) d (.ofType (t.moved n ds)) := by
    intro a ha
    rw [Compilation.resolveAttribute_congr hsymbol a.name (.behind ds (.ofType t))] at ha
    exact Marker.identify?_eq ha
  unfold typeFacts declared
  rw [List.map_append, List.map_append, List.map_append, List.map_append]
  congr 1
  · congr 1
    · rw [show (t.moved n ds).attributes = t.attributes.map (.moved n) from rfl, List.flatMap_map]
      refine declared_flatMap fun a ha => ?_
      rw [hmarker a (hu.typeAttributes t ht a ha)]
      cases Marker.identify? (a.moved n) d (.ofType (t.moved n ds)) with
      | none => rfl
      | some m => exact declared_typeFact file file t.name m rfl
    · refine declared_flatMap fun x hx => ?_
      have hbase := hu.baseLists t ht x.1 (List.fst_mem_of_mem_zipIdx hx)
      rw [Compilation.resolve_congr hsymbol x.1 (.behind ds (.ofType t))] at hbase
      rw [baseFact_eq_roleFindings, baseFact_eq_roleFindings,
        @baseRole_eq r c d t (t.moved n ds) x.1 x.2 rfl hbase]
      rfl
  · rw [show (t.moved n ds).members = t.members.map (.moved n) from rfl, List.flatMap_map]
    refine declared_flatMap fun m hm => ?_
    unfold memberFacts declared
    rw [List.map_append, List.map_append]
    congr 1
    rw [show (m.moved n).attributes = m.attributes.map (.moved n) from rfl, List.flatMap_map]
    refine declared_flatMap fun a ha => ?_
    exact declared_memberFact file file rfl rfl rfl (hmarker a (hu.memberAttributes t ht m hm a ha))

/-- A file declares the same some lines further down and behind directives that it ignores. -/
theorem declared_unitFacts_moved
    (hsymbol : ∀ fullName arity, c.symbol? fullName arity = d.symbol? fullName arity)
    (hgenerated : u.isGenerated = false) (hu : u.Ignores ds c) (n : Nat) :
    declared (r.unitFacts c u) = declared (r.unitFacts d (u.moved n ds)) := by
  unfold unitFacts
  rw [hgenerated, show (u.moved n ds).isGenerated = false from rfl]
  unfold declared
  rw [if_neg Bool.false_ne_true, if_neg Bool.false_ne_true, List.map_append, List.map_append]
  congr 1
  · unfold assemblyFacts
    rw [show (u.moved n ds).assemblyAttributes = u.assemblyAttributes.map (.moved n) from rfl,
      List.flatMap_map]
    refine declared_flatMap fun a ha => ?_
    have hname := hu.assemblyAttributes a ha
    rw [Compilation.resolveAttribute_congr hsymbol a.name (.behind ds (.ofFile u))] at hname
    have hmarker : Marker.identify? a c (.ofFile u) =
        Marker.identify? (a.moved n) d (.ofFile (u.moved n ds)) := Marker.identify?_eq hname
    rw [← hmarker]
    cases hm : Marker.identify? a c (.ofFile u) with
    | none => rfl
    | some m =>
      refine declared_assemblyFact u.file u.file m rfl fun heq name hmem => ?_
      have hdenotes := hu.modelsBaseClass a ha (heq ▸ hm) name hmem
      rw [Compilation.resolve_congr hsymbol name (.behind ds (.ofFile u))] at hdenotes
      have hfull := congrArg (Option.map Prod.fst) hdenotes
      rwa [Option.map_map, Option.map_map] at hfull
  · rw [show (u.moved n ds).types = u.types.map (.moved n ds) from rfl, List.filter_map,
      List.flatMap_map]
    refine declared_flatMap fun t ht => ?_
    exact declared_typeFacts_moved hsymbol hu (List.mem_of_mem_filter ht) n u.file

end FactReader

/-! ### Directives in front of files -/

/-- Source files with a line in front of those with chosen names. -/
def SourceFiles.withLine
    (line : String) (chosen : String → Bool) (sources : SourceFiles) : SourceFiles :=
  sources.map fun name source => if chosen name then line ++ "\n" ++ source else source

namespace FactReader

variable {r : FactReader} {sources : SourceFiles} {c d : Compilation} {name file : String}
  {chosen : String → Bool}

theorem compile_withLine
    {line : String} (h : r.compile (sources.withLine line chosen) = .ok c) :
    (sources.entries.mapM fun e =>
        parseUnit e.1 (if chosen e.1 then line ++ "\n" ++ e.2 else e.2) r.version) = .ok c.units ∧
      Compilation.ofUnits c.units r.references = .ok c := by
  obtain ⟨hunits, hc⟩ := compile_eq_ok_iff.1 h
  refine ⟨?_, hc⟩
  unfold SourceFiles.withLine Keyed.map at hunits
  rwa [List.mapM_map] at hunits

/-- In the same files, directives marked as global compile to what plain ones compile to. -/
theorem compile_global
    (hname : IsDotted name) (hversion : r.version.supports .globalUsing = true)
    (hc : r.compile (sources.withLine (directiveLine false name) chosen) = .ok c)
    (hd : r.compile (sources.withLine (directiveLine true name) chosen) = .ok d) :
    d = c := by
  obtain ⟨segments, last, rfl, hsegments, hlast⟩ := hname.exists_last
  obtain ⟨hparse, hc⟩ := compile_withLine hc
  obtain ⟨hparse', hd⟩ := compile_withLine hd
  have hunits : d.units = c.units.map id := by
    refine eq_map_of_mapM (fun e v u hv hu => ?_) hparse' hparse
    split at hv
    · rename_i hchosen
      rw [if_pos hchosen] at hu
      exact parseUnit_global hsegments hlast hversion hu hv
    · rename_i hchosen
      rw [if_neg hchosen] at hu
      exact Except.ok.inj (hv.symm.trans hu)
  rw [List.map_id] at hunits
  rw [hunits] at hd
  exact Except.ok.inj (hd.symm.trans hc)

/-- A file with a global directive stays, and others get the plain directive in front. -/
theorem units_everywhere
    (hname : IsDotted name) (hversion : r.version.supports .globalUsing = true)
    (hc : r.compile (sources.withLine (directiveLine true name) (· == file)) = .ok c)
    (hd : r.compile (sources.withLine (directiveLine false name) fun _ => true) = .ok d) :
    d.units = c.units.map fun u => if u.file = file then u else u.moved 1 (usingDirectives [name]) := by
  obtain ⟨segments, last, rfl, hsegments, hlast⟩ := hname.exists_last
  obtain ⟨hparse, -⟩ := compile_withLine hc
  obtain ⟨hparse', -⟩ := compile_withLine hd
  have hdirective : usingDirectives [".".intercalate (segments ++ [last])] =
      [importing segments last] := by
    unfold usingDirectives dottedType importing
    rw [List.map_singleton, Text.split_dotted hsegments hlast]
  refine eq_map_of_mapM (fun e v u hv hu => ?_) hparse' hparse
  have hfile : u.file = e.1 := file_of_parseUnit hu
  rw [hfile, hdirective]
  rw [if_pos rfl] at hv
  split
  · rename_i heq
    rw [if_pos (by simpa using heq)] at hu
    exact (parseUnit_global hsegments hlast hversion hv hu).symm
  · rename_i hne
    rw [if_neg (by simpa using hne)] at hu
    have hplain : false = true → r.version.supports .globalUsing = true := nofun
    exact Except.ok.inj (hv.symm.trans (parseUnit_behind hsegments hlast hplain hu))

/-- Full names denote the same next to other directives. -/
theorem symbol?_everywhere
    {ds : List UsingDirective} {k : CompilationUnit → Bool}
    (hc : r.compile sources = .ok c) {others : SourceFiles} (hd : r.compile others = .ok d)
    (hunits : d.units = c.units.map fun u => if k u then u else u.moved 1 ds)
    (fullName : String) (arity : Nat) :
    c.symbol? fullName arity = d.symbol? fullName arity := by
  have hdeclared : c.declaredTypes.map Symbol.ofDeclaration =
      d.declaredTypes.map Symbol.ofDeclaration := by
    unfold Compilation.declaredTypes
    rw [hunits, List.flatMap_map, List.map_flatMap, List.map_flatMap]
    refine flatMap_congr fun u _ => ?_
    split
    · rfl
    · rw [show (u.moved 1 ds).types = u.types.map (.moved 1 ds) from rfl, List.map_map]
      rfl
  unfold Compilation.symbol?
  rw [Compilation.symbols_of_compile hc, Compilation.symbols_of_compile hd, hdeclared]

/-- What is read is what the findings declare. -/
theorem declared_findings
    {ds : List Declaration} (h : r.read sources = .ok ds) :
    ∃ c, r.compile sources = .ok c ∧ declared (r.findings c) = ds.map some := by
  obtain ⟨c, hc, hds⟩ := bind_eq_ok.1 h
  refine ⟨c, hc, (map_of_mapM (fun f d hf => ?_) hds).symm⟩
  rw [show f = .ok d from hf]
  rfl

/-- In the same files, directives marked as global declare what plain ones declare. -/
theorem read_global
    {ds es : List Declaration}
    (hname : IsDotted name) (hversion : r.version.supports .globalUsing = true)
    (hds : r.read (sources.withLine (directiveLine false name) chosen) = .ok ds)
    (hes : r.read (sources.withLine (directiveLine true name) chosen) = .ok es) :
    es = ds := by
  obtain ⟨c, hc, hds⟩ := bind_eq_ok.1 hds
  obtain ⟨d, hd, hes⟩ := bind_eq_ok.1 hes
  obtain rfl := compile_global hname hversion hc hd
  exact Except.ok.inj (hes.symm.trans hds)

/--
A global directive in one file declares what the plain directive in all files declares, if the
names in the other files denote alike under it.
-/
theorem read_everywhere
    {ds es : List Declaration}
    (hname : IsDotted name) (hversion : r.version.supports .globalUsing = true)
    (hc : r.compile (sources.withLine (directiveLine true name) (· == file)) = .ok c)
    (hothers : ∀ u ∈ c.units, u.file ≠ file →
      u.isGenerated = false ∧ u.Ignores (usingDirectives [name]) c)
    (hds : r.read (sources.withLine (directiveLine false name) fun _ => true) = .ok ds)
    (hes : r.read (sources.withLine (directiveLine true name) (· == file)) = .ok es) :
    es = ds := by
  obtain ⟨d, hd, hds⟩ := declared_findings hds
  obtain ⟨c', hc', hes⟩ := declared_findings hes
  obtain rfl := Except.ok.inj (hc.symm.trans hc')
  have hunits := units_everywhere hname hversion hc hd
  have hsymbol := @symbol?_everywhere r _ c d (usingDirectives [name]) (·.file == file) hc _ hd
    (by simpa only [beq_iff_eq] using hunits)
  have hfindings : declared (r.findings c) = declared (r.findings d) := by
    unfold findings
    rw [hunits, List.flatMap_map]
    refine declared_flatMap fun u hu => ?_
    split
    · exact congrArg declared (unitFacts_congr hsymbol u)
    · rename_i hfile
      obtain ⟨hgenerated, hignores⟩ := hothers u hu hfile
      exact declared_unitFacts_moved hsymbol hgenerated hignores 1
  rw [hes, hds] at hfindings
  exact List.map_injective_iff.2 (Option.some_injective _) hfindings

end FactReader

namespace Generator

/--
A directive marked as global acts as the plain one in the same file.  It acts as the plain one in
all files if no other file is generated, and the names in them denote alike under the directive.
-/
theorem collect_globalUsing
    (g : Generator) {sources : SourceFiles} {name : String} (hname : IsDotted name)
    (hversion : (⟨10, 0⟩ : LanguageVersion).atMost g.reader.version = true) (file : String)
    {options : CodeOptions}
    (hoptions : g.collect (sources.withLine (directiveLine true name) (· == file)) = .ok options) :
    (∀ options',
      g.collect (sources.withLine (directiveLine false name) (· == file)) = .ok options' →
        options = options') ∧
      ∀ c, g.reader.compile (sources.withLine (directiveLine true name) (· == file)) = .ok c →
        (∀ u ∈ c.units, u.file ≠ file →
          u.isGenerated = false ∧ u.Ignores (usingDirectives [name]) c) →
        ∀ options',
          g.collect (sources.withLine (directiveLine false name) fun _ => true) = .ok options' →
            options = options' := by
  obtain ⟨es, hes, h⟩ := bind_eq_ok.1 hoptions
  obtain rfl := Except.ok.inj h
  refine ⟨fun options' hoptions' => ?_, fun c hc hothers options' hoptions' => ?_⟩
  · obtain ⟨ds, hds, h'⟩ := bind_eq_ok.1 hoptions'
    obtain rfl := Except.ok.inj h'
    rw [FactReader.read_global hname hversion hds hes]
  · obtain ⟨ds, hds, h'⟩ := bind_eq_ok.1 hoptions'
    obtain rfl := Except.ok.inj h'
    rw [FactReader.read_everywhere hname hversion hc hothers hds hes]

/-- A page with an interface from another namespace, and news with a base class of their own. -/
def widgetSources : SourceFiles :=
  .ofList [("News.cs", "class Base \x7b \x7d partial class News : Base \x7b \x7d"),
    ("Page.cs", "partial class Page : Widget \x7b \x7d"),
    ("Widget.cs", "namespace Shared \x7b interface Widget \x7b \x7d \x7d")]

/-- A generator for the version that has global directives first. -/
def tenth : Generator :=
  ⟨.standard, .ofVersion ⟨10, 0⟩, .standard .standard, [], none⟩

/-- Only the page uses the namespace, so it does not matter that the other files cannot. -/
theorem collect_globalUsing_widget :
    ∃ options,
      tenth.collect (widgetSources.withLine (directiveLine true "Shared") (· == "Page.cs")) =
        .ok options ∧
      tenth.collect (widgetSources.withLine (directiveLine false "Shared") fun _ => true) =
        .ok options ∧
      options.contentTypes.interfaces.get? "page" = some ["Widget"] := by
  have hcompile : (tenth.reader.compile
      (widgetSources.withLine (directiveLine true "Shared") (· == "Page.cs"))).toOption.map
        (fun c => decide (∀ u ∈ c.units, u.file ≠ "Page.cs" → u.isGenerated = false ∧
          ∀ name ∈ u.names,
            c.symbol? ("Shared" ++ "." ++ ".".intercalate name.path) name.arity = none)) =
              some true := by
    decide +kernel
  have hcollect : (do
      let options ← tenth.collect
        (widgetSources.withLine (directiveLine true "Shared") (· == "Page.cs"))
      let _ ← tenth.collect (widgetSources.withLine (directiveLine false "Shared") fun _ => true)
      return options.contentTypes.interfaces.get? "page").toOption = some (some ["Widget"]) := by
    decide +kernel
  obtain ⟨c, hc, hothers⟩ := exists_of_toOption_map hcompile
  have hdotted : IsDotted "Shared" := by decide +kernel
  obtain ⟨options, hoptions, h⟩ := bind_eq_ok.1 (ok_of_toOption hcollect)
  obtain ⟨options', hoptions', h⟩ := bind_eq_ok.1 h
  obtain ⟨-, heverywhere⟩ := tenth.collect_globalUsing hdotted rfl "Page.cs" hoptions
  obtain rfl := heverywhere c hc (fun u hu hfile => (of_decide_eq_true hothers u hu hfile).imp_right
    (CompilationUnit.ignores_of_undefined hdotted)) options' hoptions'
  exact ⟨options, hoptions, hoptions', Except.ok.inj h⟩

end Generator
end ContentModels

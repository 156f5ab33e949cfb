import ContentModels.Proofs.Compilation
import ContentModels.Proofs.DeclarationOrder
import ContentModels.Proofs.Facts
import ContentModels.Proofs.Lookup
import ContentModels.Proofs.Places

/-!
# Files under other names

Files are read in the order of their names, so other names are another order.  The same files
compile in every order, and names in them denote the same as long as all declarations of one
type have one kind.  Nothing that a file declares depends on its name or on the files around it
but by what names denote.  So the same declarations are made, and the options hold the same sets
and keys; a setting has another value only if two declarations give it different values
(`read_renamed`).
-/

namespace ContentModels

open CSharp Outcome

/-! ### Lists in another order -/

/-- Steps that succeed over a list succeed over it in another order. -/
theorem Outcome.exists_mapM_of_perm
    {ε α β : Type} {f : α → Except ε β} {as as' : List α} {bs : List β}
    (hp : as.Perm as') (h : as.mapM f = .ok bs) :
    ∃ bs', as'.mapM f = .ok bs' ∧ bs.Perm bs' := by
  induction hp generalizing bs with
  | nil => exact ⟨bs, h, .refl _⟩
  | cons a _ ih =>
    obtain ⟨b, cs, hb, hcs, rfl⟩ := mapM_cons_eq_ok.1 h
    obtain ⟨cs', hcs', hperm⟩ := ih hcs
    exact ⟨b :: cs', mapM_cons_eq_ok.2 ⟨b, cs', hb, hcs', rfl⟩, hperm.cons b⟩
  | swap a a' l =>
    obtain ⟨b', _, hb', hrest, rfl⟩ := mapM_cons_eq_ok.1 h
    obtain ⟨b, cs, hb, hcs, rfl⟩ := mapM_cons_eq_ok.1 hrest
    exact ⟨b :: b' :: cs,
      mapM_cons_eq_ok.2 ⟨b, _, hb, mapM_cons_eq_ok.2 ⟨b', cs, hb', hcs, rfl⟩, rfl⟩, .swap _ _ _⟩
  | trans _ _ ih ih' =>
    obtain ⟨cs, hcs, hperm⟩ := ih h
    obtain ⟨ds, hds, hperm'⟩ := ih' hcs
    exact ⟨ds, hds, hperm.trans hperm'⟩

/-! ### The same files under other names -/

/-- A file without its name. -/
def CSharp.CompilationUnit.nameless (u : CompilationUnit) : CompilationUnit :=
  { u with file := "" }

theorem CSharp.parseUnit_nameless
    {file source : String} {version : LanguageVersion} {u : CompilationUnit}
    (h : parseUnit file source version = .ok u) :
    parseUnit "" source version = .ok u.nameless := by
  obtain ⟨v, hv, rfl⟩ := parseUnit_eq_ok_iff.1 h
  have hfile := file_of_parseUnit hv
  obtain ⟨file, isGenerated, usings, attributes, types⟩ := v
  obtain rfl : file = "" := hfile
  exact hv

/-- The same texts are there, each under some name. -/
def SourceFiles.Renamed (sources renamed : SourceFiles) : Prop :=
  (sources.entries.map (·.2)).Perm (renamed.entries.map (·.2))

/-- All declarations of one type have one kind. -/
def CSharp.Compilation.HasKinds (c : Compilation) : Prop :=
  ∀ a ∈ c.declaredTypes, ∀ b ∈ c.declaredTypes, Compilation.sameType a b = true → a.kind = b.kind

instance (c : Compilation) : Decidable c.HasKinds :=
  inferInstanceAs (Decidable (∀ a ∈ c.declaredTypes, ∀ b ∈ c.declaredTypes, _ → _))

namespace FactReader

variable {r : FactReader} {sources renamed : SourceFiles} {c d : Compilation}

theorem mapM_parseUnit
    {es : List (String × String)} {version : LanguageVersion} {units : List CompilationUnit}
    (h : (es.mapM fun e => parseUnit e.1 e.2 version) = .ok units) :
    ((es.map (·.2)).mapM fun source => parseUnit "" source version) =
      .ok (units.map (·.nameless)) := by
  induction es generalizing units with
  | nil =>
    cases h
    rfl
  | cons e es ih =>
    obtain ⟨u, us, hu, hus, rfl⟩ := mapM_cons_eq_ok.1 h
    exact mapM_cons_eq_ok.2 ⟨_, _, parseUnit_nameless hu, ih hus, rfl⟩

theorem exists_mapM_parseUnit
    {es : List (String × String)} {version : LanguageVersion} {nameless : List CompilationUnit}
    (h : ((es.map (·.2)).mapM fun source => parseUnit "" source version) = .ok nameless) :
    ∃ units, (es.mapM fun e => parseUnit e.1 e.2 version) = .ok units := by
  refine exists_mapM fun e he => ?_
  obtain ⟨v, -, hv⟩ := exists_mem_of_mapM h (List.mem_map_of_mem (f := (·.2)) he)
  exact ⟨_, parseUnit_eq_ok_iff.2 ⟨v, hv, rfl⟩⟩

/-- Files that compile compile under other names, and are the same but for these and the order. -/
theorem exists_compile_renamed
    (h : sources.Renamed renamed) (hc : r.compile sources = .ok c) :
    ∃ d, r.compile renamed = .ok d ∧
      (c.units.map (·.nameless)).Perm (d.units.map (·.nameless)) := by
  obtain ⟨hparse, hunits⟩ := compile_eq_ok_iff.1 hc
  obtain ⟨nameless, hnameless, hperm⟩ := exists_mapM_of_perm h (mapM_parseUnit hparse)
  obtain ⟨units, hrenamed⟩ := exists_mapM_parseUnit hnameless
  obtain rfl := Except.ok.inj (hnameless.symm.trans (mapM_parseUnit hrenamed))
  have hfits := (Compilation.exists_ofUnits_iff _ _).1 ⟨c, hunits⟩
  have htypes := (hperm.flatMap_right fun u => u.types)
  rw [List.flatMap_map, List.flatMap_map] at htypes
  obtain ⟨d, hd⟩ := (Compilation.exists_ofUnits_iff units r.references).2
    ((htypes.pairwise_iff Compilation.Fits.symm).1 hfits)
  obtain rfl := Compilation.units_of_ofUnits hd
  exact ⟨d, compile_eq_ok_iff.2 ⟨hrenamed, hd⟩, hperm⟩

/-! ### What names denote -/

/-- Full names denote the same in every order of the files. -/
theorem symbol?_renamed
    (hc : r.compile sources = .ok c) (hd : r.compile renamed = .ok d) (hkinds : c.HasKinds)
    (hperm : (c.units.map (·.nameless)).Perm (d.units.map (·.nameless)))
    (fullName : String) (arity : Nat) :
    c.symbol? fullName arity = d.symbol? fullName arity := by
  have hdeclared : ∀ t, t ∈ c.declaredTypes ↔ t ∈ d.declaredTypes := by
    intro t
    have htypes := hperm.flatMap_right fun u => u.types
    rw [List.flatMap_map, List.flatMap_map] at htypes
    exact htypes.mem_iff
  unfold Compilation.symbol?
  rw [Compilation.symbols_of_compile hc, Compilation.symbols_of_compile hd, List.find?_append,
    List.find?_append]
  congr 1
  refine find?_eq_of_mem_iff (fun s => ?_) ?_
  · simp only [List.mem_map, hdeclared]
  · intro s hs s' hs' hname hname'
    obtain ⟨a, ha, rfl⟩ := List.mem_map.1 hs
    obtain ⟨b, hb, rfl⟩ := List.mem_map.1 hs'
    simp only [Symbol.ofDeclaration, Bool.and_eq_true, beq_iff_eq] at hname hname'
    have hkind := hkinds a ha b hb (Compilation.sameType_iff.2
      ⟨hname.1.trans hname'.1.symm, hname.2.trans hname'.2.symm⟩)
    simp only [Symbol.ofDeclaration, hname.1, hname.2, hname'.1, hname'.2, hkind]

/-! ### The name of a file in what it declares -/

theorem declared_typeFacts
    (file file' : String) (t : TypeDeclaration) :
    declared (r.typeFacts c file t) = declared (r.typeFacts c file' t) := by
  unfold typeFacts declared
  rw [List.map_append, List.map_append, List.map_append, List.map_append]
  congr 1
  · congr 1
    refine declared_flatMap fun a _ => ?_
    split
    · exact declared_typeFact file file' _ _ rfl
    · rfl
  · refine declared_flatMap fun m _ => ?_
    unfold memberFacts declared
    rw [List.map_append, List.map_append]
    congr 1
    exact declared_flatMap fun a _ => declared_memberFact file file' rfl rfl rfl rfl

/-- The name of a file shows in its failures only. -/
theorem declared_unitFacts
    (u : CompilationUnit) :
    declared (r.unitFacts c u.nameless) = declared (r.unitFacts c u) := by
  unfold unitFacts
  split
  · rename_i hgenerated
    rw [if_pos (show u.isGenerated = true from hgenerated)]
  · rename_i hgenerated
    rw [if_neg (show ¬ u.isGenerated = true from hgenerated)]
    unfold declared
    rw [List.map_append, List.map_append]
    congr 1
    · refine declared_flatMap fun a _ => ?_
      have hidentify : Marker.identify? a c (.ofFile u.nameless) =
        Marker.identify? a c (.ofFile u) := rfl
      simp only [hidentify]
      cases Marker.identify? a c (.ofFile u) with
      | some m => exact declared_assemblyFact "" u.file m rfl fun _ _ _ => rfl
      | none => rfl
    · exact declared_flatMap fun t _ => declared_typeFacts "" u.file t

/-! ### Reading under other names -/

/-- The same is declared under other names, and as much fails. -/
theorem mem_declared_findings
    {sources renamed : SourceFiles} {d : Compilation}
    (hc : r.compile sources = .ok c) (hd : r.compile renamed = .ok d) (hkinds : c.HasKinds)
    (hperm : (c.units.map (·.nameless)).Perm (d.units.map (·.nameless))) (x : Option Declaration) :
    x ∈ declared (r.findings c) ↔ x ∈ declared (r.findings d) := by
  have hnameless : ∀ c : Compilation, declared (r.findings c) =
      (c.units.map (·.nameless)).flatMap fun u => declared (r.unitFacts c u) := by
    intro c
    unfold findings declared
    rw [List.map_flatMap, List.flatMap_map]
    exact flatMap_congr fun u _ => (declared_unitFacts u).symm
  rw [hnameless c, hnameless d]
  simp only [unitFacts_congr (symbol?_renamed hc hd hkinds hperm)]
  exact (hperm.flatMap_right _).mem_iff

/-- Files can be read if they compile and nothing in them fails. -/
theorem exists_read_iff
    {sources : SourceFiles} (hc : r.compile sources = .ok c) :
    (∃ ds, r.read sources = .ok ds) ↔ none ∉ declared (r.findings c) := by
  have hread : r.read sources = (r.findings c).mapM id := by
    show (r.compile sources >>= fun c => (r.findings c).mapM id) = _
    rw [hc]
    rfl
  rw [hread]
  unfold declared
  constructor
  · rintro ⟨ds, hds⟩ hnone
    obtain ⟨f, hf, hfail⟩ := List.mem_map.1 hnone
    obtain ⟨d, -, rfl⟩ := exists_mem_of_mapM hds hf
    cases hfail
  · intro hnone
    refine exists_mapM fun f hf => ?_
    cases f with
    | error e => exact absurd (List.mem_map.2 ⟨_, hf, rfl⟩) hnone
    | ok d => exact ⟨d, rfl⟩

theorem mem_read_iff
    {sources : SourceFiles} {ds : List Declaration} (hc : r.compile sources = .ok c)
    (h : r.read sources = .ok ds) (d : Declaration) :
    d ∈ ds ↔ some d ∈ declared (r.findings c) := by
  obtain ⟨c', hc', hds⟩ := bind_eq_ok.1 h
  obtain rfl := Except.ok.inj (hc.symm.trans hc')
  rw [mem_of_mapM_id hds]
  unfold declared
  rw [List.mem_map]
  constructor
  · exact fun hd => ⟨_, hd, rfl⟩
  · rintro ⟨f, hf, hok⟩
    rwa [ok_of_toOption hok] at hf

/--
Files can be read under other names exactly if they can be read.  Then the options hold the same
sets and keys, and a text at a place is another one only if two declarations write different
texts there.
-/
theorem read_renamed
    (r : FactReader) {sources renamed : SourceFiles} (h : sources.Renamed renamed)
    (hkinds : ∀ c, r.compile sources = .ok c → c.HasKinds) :
    ((∃ ds, r.read sources = .ok ds) ↔ ∃ es, r.read renamed = .ok es) ∧
      ∀ ds es, r.read sources = .ok ds → r.read renamed = .ok es → ∀ o : CodeOptions,
        (o.declareAll ds).HoldsAlike (o.declareAll es) ∧
          ∀ place, (o.declareAll ds).textAt? place = (o.declareAll es).textAt? place ∨
            CodeOptions.Disagree ds place := by
  cases hc : r.compile sources with
  | error e =>
    have hfails : ∀ ds, r.read sources ≠ .ok ds := fun ds hds => by
      obtain ⟨c, hc', -⟩ := bind_eq_ok.1 hds
      cases hc.symm.trans hc'
    have hfails' : ∀ es, r.read renamed ≠ .ok es := fun es hes => by
      obtain ⟨d, hd, -⟩ := bind_eq_ok.1 hes
      obtain ⟨c, hc', -⟩ := exists_compile_renamed h.symm hd
      cases hc.symm.trans hc'
    exact ⟨iff_of_false (fun ⟨ds, hds⟩ => hfails ds hds) fun ⟨es, hes⟩ => hfails' es hes,
      fun ds _ hds => absurd hds (hfails ds)⟩
  | ok c =>
    obtain ⟨d, hd, hperm⟩ := exists_compile_renamed h hc
    have hmem := mem_declared_findings hc hd (hkinds c hc) hperm
    refine ⟨?_, fun ds es hds hes o => ?_⟩
    · rw [exists_read_iff hc, exists_read_iff hd, hmem]
    · have hsame : ∀ x, x ∈ ds ↔ x ∈ es := fun x => by
        rw [mem_read_iff hc hds, mem_read_iff hd hes, hmem]
      exact ⟨CodeOptions.holdsAlike_declareAll hsame o,
        CodeOptions.textAt?_declareAll_or_disagree hsame o⟩

/-- A part of pages, and a namespace for all models. -/
def basedPart : String :=
  "[assembly: ModelsNamespace(\"First\")] partial class Page : Base \x7b \x7d"

/-- Another part of pages, the base class of the first one, and another namespace. -/
def implementingPart : String :=
  "[assembly: ModelsNamespace(\"Second\")] class Base \x7b \x7d partial class Page " ++
    "\x7b [ImplementPropertyType(\"title\")] string Title => null; \x7d"

/-- The parts of pages under two names each. -/
def pageParts (first second : String) : SourceFiles :=
  .ofList [("A.cs", first), ("B.cs", second)]

/-- With the names of two files exchanged only the namespace differs, for which there are two. -/
theorem read_renamed_pages :
    ∃ ds es, (ofVersion .standard).read (pageParts basedPart implementingPart) = .ok ds ∧
      (ofVersion .standard).read (pageParts implementingPart basedPart) = .ok es ∧
      (CodeOptions.ofDeclarations ds).modelsNamespace = some "Second" ∧
      (CodeOptions.ofDeclarations es).modelsNamespace = some "First" ∧
      (CodeOptions.ofDeclarations ds).HoldsAlike (CodeOptions.ofDeclarations es) ∧
      CodeOptions.Disagree ds .modelsNamespace := by
  have hrenamed : (pageParts basedPart implementingPart).Renamed
      (pageParts implementingPart basedPart) := by
    unfold SourceFiles.Renamed
    decide +kernel
  have hkinds : ((ofVersion .standard).compile (pageParts basedPart implementingPart)).toOption.all
      (fun c => decide c.HasKinds) = true := by
    decide +kernel
  have hread : (do
      let ds ← (ofVersion .standard).read (pageParts basedPart implementingPart)
      let es ← (ofVersion .standard).read (pageParts implementingPart basedPart)
      return ((CodeOptions.ofDeclarations ds).modelsNamespace,
        (CodeOptions.ofDeclarations es).modelsNamespace)).toOption =
        some (some "Second", some "First") := by
    decide +kernel
  obtain ⟨ds, hds, h⟩ := bind_eq_ok.1 (ok_of_toOption hread)
  obtain ⟨es, hes, h⟩ := bind_eq_ok.1 h
  obtain ⟨hsecond, hfirst⟩ := Prod.mk.inj (Except.ok.inj h)
  obtain ⟨-, hall⟩ := read_renamed (ofVersion .standard) hrenamed fun c hc => by
    rw [hc] at hkinds
    exact of_decide_eq_true hkinds
  obtain ⟨halike, hplaces⟩ := hall ds es hds hes .empty
  refine ⟨ds, es, hds, hes, hsecond, hfirst, halike, (hplaces .modelsNamespace).resolve_left ?_⟩
  intro heq
  have hsame : some "Second" = some "First" := (hsecond.symm.trans heq).trans hfirst
  simp at hsame

end FactReader
end ContentModels

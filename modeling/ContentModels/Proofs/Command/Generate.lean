import ContentModels.Proofs.CombinedFiles
import ContentModels.Proofs.Command.Arguments
import ContentModels.Proofs.Command.Sync
import ContentModels.Proofs.Generated.FileNames

/-!
# What the generator leaves behind

The generator changes nothing unless code is generated.  Then the generated files directly in
the directory of the code become exactly those of the pass.  Where the path of the directory led
to it from the start, all is read again as before, so that a second run changes nothing and a
run in the other mode leaves the files of that mode only (`runArguments_generate`).  This holds
of every codec by which no path on a command line is empty.
-/

namespace ContentModels
namespace Command

open FileTree

variable {c : Codec} {t t' s : FileTree} {w d : Place} {name schema : String}
  {options : CommonOptions} {files : SourceFiles} {singleFile : Bool}

/-! ### Names of generated files -/

theorem slash_not_mem_of_isValid
    (h : Naming.isValid name = true) :
    '/' ∉ name.toList := by
  unfold Naming.isValid at h
  split at h
  · cases h
  · rename_i c cs hcs
    simp only [Bool.and_eq_true, List.all_eq_true] at h
    rw [hcs]
    intro hslash
    rcases List.mem_cons.1 hslash with rfl | hslash
    · exact absurd h.1.1.1 (by decide)
    · exact absurd (h.1.2 _ hslash) (by decide)

/-- The generator makes generated files only. -/
theorem isOutputName_of_filesOf
    {g : Generator} {types : List ContentType} {sources : SourceFiles}
    (h : filesOf g singleFile types sources = .ok files) :
    ∀ e ∈ files.entries, IsOutputName e.1 := by
  intro e he
  unfold filesOf at h
  cases singleFile with
  | true =>
    obtain ⟨text, -, h⟩ := Outcome.bind_eq_ok.1 h
    cases h
    have hget := Keyed.mem_entries_iff.1 (show (e.1, e.2) ∈ _ from he)
    rw [Keyed.get?_insert] at hget
    split at hget
    · rename_i hkey
      rw [hkey]
      exact isOutputName_fileName (by decide)
    · cases hget
  | false =>
    obtain ⟨out, hout, h⟩ := Outcome.bind_eq_ok.1 h
    cases h
    obtain ⟨_, m, _, _, hpass⟩ := Generator.exists_pass hout
    obtain ⟨l, -, htexts⟩ := hpass.exists_layout
    obtain ⟨_, _, _, _, hbuilt⟩ := CodeModel.exists_built hpass.build
    rcases Keyed.of_mem_entries_foldl_insert he with he | he
    · obtain ⟨x, hx, rfl⟩ := List.mem_map.1 he
      rw [htexts] at hx
      obtain ⟨model, hmodel, rfl⟩ := List.mem_map.1 hx
      exact isOutputName_fileName (slash_not_mem_of_isValid (hbuilt.isValid_name hmodel))
    · cases he

/-! ### Runs -/

/-- The files that the generator makes of what it reads in a tree. -/
def planned (c : Codec) (w : Place) (t : FileTree) (schema : String) (singleFile : Bool)
    (options : CommonOptions) :
    Outcome SourceFiles := do
  let x ← (runIn w t (loaded c schema options)).1
  filesOf x.1 singleFile x.2.1 x.2.2

theorem isOutputName_of_planned
    (h : planned c w t schema singleFile options = .ok files) :
    ∀ e ∈ files.entries, IsOutputName e.1 := by
  obtain ⟨_, -, h⟩ := Outcome.bind_eq_ok.1 h
  exact isOutputName_of_filesOf h

/-- Where no code is generated, nothing changes. -/
theorem runIn_run_of_planned_error
    {e : Failure} (h : planned c w t schema singleFile options = .error e) :
    runIn w t (run c (.generate schema singleFile options)) = (.error e, t) := by
  have hloaded := runIn_loaded c w t schema options
  rw [run_generate]
  unfold planned at h
  rcases hrun : runIn w t (loaded c schema options) with ⟨e' | x, s⟩
  · rw [hrun] at h hloaded
    cases h
    rw [runIn_bind_error hrun]
    exact congrArg (Prod.mk _) hloaded
  · rw [hrun] at h hloaded
    rw [runIn_bind_ok hrun]
    have hfiles : runIn w s (orFail (filesOf x.1 singleFile x.2.1 x.2.2)) = (.error e, s) :=
      congrArg (fun o => (o, s)) h
    rw [runIn_bind_error hfiles]
    exact congrArg (Prod.mk _) hloaded

/-- Where code is generated, the directory is brought in line with it. -/
theorem runIn_run_of_planned
    (h : planned c w t schema singleFile options = .ok files) :
    runIn w t (run c (.generate schema singleFile options)) =
      runIn w t (do return .report (← sync options.modelsDirectory files)) := by
  have hloaded := runIn_loaded c w t schema options
  rw [run_generate]
  obtain ⟨x, hx, hfiles⟩ := Outcome.bind_eq_ok.1 h
  have hrun : runIn w t (loaded c schema options) = (.ok x, t) := Prod.ext hx hloaded
  have hgen : runIn w t (orFail (filesOf x.1 singleFile x.2.1 x.2.2)) = (.ok files, t) :=
    congrArg (fun o => (o, t)) hfiles
  rw [runIn_bind_ok hrun, runIn_bind_ok hgen]

/-- What the generator leaves behind where it succeeds. -/
theorem of_runIn_run
    {answer : Outcome Answer} (h : planned c w t schema singleFile options = .ok files)
    (ht : t.WellFormed) (hw : t.HasDirectory w) (hne : options.modelsDirectory ≠ "")
    (hrun : runIn w t (run c (.generate schema singleFile options)) = (answer, t'))
    (haccess : answer ≠ .error .fileAccess) :
    ∃ d s report, answer = .ok (.report report) ∧ LeadsTo w t' options.modelsDirectory d ∧
      s.isDirectory d = true ∧ Changed d t s t' ∧ Synced d t t' files report := by
  rw [runIn_run_of_planned h] at hrun
  cases answer with
  | error e =>
    have hsync : OnlyAccess (do return Answer.report (← sync options.modelsDirectory files)) :=
      (onlyAccess_sync _ _).bind fun report => onlyAccess_pure (Answer.report report)
    exact absurd (congrArg Except.error (hsync w t e (congrArg Prod.fst hrun))) haccess
  | ok a =>
    obtain ⟨report, u, hsync, hpure⟩ := of_runIn_bind hrun
    cases hpure
    obtain ⟨d, s, hl, hd, hchanged, hsynced⟩ :=
      of_runIn_sync ht hw hne (isOutputName_of_planned h) hsync
    exact ⟨d, s, report, rfl, hl, hd, hchanged, hsynced⟩

/-- After a run the generator makes what it would have made before, in either mode. -/
theorem planned_again
    (hchanged : Changed d t s t') (ht : t.WellFormed) (hw : t.HasDirectory w)
    (hplace : t'.place? w options.modelsDirectory = some d) (hd : s.isDirectory d = true)
    (hreach : t.isDirectory d = true → t.place? w options.modelsDirectory = some d)
    (hnamed : ∀ path ∈ namedFiles schema options, LeadsElsewhere w d path)
    (h : planned c w t schema singleFile options = .ok files) (otherMode : Bool) :
    planned c w t' schema otherMode options = planned c w t schema otherMode options := by
  obtain ⟨x, hx, -⟩ := Outcome.bind_eq_ok.1 h
  have hagain := (hchanged.keeps_loaded ht hw hplace hd hreach hnamed).again x hx
  unfold planned
  rw [hagain, hx]

theorem runIn_runArguments
    {environment : Option String} {arguments : List String} {command : Command}
    (h : c.commandLine environment arguments = some command) (w : Place) (t : FileTree) :
    runIn w t (runArguments c environment arguments) = runIn w t (run c command) := by
  unfold runArguments
  rw [h]

/--
The generator brings the generated files of its directory in line, or changes nothing at all.  If
the directory is there already, its path has to lead to it: then a second run finds all as the
first one left it, and a run in the other mode leaves the files of that mode only.
-/
theorem runArguments_generate
    {environment : Option String} {arguments : List String} {answer : Outcome Answer}
    (hc : c.NamesDirectories)
    (hargs : c.commandLine environment arguments = some (.generate schema singleFile options))
    (ht : t.WellFormed) (hw : t.HasDirectory w)
    (hnamed : ∀ path ∈ namedFiles schema options,
      LeadsElsewhere w (resolve w options.modelsDirectory) path)
    (hrun : runIn w t (runArguments c environment arguments) = (answer, t')) :
    (∀ e, planned c w t schema singleFile options = .error e → answer = .error e ∧ t' = t) ∧
    ∀ files, planned c w t schema singleFile options = .ok files → answer ≠ .error .fileAccess →
      ∃ d report, answer = .ok (.report report) ∧
        t'.place? w options.modelsDirectory = some d ∧ t'.WellFormed ∧
        Synced d t t' files report ∧
        ((t.isDirectory d = true → t.place? w options.modelsDirectory = some d) →
          runIn w t' (runArguments c environment arguments) =
            (.ok (.report ⟨[], files.keys, []⟩), t') ∧
          ∀ arguments' otherMode files' answer' t'',
            c.commandLine environment arguments' = some (.generate schema otherMode options) →
            planned c w t schema otherMode options = .ok files' →
            runIn w t' (runArguments c environment arguments') = (answer', t'') →
            answer' ≠ .error .fileAccess →
            ∃ report', answer' = .ok (.report report') ∧ Synced d t' t'' files' report') := by
  have hne := hc _ _ _ _ _ hargs
  rw [runIn_runArguments hargs] at hrun ⊢
  refine ⟨fun e he => ?_, fun files hfiles haccess => ?_⟩
  · rw [runIn_run_of_planned_error he] at hrun
    cases hrun
    exact ⟨rfl, rfl⟩
  · obtain ⟨d, s, report, hanswer, hl, hd, hchanged, hsynced⟩ :=
      of_runIn_run hfiles ht hw hne hrun haccess
    have hresolve := resolve_of_place? hl.place
    refine ⟨d, report, hanswer, hl.place, hl.wellFormed, hsynced, fun hreach => ?_⟩
    have hagain := planned_again hchanged ht hw hl.place hd hreach
      (fun path hpath => hresolve ▸ hnamed path hpath) hfiles
    constructor
    · rw [runIn_run_of_planned ((hagain singleFile).trans hfiles), runIn_bind_ok
        (runIn_sync_self hl (isOutputName_of_planned hfiles) hsynced.generated)]
      rfl
    · intro arguments' otherMode files' answer' t'' hargs' hfiles' hrun' haccess'
      rw [runIn_runArguments hargs'] at hrun'
      have hw' : t'.HasDirectory w := ⟨hw.isName, hchanged.isDirectory hw.isDirectory⟩
      obtain ⟨d', _, report', hanswer', hl', _, _, hsynced'⟩ :=
        of_runIn_run ((hagain otherMode).trans hfiles') hl.wellFormed hw' hne hrun' haccess'
      obtain rfl : d' = d := (resolve_of_place? hl'.place).symm.trans hresolve
      exact ⟨report', hanswer', hsynced'⟩

/-! ### A site -/

/-- The directory of a site. -/
def siteDirectory : Place := ["home", "site"]

/-- The directory of its code. -/
def siteModels : Place := siteDirectory ++ ["Models"]

/-- The code of the site that is written by hand. -/
def siteSources : SourceFiles :=
  .ofList [("Page.cs",
    "namespace Umbraco.Web.PublishedModels \x7b public partial class Page \x7b \x7d \x7d")]

/-- The schema of the site as it is written. -/
def siteSchema : String :=
  "[\x7b\"Id\": 1, \"Alias\": \"seo\", \"Properties\": [\x7b\"Alias\": \"seoText\"\x7d]\x7d, " ++
    "\x7b\"Id\": 2, \"Alias\": \"page\", \"Properties\": [\x7b\"Alias\": \"pageText\"\x7d], " ++
      "\"CompositionTypeIds\": [1]\x7d]"

/-- What is generated for the site. -/
def siteOutput : GeneratedModels where
  modelsNamespace := "Umbraco.Web.PublishedModels"
  texts := (Except.toOption do
    let g ← Generator.ofSettings .standard
    Generated.texts g.settings (← g.model pageSchema siteSources)).getD []

/--
The files of the site, with generated ones of an earlier run: one that is as it has to be, one
that differs, and one of a class that is no longer there.
-/
def siteTree : FileTree :=
  let t := (FileTree.put .empty ["home"] .directory).put siteDirectory .directory
  let t := t.put (siteDirectory ++ ["schema.json"]) (.text siteSchema)
  let t := t.put siteModels .directory
  let t := t.put (siteModels ++ ["Page.cs"]) (.text ((siteSources.get? "Page.cs").getD ""))
  let t := t.put (siteModels ++ ["Old.generated.cs"]) (.text "// An earlier class.")
  let t := t.put (siteModels ++ ["Page.generated.cs"]) (.text "// An earlier class.")
  t.put (siteModels ++ ["Seo.generated.cs"]) (.text ((siteOutput.text? "Seo").getD ""))

/-- The schema has a path from the root, and the code one from the directory of the site. -/
def siteArguments : List String :=
  ["-v", "generate", "--schema", "/home/site/schema.json", "--models-dir", "Models"]

def siteOptions : CommonOptions where
  modelsDirectory := "Models"
  settingsFile := none
  modelsNamespace := none
  languageVersion := none
  references := []
  omitsStandard := false

/-- What the generator reads in the site. -/
theorem runIn_loaded_site
    {g : Generator} (hg : Generator.ofSettings .standard = .ok g) :
    runIn siteDirectory siteTree (loaded .standard "/home/site/schema.json" siteOptions) =
      (.ok (g, pageSchema, siteSources), siteTree) := by
  have hsettings : runIn siteDirectory siteTree (readSettings .standard siteOptions) =
      (.ok .standard, siteTree) :=
    Keeps.again (t := siteTree) (keeps_readSettings (by nofun)) _
      (Outcome.ok_of_toOption (by decide +kernel))
  have hschema : runIn siteDirectory siteTree (readSchema .standard "/home/site/schema.json") =
      (.ok pageSchema, siteTree) :=
    Keeps.again (t := siteTree) (keeps_readSchema fun _ h => h) _
      (Outcome.ok_of_toOption (by decide +kernel))
  have hsources : runIn siteDirectory siteTree (readSources "Models") =
      (.ok siteSources, siteTree) :=
    Keeps.again (t := siteTree) (keeps_readSources rfl fun _ _ _ h => h) _
      (Outcome.ok_of_toOption (by decide +kernel))
  have hreferences : runIn siteDirectory siteTree (readReferences .standard siteOptions) =
      (.ok (CSharp.Assembly.standard ++ []), siteTree) := rfl
  have hg' : runIn siteDirectory siteTree (orFail (Generator.ofSettings .standard)) =
      (.ok g, siteTree) := congrArg (·, siteTree) hg
  have hreader : g.reader.references = CSharp.Assembly.standard ++ [] := by
    obtain ⟨_, -, h⟩ := Outcome.bind_eq_ok.1 hg
    obtain ⟨reader, hreader, h⟩ := Outcome.bind_eq_ok.1 h
    obtain ⟨version, -, hreader⟩ := Outcome.bind_eq_ok.1 hreader
    cases h
    cases hreader
    exact (List.append_nil _).symm
  unfold loaded
  rw [runIn_bind_ok hsettings, runIn_bind_ok hschema, siteOptions, runIn_bind_ok hsources,
    ← siteOptions, runIn_bind_ok hreferences, runIn_bind_ok hg', ← hreader]
  rfl

/-- What the generator makes for the site. -/
theorem planned_site :
    planned .standard siteDirectory siteTree "/home/site/schema.json" false siteOptions =
      .ok siteOutput.sources := by
  obtain ⟨g, _, m, _, _, h, -⟩ :=
    @Generator.exists_prepared pageSchema siteSources (fun _ _ _ _ _ => true) (by decide +kernel)
  obtain ⟨out, after, hout, hpass⟩ := h.exists_pass isOneLine_pageSchema
  have hdone : (do
      let g ← Generator.ofSettings .standard
      Generated.texts g.settings (← g.model pageSchema siteSources)) = .ok out.texts :=
    Outcome.bind_eq_ok.2 ⟨g, h.settings, Outcome.bind_eq_ok.2 ⟨m, h.model, hpass.texts⟩⟩
  have htexts : siteOutput.texts = out.texts := congrArg (fun o => o.toOption.getD []) hdone
  have hsources : out.sources = siteOutput.sources := by
    unfold GeneratedModels.sources GeneratedModels.addTo GeneratedModels.files
    rw [htexts]
  have hfiles : filesOf g false pageSchema siteSources = .ok siteOutput.sources :=
    hsources ▸ Outcome.bind_eq_ok.2 ⟨out, hout, rfl⟩
  unfold planned
  rw [runIn_loaded_site h.settings]
  exact hfiles

/-- The earlier files are brought in line, and after that nothing is left to do. -/
theorem runArguments_generate_site :
    ∃ t', runIn siteDirectory siteTree (runArguments .standard none siteArguments) =
        (.ok (.report ⟨["Page.generated.cs"], ["Seo.generated.cs"], ["Old.generated.cs"]⟩), t') ∧
      Synced siteModels siteTree t' siteOutput.sources
        ⟨["Page.generated.cs"], ["Seo.generated.cs"], ["Old.generated.cs"]⟩ ∧
      runIn siteDirectory t' (runArguments .standard none siteArguments) =
        (.ok (.report ⟨[], ["Page.generated.cs", "Seo.generated.cs"], []⟩), t') := by
  have hargs : Codec.standard.commandLine none siteArguments =
      some (.generate "/home/site/schema.json" false siteOptions) := by
    decide +kernel
  have ht : siteTree.WellFormed := by decide +kernel
  have hw : siteTree.HasDirectory siteDirectory := ⟨by decide, by decide +kernel⟩
  have hmodels : resolve siteDirectory "Models" = siteModels := by decide +kernel
  have hschema : resolve siteDirectory "/home/site/schema.json" = siteDirectory ++ ["schema.json"] := by
    decide +kernel
  have hsync : (runIn siteDirectory siteTree (sync siteOptions.modelsDirectory siteOutput.sources)).1 =
      .ok ⟨["Page.generated.cs"], ["Seo.generated.cs"], ["Old.generated.cs"]⟩ :=
    Outcome.ok_of_toOption (by decide +kernel)
  obtain ⟨t', hrun⟩ : ∃ t',
      runIn siteDirectory siteTree (runArguments .standard none siteArguments) =
        (.ok (.report ⟨["Page.generated.cs"], ["Seo.generated.cs"], ["Old.generated.cs"]⟩), t') := by
    rw [runIn_runArguments hargs, runIn_run_of_planned planned_site,
      runIn_bind_ok (Prod.ext hsync rfl)]
    exact ⟨_, rfl⟩
  have hnamed : ∀ path ∈ namedFiles "/home/site/schema.json" siteOptions,
      LeadsElsewhere siteDirectory (resolve siteDirectory "Models") path := by
    intro path hpath name _ heq
    obtain rfl := List.mem_singleton.1 hpath
    rw [hschema, hmodels] at heq
    simp [siteModels] at heq
  obtain ⟨d, report, hreport, hplace, -, hsynced, hagain⟩ :=
    (runArguments_generate Codec.namesDirectories_standard hargs ht hw hnamed hrun).2
      siteOutput.sources planned_site nofun
  cases hreport
  obtain rfl : siteModels = d := hmodels.symm.trans (resolve_of_place? hplace)
  refine ⟨t', hrun, hsynced, ?_⟩
  have hkeys : siteOutput.sources.keys = ["Page.generated.cs", "Seo.generated.cs"] := by
    decide +kernel
  rw [← hkeys]
  exact (hagain fun _ => by decide +kernel).1

end Command
end ContentModels

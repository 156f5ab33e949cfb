import ContentModels.Command.Run
import ContentModels.Proofs.FileTree
import Mathlib.Data.List.Basic

/-!
# What the generator reads

Reading changes no file.  What is read before code is generated (`loaded`) stays the same when
directories are made and generated files directly in the directory of the code change
(`keeps_loaded`): files written by hand have other names, at every depth, and files that the
command line names are required to lie elsewhere.
-/

namespace ContentModels
namespace Command

open FileTree

variable {α β : Type} {c : Codec} {t t' s : FileTree} {w d p q : Place}
  {name path directory schema : String} {options : CommonOptions}

/-! ### Running in a tree -/

/--
What comes of an action in a tree of files, taken from a working directory, and the tree
afterwards.
-/
def runIn (w : Place) (t : FileTree) (x : ExceptT Failure InTree α) : Outcome α × FileTree :=
  (x.run.run w).run t

section Running

variable {x : ExceptT Failure InTree α} {f : α → ExceptT Failure InTree β}

theorem runIn_bind
    (w : Place) (t : FileTree) (x : ExceptT Failure InTree α)
    (f : α → ExceptT Failure InTree β) :
    runIn w t (x >>= f) =
      match (runIn w t x).1 with
      | .ok a => runIn w (runIn w t x).2 (f a)
      | .error e => (.error e, (runIn w t x).2) := by
  unfold runIn
  rw [ExceptT.run_bind, ReaderT.run_bind, StateT.run_bind]
  rcases (x.run.run w).run t with ⟨_ | _, _⟩ <;> rfl

theorem runIn_bind_ok
    {a : α} (h : runIn w t x = (.ok a, t')) :
    runIn w t (x >>= f) = runIn w t' (f a) := by
  rw [runIn_bind, h]

theorem runIn_bind_error
    {e : Failure} (h : runIn w t x = (.error e, t')) :
    runIn w t (x >>= f) = (.error e, t') := by
  rw [runIn_bind, h]

/-- The steps of a run that succeeds. -/
theorem of_runIn_bind
    {b : β} (h : runIn w t (x >>= f) = (.ok b, t')) :
    ∃ a s, runIn w t x = (.ok a, s) ∧ runIn w s (f a) = (.ok b, t') := by
  rw [runIn_bind] at h
  rcases hx : runIn w t x with ⟨_ | a, s⟩
  · rw [hx] at h
    cases h
  · rw [hx] at h
    exact ⟨a, s, rfl, h⟩

/-- Looking at the tree first. -/
theorem runIn_liftM_bind
    {look : InTree α} {a : α} (h : (look.run w).run t = (a, t)) :
    runIn w t (liftM look >>= f) = runIn w t (f a) :=
  runIn_bind_ok (congrArg (fun y : α × FileTree => ((.ok y.1, y.2) : Outcome α × FileTree)) h)

theorem run_readText
    (w : Place) (t : FileTree) (path : String) :
    ((FileAccess.readText path : InTree (Option String)).run w).run t = (t.readText w path, t) := by
  rfl

theorem run_filesIn
    (w : Place) (t : FileTree) (path : String) :
    ((FileAccess.filesIn path : InTree (List String)).run w).run t = (t.filesIn w path, t) := by
  rfl

theorem runIn_readText
    (w : Place) (t : FileTree) (path : String) :
    runIn w t (readText path) =
      (match t.readText w path with
        | some text => .ok text
        | none => .error .fileAccess, t) := by
  unfold readText
  change runIn w t (match t.readText w path with
    | some text => pure text
    | none => throw .fileAccess) = _
  cases t.readText w path <;> rfl

/-- Reading that changes nothing, and that gives the same in another tree where it succeeds. -/
structure Keeps (w : Place) (t t' : FileTree) (x : ExceptT Failure InTree α) : Prop where
  unchanged : (runIn w t x).2 = t
  again : ∀ a, (runIn w t x).1 = .ok a → runIn w t' x = (.ok a, t')

theorem keeps_orFail
    (o : Outcome α) :
    Keeps w t t' (orFail o) :=
  ⟨rfl, fun _ ha => congrArg (fun o => (o, t')) ha⟩

theorem keeps_pure
    (a : α) :
    Keeps w t t' (pure a) :=
  keeps_orFail (.ok a)

theorem Keeps.bind
    (hx : Keeps w t t' x) (hf : ∀ a, Keeps w t t' (f a)) :
    Keeps w t t' (x >>= f) := by
  rcases hrun : runIn w t x with ⟨e | a, s⟩
  · have hs : s = t := by simpa [hrun] using hx.unchanged
    rw [hs] at hrun
    refine ⟨by rw [runIn_bind_error hrun], fun b hb => ?_⟩
    rw [runIn_bind_error hrun] at hb
    cases hb
  · have hs : s = t := by simpa [hrun] using hx.unchanged
    rw [hs] at hrun
    refine ⟨by rw [runIn_bind_ok hrun]; exact (hf a).unchanged, fun b hb => ?_⟩
    rw [runIn_bind_ok hrun] at hb
    rw [runIn_bind_ok (hx.again a (by rw [hrun]))]
    exact (hf a).again b hb

theorem keeps_mapM
    {f : α → ExceptT Failure InTree β} {as : List α}
    (h : ∀ a ∈ as, Keeps w t t' (f a)) :
    Keeps w t t' (as.mapM f) := by
  induction as with
  | nil => exact keeps_pure []
  | cons a as ih =>
    obtain ⟨ha, has⟩ := List.forall_mem_cons.1 h
    rw [List.mapM_cons]
    exact ha.bind fun b => (ih has).bind fun bs => keeps_pure (b :: bs)

/-- A text that is read in one tree is read in another one. -/
def KeepsText (w : Place) (t t' : FileTree) (path : String) : Prop :=
  ∀ text, t.readText w path = some text → t'.readText w path = some text

theorem keeps_readText
    (h : KeepsText w t t' path) :
    Keeps w t t' (readText path) := by
  refine ⟨by rw [runIn_readText], fun a ha => ?_⟩
  rw [runIn_readText] at ha ⊢
  cases htext : t.readText w path with
  | none =>
    rw [htext] at ha
    cases ha
  | some text =>
    rw [htext] at ha
    rw [h text htext]
    exact congrArg (fun o => (o, t')) ha

end Running

/-! ### What is loaded -/

section Loading

variable {m : Type → Type} [Monad m] [FileAccess m]

/-- What the generator reads: how to generate, for what schema and next to what code. -/
def loaded (c : Codec) (schema : String) (options : CommonOptions) :
    ExceptT Failure m (Generator × List ContentType × SourceFiles) := do
  let settings ← readSettings c options
  let types ← readSchema c schema
  let sources ← readSources options.modelsDirectory
  let references ← readReferences c options
  let g ← orFail (Generator.ofSettings settings)
  return ({ g with reader := { g.reader with references } }, types, sources)

/-- All is read first, then code is generated, and only then files change. -/
theorem run_generate
    [LawfulMonad m] (c : Codec) (schema : String) (singleFile : Bool) (options : CommonOptions) :
    (run c (.generate schema singleFile options) : ExceptT Failure m Answer) = do
      let x ← loaded c schema options
      let files ← orFail (filesOf x.1 singleFile x.2.1 x.2.2)
      return .report (← sync options.modelsDirectory files) := by
  simp only [run, loaded, bind_assoc, pure_bind]

end Loading

/-- The files that the command line names. -/
def namedFiles (schema : String) (options : CommonOptions) : List String :=
  schema :: (options.settingsFile.toList ++ options.references)

/-- The paths of the code written by hand below a directory. -/
def sourcePaths (w : Place) (t : FileTree) (directory : String) : List String :=
  (t.filesBelow w directory).filter (isSource directory)

theorem keeps_readDocument
    {read : String → Option α} (h : KeepsText w t t' path) :
    Keeps w t t' (readDocument path read) := by
  refine (keeps_readText h).bind fun text => ?_
  cases read text with
  | none => exact keeps_orFail (.error .malformedDocument)
  | some a => exact keeps_pure a

theorem keeps_readSettings
    (h : ∀ path ∈ options.settingsFile, KeepsText w t t' path) :
    Keeps w t t' (readSettings c options) := by
  unfold readSettings
  cases hfile : options.settingsFile with
  | none => exact (keeps_pure _).bind fun _ => (keeps_orFail _).bind fun _ => keeps_pure _
  | some path =>
    exact (keeps_readDocument (h path hfile)).bind fun _ => (keeps_orFail _).bind fun _ =>
      (keeps_pure _).bind fun _ => (keeps_orFail _).bind fun _ => keeps_pure _

theorem keeps_readSchema
    (h : KeepsText w t t' schema) :
    Keeps w t t' (readSchema c schema) :=
  (keeps_readDocument h).bind fun _ => (keeps_orFail _).bind fun _ => keeps_pure _

theorem keeps_readReferences
    (h : ∀ path ∈ options.references, KeepsText w t t' path) :
    Keeps w t t' (readReferences c options) :=
  (keeps_mapM fun path hpath => keeps_readDocument (h path hpath)).bind fun _ => keeps_pure _

/-- The texts of files at some paths, by these paths. -/
def readAll (directory : String) (paths : List String) :
    ExceptT Failure InTree SourceFiles := do
  let files ← paths.mapM fun path => do
    return (path, ← readText (inDirectory directory path))
  return .ofList files

theorem runIn_readSources
    (w : Place) (t : FileTree) (directory : String) :
    runIn w t (readSources directory) = runIn w t (readAll directory (sourcePaths w t directory)) := by
  rfl

theorem keeps_readSources
    (hpaths : sourcePaths w t' directory = sourcePaths w t directory)
    (h : ∀ path ∈ sourcePaths w t directory, KeepsText w t t' (inDirectory directory path)) :
    Keeps w t t' (readSources directory) := by
  have hall : Keeps w t t' (readAll directory (sourcePaths w t directory)) :=
    (keeps_mapM fun path hpath => (keeps_readText (h path hpath)).bind fun _ => keeps_pure _).bind
      fun _ => keeps_pure _
  refine ⟨?_, fun a ha => ?_⟩
  · rw [runIn_readSources]
    exact hall.unchanged
  · rw [runIn_readSources] at ha ⊢
    rw [hpaths]
    exact hall.again a ha

theorem keeps_loaded
    (hnamed : ∀ path ∈ namedFiles schema options, KeepsText w t t' path)
    (hpaths : sourcePaths w t' options.modelsDirectory = sourcePaths w t options.modelsDirectory)
    (h : ∀ path ∈ sourcePaths w t options.modelsDirectory,
      KeepsText w t t' (inDirectory options.modelsDirectory path)) :
    Keeps w t t' (loaded c schema options) := by
  obtain ⟨hschema, hothers⟩ := List.forall_mem_cons.1 hnamed
  refine (keeps_readSettings fun path hpath => hothers path ?_).bind fun _ =>
    (keeps_readSchema hschema).bind fun _ => (keeps_readSources hpaths h).bind fun _ =>
    (keeps_readReferences fun path hpath => hothers path ?_).bind fun _ =>
    (keeps_orFail _).bind fun _ => keeps_pure _
  · exact List.mem_append_left _ (Option.mem_toList.2 hpath)
  · exact List.mem_append_right _ hpath

/-- Loading changes nothing. -/
theorem runIn_loaded
    (c : Codec) (w : Place) (t : FileTree) (schema : String) (options : CommonOptions) :
    (runIn w t (loaded c schema options)).2 = t := by
  have h : Keeps w t t (loaded c schema options) :=
    keeps_loaded (fun _ _ _ h => h) rfl fun _ _ _ h => h
  exact h.unchanged

/-! ### Names at the end of paths -/

theorem foldl_follow_filter
    (names : List String) (p : Place) :
    names.foldl follow p = (names.filter fun s => !s.isEmpty && s != ".").foldl follow p := by
  induction names generalizing p with
  | nil => rfl
  | cons name names ih =>
    rw [List.foldl_cons, List.filter_cons]
    by_cases hhere : (name.isEmpty || name == ".") = true
    · have hdrop : (!name.isEmpty && name != ".") = false := by
        rw [bne, ← Bool.not_or, hhere]
        rfl
      rw [hdrop, if_neg (by simp), follow, if_pos hhere]
      exact ih p
    · have hkeep : (!name.isEmpty && name != ".") = true := by
        rw [bne, ← Bool.not_or, Bool.eq_false_iff.2 hhere]
        rfl
      rw [if_pos hkeep, List.foldl_cons]
      exact ih (follow p name)

/-- A path leads to a place of its last name. -/
theorem getLast?_resolve
    (w : Place) (hne : lastName path ≠ "") (hup : lastName path ≠ "..") :
    (resolve w path).getLast? = some (lastName path) := by
  unfold resolve
  rw [foldl_follow_filter]
  unfold lastName at hne hup ⊢
  generalize hkept : (Text.split '/' path).filter (fun s => !s.isEmpty && s != ".") = kept at *
  induction kept using List.reverseRecOn with
  | nil => exact absurd rfl hne
  | append_singleton names last _ =>
    rw [List.getLast?_concat, Option.getD_some] at hne hup ⊢
    have hlast : last ∈ (Text.split '/' path).filter fun s => !s.isEmpty && s != "." := by
      rw [hkept]
      simp
    obtain ⟨hsplit, hhere⟩ := List.mem_filter.1 hlast
    have hname : IsName last :=
      ⟨hne, fun heq => by simp [heq] at hhere, hup, Text.not_mem_of_mem_split hsplit⟩
    rw [List.foldl_append, List.foldl_cons, List.foldl_nil, follow_isName _ hname,
      List.getLast?_concat]

/-- The name of a file in a directory. -/
theorem lastName_inDirectory
    (directory : String) (h : IsName name) :
    lastName (inDirectory directory name) = name := by
  have hempty : name.isEmpty = false := by
    rw [Bool.eq_false_iff, ne_eq, String.isEmpty_iff]
    exact h.ne_empty
  have hkeep : (!name.isEmpty && name != ".") = true := by simp [hempty, h.ne_here]
  unfold inDirectory lastName
  rw [hempty, if_neg (by simp), show ("/" : String) = String.singleton '/' from rfl,
    Text.split_append, Text.split_of_not_mem h.no_slash, List.filter_append,
    List.filter_cons, hkeep, if_pos rfl, List.filter_nil, List.getLast?_concat, Option.getD_some]

/-! ### Trees with the same code -/

/-- Trees that differ in generated files directly in a directory only. -/
def SameBut (d : Place) (t t' : FileTree) : Prop :=
  ∀ k, t'.get? k = t.get? k ∨ ∃ name, IsName name ∧ isGeneratedName name = true ∧
    k = pathOf (d ++ [name]) ∧ t.get? k ≠ some .directory ∧ t'.get? k ≠ some .directory

theorem SameBut.refl (d : Place) (t : FileTree) : SameBut d t t :=
  fun _ => .inl rfl

theorem SameBut.trans
    {t'' : FileTree} (h : SameBut d t t') (h' : SameBut d t' t'') :
    SameBut d t t'' := by
  intro k
  rcases h k with heq | ⟨name, hname, hgen, hk, hdir, hdir'⟩
  · rcases h' k with heq' | ⟨name, hname, hgen, hk, hdir, hdir'⟩
    · exact .inl (heq'.trans heq)
    · exact .inr ⟨name, hname, hgen, hk, heq ▸ hdir, hdir'⟩
  · rcases h' k with heq' | ⟨-, -, -, -, -, hdir''⟩
    · exact .inr ⟨name, hname, hgen, hk, hdir, heq' ▸ hdir'⟩
    · exact .inr ⟨name, hname, hgen, hk, hdir, hdir''⟩

theorem SameBut.isDirectory
    (h : SameBut d t t') (hp : t.isDirectory p = true) :
    t'.isDirectory p = true := by
  refine isDirectory_of_get? hp fun hget => ?_
  rcases h (pathOf p) with heq | ⟨-, -, -, -, hdir, -⟩
  · exact heq.trans hget
  · exact absurd hget hdir

/-- A path that leads elsewhere than to a generated file in a directory. -/
def LeadsElsewhere (w d : Place) (path : String) : Prop :=
  ∀ name, isGeneratedName name = true → resolve w path ≠ d ++ [name]

/-- The generator makes directories and then changes generated files. -/
structure Changed (d : Place) (t s t' : FileTree) : Prop where
  grown : Grown t s
  sameBut : SameBut d s t'
  isName : ∀ n ∈ d, IsName n

theorem Changed.isDirectory
    (h : Changed d t s t') (hp : t.isDirectory p = true) :
    t'.isDirectory p = true :=
  h.sameBut.isDirectory (h.grown.isDirectory hp)

/-- Files elsewhere are as they were. -/
theorem Changed.get?_iff
    {k : String} {e : FileEntry} (h : Changed d t s t') (he : e.isFile = true)
    (hk : ∀ name, IsName name → isGeneratedName name = true → k ≠ pathOf (d ++ [name])) :
    t'.get? k = some e ↔ t.get? k = some e := by
  have hsame : t'.get? k = s.get? k := by
    rcases h.sameBut k with heq | ⟨name, hname, hgen, heq, -⟩
    · exact heq
    · exact absurd heq (hk name hname hgen)
  rw [hsame]
  rcases h.grown k with heq | ⟨hnone, hdir⟩
  · rw [heq]
  · rw [hnone, hdir]
    constructor
    · rintro ⟨⟩
      cases he
    · rintro ⟨⟩

theorem Changed.fileAt_eq
    (h : Changed d t s t') (hq : ∀ n ∈ q, IsName n)
    (hother : ∀ name, isGeneratedName name = true → q ≠ d ++ [name]) :
    t'.fileAt q = t.fileAt q := by
  by_cases hne : q = []
  · rw [hne]
    rfl
  · refine Option.ext fun e => ?_
    unfold fileAt
    rw [entry?_of_ne_nil _ hne, entry?_of_ne_nil _ hne, Option.filter_eq_some_iff,
      Option.filter_eq_some_iff]
    refine and_congr_left fun he => h.get?_iff he fun name hname hgen heq => ?_
    refine hother name hgen (eq_of_pathOf_eq hne (by simp) hq ?_ heq)
    simpa [or_imp, forall_and] using ⟨h.isName, hname⟩

theorem Changed.keepsText
    (h : Changed d t s t') (hw : t.HasDirectory w) (hpath : LeadsElsewhere w d path) :
    KeepsText w t t' path := by
  intro text htext
  obtain ⟨q, hplace, hfile⟩ := readText_eq_some.1 htext
  obtain rfl := resolve_of_place? hplace
  refine readText_eq_some.2 ⟨_, place?_mono (fun _ => h.isDirectory) hplace, ?_⟩
  rw [h.fileAt_eq (isName_of_resolve hw.isName path) hpath]
  exact hfile

theorem isSource_eq_false
    (directory : String) (hname : IsName name) (hgen : isGeneratedName name = true) :
    isSource directory name = false := by
  unfold isSource
  rw [lastName_inDirectory directory hname]
  simp [hgen]

/-- Code written by hand does not have the name of a generated file. -/
theorem leadsElsewhere_of_isSource
    (w d : Place) (h : isSource directory path = true) :
    LeadsElsewhere w d (inDirectory directory path) := by
  simp only [isSource, Bool.and_eq_true, Bool.not_eq_true'] at h
  intro name hgen heq
  have hlast := getLast?_resolve w
    (fun hempty => absurd (hempty ▸ h.1) (by decide)) (fun hup => absurd (hup ▸ h.1) (by decide))
  rw [heq, List.getLast?_concat, Option.some.injEq] at hlast
  rw [hlast, h.2] at hgen
  cases hgen

/-- Entries that are kept are the same if they are the same by their keys. -/
theorem filterMap_entries_eq
    {γ : Type} {f : String × α → Option γ} {t t' : Keyed α}
    (h : ∀ k a, (f (k, a)).isSome = true → (t'.get? k = some a ↔ t.get? k = some a)) :
    t'.entries.filterMap f = t.entries.filterMap f := by
  have hkept : ∀ u : Keyed α,
      u.entries.filterMap f = (u.entries.filter fun e => (f e).isSome).filterMap f := by
    intro u
    rw [List.filterMap_filter]
    refine List.filterMap_congr fun e _ => ?_
    cases f e <;> rfl
  rw [hkept t, hkept t']
  refine congrArg _ (Keyed.eq_of_mem_iff (t'.sorted.filter _) (t.sorted.filter _) fun x => ?_)
  obtain ⟨k, a⟩ := x
  rw [List.mem_filter, List.mem_filter, Keyed.mem_entries_iff, Keyed.mem_entries_iff]
  exact and_congr_left fun hx => h k a hx

/-- The code below a place is the same. -/
theorem Changed.sourcesBelow_eq
    (h : Changed d t s t') (directory : String) :
    (((t'.below d).filter (·.2.isFile)).map (·.1)).filter (isSource directory) =
      (((t.below d).filter (·.2.isFile)).map (·.1)).filter (isSource directory) := by
  simp only [below_eq, List.filter_filterMap, List.map_filterMap]
  refine filterMap_entries_eq fun k e hsome => ?_
  obtain ⟨rest, hrest⟩ := Option.isSome_iff_exists.1 hsome
  obtain ⟨hrest, hsource⟩ := Option.filter_eq_some_iff.1 hrest
  obtain ⟨x, hx, rfl⟩ := Option.map_eq_some_iff.1 hrest
  obtain ⟨hx, hfile⟩ := Option.filter_eq_some_iff.1 hx
  have hkey := eq_of_drop hx
  rw [String.ofList_toList] at hkey
  obtain ⟨rfl, rfl⟩ := Prod.mk.inj hkey
  refine h.get?_iff hfile fun name hname hgen heq => ?_
  rw [pathOf_append_startOf d (List.cons_ne_nil _ _), pathOf_singleton,
    String.append_right_inj] at heq
  rw [heq, isSource_eq_false directory hname hgen] at hsource
  cases hsource

/-- The code below the directory is found as before, if its path led there before. -/
theorem Changed.sourcePaths_eq
    (h : Changed d t s t') (ht : t.WellFormed) (hplace : t'.place? w directory = some d)
    (hd : s.isDirectory d = true)
    (hreach : t.isDirectory d = true → t.place? w directory = some d) :
    sourcePaths w t' directory = sourcePaths w t directory := by
  have hentry : t'.entry? d = some .directory := beq_iff_eq.1 (h.sameBut.isDirectory hd)
  have hafter : t'.filesBelow w directory = ((t'.below d).filter (·.2.isFile)).map (·.1) := by
    unfold filesBelow
    simp only [hplace, hentry]
  unfold sourcePaths
  rw [hafter, h.sourcesBelow_eq]
  cases hdir : t.isDirectory d with
  | true =>
    have hentry : t.entry? d = some .directory := beq_iff_eq.1 hdir
    unfold filesBelow
    simp only [hreach hdir, hentry]
  | false =>
    have hne : d ≠ [] := by
      rintro rfl
      cases hdir
    -- Nothing was at the place before, so nothing was found and nothing was below it.
    have hnone : t.entry? d = none := by
      rw [entry?_of_ne_nil t hne]
      rcases h.grown (pathOf d) with heq | ⟨hnone, -⟩
      · rw [isDirectory_iff hne, heq, ← isDirectory_iff hne, hdir] at hd
        cases hd
      · exact hnone
    have hbefore : t.filesBelow w directory = [] := by
      unfold filesBelow
      cases hp : t.place? w directory with
      | none => rfl
      | some p =>
        have hsame : p = d := (resolve_of_place? hp).symm.trans (resolve_of_place? hplace)
        simp only [hsame, hnone]
    rw [hbefore, ht.below_eq_nil hne h.isName hdir]
    rfl

/-- What the generator reads is as before. -/
theorem Changed.keeps_loaded
    (h : Changed d t s t') (ht : t.WellFormed) (hw : t.HasDirectory w)
    (hplace : t'.place? w options.modelsDirectory = some d) (hd : s.isDirectory d = true)
    (hreach : t.isDirectory d = true → t.place? w options.modelsDirectory = some d)
    (hnamed : ∀ path ∈ namedFiles schema options, LeadsElsewhere w d path) :
    Keeps w t t' (loaded c schema options) := by
  refine Command.keeps_loaded (fun path hpath => h.keepsText hw (hnamed path hpath))
    (h.sourcePaths_eq ht hplace hd hreach) fun path hpath => h.keepsText hw ?_
  exact leadsElsewhere_of_isSource w d (List.mem_filter.1 hpath).2

end Command
end ContentModels

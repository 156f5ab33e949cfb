import ContentModels.Proofs.Command.Inputs

/-!
# Bringing a directory in line

Stale generated files directly in a directory are removed, those that differ are written, and no
other file is touched (`Synced`, `of_runIn_sync`).  Where all is in line already, nothing is left
to do (`runIn_sync_self`), and nothing fails but access to a file.
-/

namespace ContentModels
namespace Command

open FileTree

variable {α β : Type} {t t' s : FileTree} {w d : Place} {name directory : String}
  {files : SourceFiles} {report : Report}

/-! ### Names of generated files -/

theorem isName_of_isGeneratedName
    (hslash : '/' ∉ name.toList) (h : isGeneratedName name = true) :
    IsName name where
  ne_empty := by
    rintro rfl
    exact absurd h (by decide)
  ne_here := by
    rintro rfl
    exact absurd h (by decide)
  ne_up := by
    rintro rfl
    exact absurd h (by decide)
  no_slash := hslash

/-- A name that a generated file can have. -/
def IsOutputName (name : String) : Prop :=
  IsName name ∧ isGeneratedName name = true

theorem isOutputName_fileName
    {className : String} (h : '/' ∉ className.toList) :
    IsOutputName (Generated.fileName className) := by
  have hgen : isGeneratedName (Generated.fileName className) = true := by
    unfold isGeneratedName Generated.fileName
    rw [List.isSuffixOf_iff_suffix, String.toList_append]
    exact List.suffix_append _ _
  refine ⟨isName_of_isGeneratedName ?_ hgen, hgen⟩
  unfold Generated.fileName
  rw [String.toList_append, List.mem_append]
  exact not_or.2 ⟨h, by decide⟩

/-! ### Single changes -/

/-- A path that leads from a working directory to a directory of a tree. -/
structure LeadsTo (w : Place) (t : FileTree) (directory : String) (d : Place) : Prop where
  wellFormed : t.WellFormed
  place : t.place? w directory = some d
  target : t.HasDirectory d

namespace LeadsTo

theorem isName_append
    (h : LeadsTo w t directory d) (hname : IsName name) :
    ∀ n ∈ d ++ [name], IsName n := by
  simpa [or_imp, forall_and] using ⟨h.target.isName, hname⟩

theorem place?_inDirectory
    (h : LeadsTo w t directory d) (hname : IsName name) :
    t.place? w (inDirectory directory name) = some (d ++ [name]) := by
  unfold inDirectory
  rw [if_neg (by simpa using hname.ne_empty)]
  exact place?_append hname h.place h.target.isDirectory

theorem readText_inDirectory
    {text : String} (h : LeadsTo w t directory d) (hname : IsName name) :
    t.readText w (inDirectory directory name) = some text ↔
      t.fileAt (d ++ [name]) = some (.text text) := by
  rw [readText_eq_some, h.place?_inDirectory hname]
  simp

/-- Different files in a directory have different paths. -/
theorem pathOf_inj
    {name' : String} (h : LeadsTo w t directory d) (hname : IsName name) (hname' : IsName name')
    (heq : pathOf (d ++ [name]) = pathOf (d ++ [name'])) :
    name = name' := by
  have hplace := eq_of_pathOf_eq (by simp) (by simp) (h.isName_append hname)
    (h.isName_append hname') heq
  simpa using hplace

theorem of_sameBut
    (h : LeadsTo w t directory d) (ht' : t'.WellFormed) (hsame : SameBut d t t') :
    LeadsTo w t' directory d :=
  ⟨ht', place?_mono (fun _ => hsame.isDirectory) h.place, h.target.isName,
    hsame.isDirectory h.target.isDirectory⟩

end LeadsTo

/-- What becomes of a change that may be impossible. -/
theorem runIn_demand
    (w : Place) (t : FileTree) (change : FileTree → Place → Option FileTree) :
    runIn w t (demand (InTree.attempt change)) =
      match change t w with
      | some u => (.ok (), u)
      | none => (.error .fileAccess, t) := by
  have hattempt : ((InTree.attempt change).run w).run t = match change t w with
      | some u => (true, u)
      | none => (false, t) := rfl
  change (do
    let x ← ((InTree.attempt change).run w).run t
    ((if !x.1 then (throw Failure.fileAccess : ExceptT Failure InTree Unit)
      else pure ()).run.run w).run x.2) = _
  rw [hattempt]
  cases change t w <;> rfl

theorem of_runIn_demand
    {change : FileTree → Place → Option FileTree}
    (h : runIn w t (demand (InTree.attempt change)) = (.ok (), t')) :
    change t w = some t' := by
  rw [runIn_demand] at h
  split at h
  · cases h
    assumption
  · cases h

/-- A change of one generated file. -/
structure Touched (w : Place) (directory : String) (d : Place) (name : String) (t t' : FileTree)
    (e : Option FileEntry) : Prop where
  leadsTo : LeadsTo w t' directory d
  sameBut : SameBut d t t'
  get?_eq : ∀ k, t'.get? k = if k = pathOf (d ++ [name]) then e else t.get? k

theorem touched_of_get?
    {e : Option FileEntry} (hl : LeadsTo w t directory d) (hname : IsOutputName name)
    (ht' : t'.WellFormed) (hdir : t.isDirectory (d ++ [name]) = false)
    (he : e ≠ some .directory)
    (hget : ∀ k, t'.get? k = if k = pathOf (d ++ [name]) then e else t.get? k) :
    Touched w directory d name t t' e := by
  have hsame : SameBut d t t' := by
    intro k
    rw [hget]
    split
    · rename_i hk
      refine .inr ⟨name, hname.1, hname.2, hk, fun hget => ?_, he⟩
      rw [hk, ← isDirectory_iff (by simp), hdir] at hget
      cases hget
    · exact .inl rfl
  exact ⟨hl.of_sameBut ht' hsame, hsame, hget⟩

theorem touched_of_removeFile
    (hl : LeadsTo w t directory d) (hname : IsOutputName name)
    (h : t.removeFile w (inDirectory directory name) = some t') :
    Touched w directory d name t t' none := by
  obtain ⟨rfl, hdir⟩ := hl.wellFormed.removeFile_eq_some (by simp) (hl.isName_append hname.1)
    (hl.place?_inDirectory hname.1) h
  refine touched_of_get? hl hname (hl.wellFormed.erase fun hget => ?_) hdir (by simp)
    (get?_erase t _)
  rw [← isDirectory_iff (by simp), hdir] at hget
  cases hget

theorem touched_of_write
    {text : String} (hl : LeadsTo w t directory d) (hname : IsOutputName name)
    (h : t.write w (inDirectory directory name) (.text text) = some t') :
    Touched w directory d name t t' (some (.text text)) := by
  obtain ⟨rfl, hdir⟩ := write_eq_some (hl.place?_inDirectory hname.1) h
  refine touched_of_get? hl hname (hl.wellFormed.put (hl.isName_append hname.1) hl.target.isDirectory
    (.inr fun hget => ?_)) hdir (by simp) (get?_put t _ _)
  rw [← isDirectory_iff (by simp), hdir] at hget
  cases hget

/-! ### Removing and writing -/

theorem of_runIn_removeFiles
    {names : List String} (hl : LeadsTo w t directory d) (hnames : ∀ n ∈ names, IsOutputName n)
    (h : runIn w t (removeFiles directory names) = (.ok (), t')) :
    LeadsTo w t' directory d ∧ SameBut d t t' ∧
      ∀ k, t'.get? k = if k ∈ names.map (fun n => pathOf (d ++ [n])) then none else t.get? k := by
  induction names generalizing t with
  | nil =>
    cases h
    exact ⟨hl, SameBut.refl d _, fun k => by simp⟩
  | cons name names ih =>
    obtain ⟨hname, hrest⟩ := List.forall_mem_cons.1 hnames
    rw [removeFiles] at h
    obtain ⟨_, s, hremove, h⟩ := of_runIn_bind h
    have hs := touched_of_removeFile hl hname (of_runIn_demand hremove)
    obtain ⟨hl', hsame, hget⟩ := ih hs.leadsTo hrest h
    refine ⟨hl', hs.sameBut.trans hsame, fun k => ?_⟩
    rw [hget, hs.get?_eq]
    by_cases hk : k = pathOf (d ++ [name]) <;> simp [hk]

/-- What comes of writing the files that differ. -/
structure Written (w : Place) (directory : String) (d : Place) (files : List (String × String))
    (t t' : FileTree) (written unchanged : List String) : Prop where
  leadsTo : LeadsTo w t' directory d
  sameBut : SameBut d t t'
  texts : ∀ e ∈ files, t'.get? (pathOf (d ++ [e.1])) = some (.text e.2)
  others : ∀ k, k ∉ files.map (fun e => pathOf (d ++ [e.1])) → t'.get? k = t.get? k
  partition : (written ++ unchanged).Perm (files.map (·.1))
  unchanged_iff : ∀ name, name ∈ unchanged ↔
    ∃ text, (name, text) ∈ files ∧ t.fileAt (d ++ [name]) = some (.text text)

theorem fileAt_eq_text_iff
    {text : String} :
    t.fileAt (d ++ [name]) = some (.text text) ↔
      t.get? (pathOf (d ++ [name])) = some (.text text) := by
  unfold fileAt
  rw [entry?_append_singleton, Option.filter_eq_some_iff]
  exact and_iff_left rfl

namespace Written

variable {text : String} {files : List (String × String)} {written unchanged : List String}

/-- A file whose text is there already is one more that stays. -/
theorem cons_unchanged
    (hw : Written w directory d files t t' written unchanged)
    (hpath : pathOf (d ++ [name]) ∉ files.map (fun e => pathOf (d ++ [e.1])))
    (htext : t.fileAt (d ++ [name]) = some (.text text)) :
    Written w directory d ((name, text) :: files) t t' written (name :: unchanged) := by
  refine ⟨hw.leadsTo, hw.sameBut, List.forall_mem_cons.2 ⟨?_, hw.texts⟩, fun k hk => ?_,
    List.perm_middle.trans (hw.partition.cons name), fun n => ?_⟩
  · rw [hw.others _ hpath]
    exact fileAt_eq_text_iff.1 htext
  · exact hw.others k fun hmem => hk (List.mem_cons_of_mem _ hmem)
  · rw [List.mem_cons, hw.unchanged_iff]
    constructor
    · rintro (rfl | ⟨text', hmem, hfile⟩)
      · exact ⟨text, List.mem_cons_self, htext⟩
      · exact ⟨text', List.mem_cons_of_mem _ hmem, hfile⟩
    · rintro ⟨text', hmem, hfile⟩
      rcases List.mem_cons.1 hmem with heq | hmem
      · exact .inl (Prod.mk.inj heq).1
      · exact .inr ⟨text', hmem, hfile⟩

/-- A file that differs is one more that is written. -/
theorem cons_written
    (hs : Touched w directory d name t s (some (.text text)))
    (hw : Written w directory d files s t' written unchanged)
    (hother : ∀ e ∈ files, pathOf (d ++ [e.1]) ≠ pathOf (d ++ [name]))
    (hdiffers : t.fileAt (d ++ [name]) ≠ some (.text text)) :
    Written w directory d ((name, text) :: files) t t' (name :: written) unchanged := by
  refine ⟨hw.leadsTo, hs.sameBut.trans hw.sameBut, List.forall_mem_cons.2 ⟨?_, hw.texts⟩,
    fun k hk => ?_, hw.partition.cons name, fun n => ?_⟩
  · have hpath : pathOf (d ++ [name]) ∉ files.map (fun e => pathOf (d ++ [e.1])) := by
      rw [List.mem_map]
      rintro ⟨e, he, heq⟩
      exact hother e he heq
    rw [hw.others _ hpath, hs.get?_eq, if_pos rfl]
  · rw [List.map_cons, List.mem_cons, not_or] at hk
    rw [hw.others k hk.2, hs.get?_eq, if_neg hk.1]
  · have hfile : ∀ text', (n, text') ∈ files →
        (s.fileAt (d ++ [n]) = some (.text text') ↔ t.fileAt (d ++ [n]) = some (.text text')) := by
      intro text' hmem
      rw [fileAt_eq_text_iff, fileAt_eq_text_iff, hs.get?_eq, if_neg (hother _ hmem)]
    rw [hw.unchanged_iff]
    constructor
    · rintro ⟨text', hmem, htext⟩
      exact ⟨text', List.mem_cons_of_mem _ hmem, (hfile text' hmem).1 htext⟩
    · rintro ⟨text', hmem, htext⟩
      rcases List.mem_cons.1 hmem with heq | hmem
      · obtain ⟨rfl, rfl⟩ := Prod.mk.inj heq
        exact absurd htext hdiffers
      · exact ⟨text', hmem, (hfile text' hmem).2 htext⟩

end Written

theorem of_runIn_writeFiles
    {files : List (String × String)} {written unchanged : List String}
    (hl : LeadsTo w t directory d) (hfiles : ∀ e ∈ files, IsOutputName e.1)
    (hnodup : (files.map (·.1)).Nodup)
    (h : runIn w t (writeFiles directory files) = (.ok (written, unchanged), t')) :
    Written w directory d files t t' written unchanged := by
  induction files generalizing t written unchanged with
  | nil =>
    cases h
    exact ⟨hl, SameBut.refl d _, by simp, fun _ _ => rfl, .refl _, by simp⟩
  | cons file files ih =>
    obtain ⟨name, text⟩ := file
    obtain ⟨hname, hrest⟩ := List.forall_mem_cons.1 hfiles
    rw [List.map_cons, List.nodup_cons] at hnodup
    have hother : ∀ e ∈ files, pathOf (d ++ [e.1]) ≠ pathOf (d ++ [name]) := fun e he heq =>
      hnodup.1 (hl.pathOf_inj (hrest e he).1 hname.1 heq ▸ List.mem_map_of_mem he)
    rw [writeFiles] at h
    obtain ⟨present, s, hread, h⟩ := of_runIn_bind h
    cases hread
    split at h
    · rename_i hsame
      obtain ⟨⟨w, u⟩, s, hwrite, h⟩ := of_runIn_bind h
      cases h
      refine (ih hl hrest hnodup.2 hwrite).cons_unchanged ?_
        ((hl.readText_inDirectory hname.1).1 (beq_iff_eq.1 hsame))
      rw [List.mem_map]
      rintro ⟨e, he, heq⟩
      exact hother e he heq
    · rename_i hdiffers
      obtain ⟨_, s, hput, h⟩ := of_runIn_bind h
      have hs := touched_of_write hl hname (of_runIn_demand hput)
      obtain ⟨⟨w, u⟩, s', hwrite, h⟩ := of_runIn_bind h
      cases h
      refine .cons_written hs (ih hs.leadsTo hrest hnodup.2 hwrite) hother fun htext => ?_
      exact hdiffers (beq_iff_eq.2 ((hl.readText_inDirectory hname.1).2 htext))

/-! ### Bringing a directory in line -/

/--
The generated files in a directory are exactly some files, nothing else has changed, and a report
says what it took to get there.
-/
structure Synced (d : Place) (t t' : FileTree) (files : SourceFiles) (report : Report) :
    Prop where
  generated : ∀ name, IsOutputName name →
    t'.fileAt (d ++ [name]) = (files.get? name).map .text
  others : ∀ q, (∀ n ∈ q, IsName n) → (∀ name, isGeneratedName name = true → q ≠ d ++ [name]) →
    t'.fileAt q = t.fileAt q
  partition : (report.written ++ report.unchanged).Perm files.keys
  unchanged_iff : ∀ name, name ∈ report.unchanged ↔
    ∃ text, files.get? name = some text ∧ t.fileAt (d ++ [name]) = some (.text text)
  nodup_removed : report.removed.Nodup
  removed_iff : ∀ name, name ∈ report.removed ↔
    IsOutputName name ∧ (t.fileAt (d ++ [name])).isSome = true ∧ files.get? name = none

/-- The generated files directly in a directory that are not among some files. -/
def staleIn (w : Place) (t : FileTree) (directory : String) (files : SourceFiles) : List String :=
  (t.filesIn w directory).filter fun name => isGeneratedName name && !files.contains name

theorem mem_staleIn
    (hplace : t.place? w directory = some d) (hd : t.isDirectory d = true) :
    name ∈ staleIn w t directory files ↔
      IsOutputName name ∧ (t.fileAt (d ++ [name])).isSome = true ∧ files.get? name = none := by
  unfold staleIn
  rw [List.mem_filter, mem_filesIn hplace hd]
  simp only [Bool.and_eq_true, Bool.not_eq_true', Keyed.contains, Option.isSome_eq_false_iff,
    Option.isNone_iff_eq_none]
  constructor
  · rintro ⟨⟨-, hslash, hfile⟩, hgen, hget⟩
    exact ⟨⟨isName_of_isGeneratedName hslash hgen, hgen⟩, hfile, hget⟩
  · rintro ⟨⟨hname, hgen⟩, hfile, hget⟩
    exact ⟨⟨hname.ne_empty, hname.no_slash, hfile⟩, hgen, hget⟩

/-- Where the stale files are removed, those that are to be there stay as they are. -/
theorem fileAt_removed
    (hl : LeadsTo w t directory d)
    (hget : ∀ k, s.get? k = if k ∈ (staleIn w t directory files).map (fun n => pathOf (d ++ [n]))
      then none else t.get? k)
    (hname : IsOutputName name) :
    s.fileAt (d ++ [name]) =
      if files.get? name = none then none else t.fileAt (d ++ [name]) := by
  have hstale : ∀ n, n ∈ staleIn w t directory files ↔ IsOutputName n ∧
      (t.fileAt (d ++ [n])).isSome = true ∧ files.get? n = none :=
    fun n => mem_staleIn hl.place hl.target.isDirectory
  by_cases hmem : name ∈ staleIn w t directory files
  · rw [if_pos ((hstale name).1 hmem).2.2, fileAt, entry?_append_singleton, hget,
      if_pos (List.mem_map_of_mem hmem)]
    rfl
  · have hkept : s.fileAt (d ++ [name]) = t.fileAt (d ++ [name]) := by
      unfold fileAt
      rw [entry?_append_singleton, entry?_append_singleton, hget, if_neg]
      rw [List.mem_map]
      rintro ⟨n, hn, heq⟩
      exact hmem (hl.pathOf_inj ((hstale n).1 hn).1.1 hname.1 heq ▸ hn)
    rw [hkept]
    split
    · rename_i hnone
      rw [← Option.not_isSome_iff_eq_none]
      exact fun hfile => hmem ((hstale name).2 ⟨hname, hfile, hnone⟩)
    · rfl

/-- What is written is in the directory, and what is not written is as it was. -/
theorem Written.fileAt_eq
    {written unchanged : List String}
    (hw : Written w directory d files.entries t t' written unchanged)
    (hfiles : ∀ e ∈ files.entries, IsOutputName e.1) (hname : IsOutputName name) :
    t'.fileAt (d ++ [name]) =
      match files.get? name with
      | some text => some (.text text)
      | none => t.fileAt (d ++ [name]) := by
  split
  · rename_i text hget
    exact fileAt_eq_text_iff.2 (hw.texts (name, text) (Keyed.mem_entries_iff.2 hget))
  · rename_i hget
    unfold fileAt
    rw [entry?_append_singleton, entry?_append_singleton, hw.others]
    rw [List.mem_map]
    rintro ⟨e, he, heq⟩
    obtain rfl := hw.leadsTo.pathOf_inj (hfiles e he).1 hname.1 heq
    rw [Keyed.mem_entries_iff.1 (show (e.1, e.2) ∈ _ from he)] at hget
    cases hget

theorem of_runIn_sync
    (ht : t.WellFormed) (hw : t.HasDirectory w) (hne : directory ≠ "")
    (hfiles : ∀ e ∈ files.entries, IsOutputName e.1)
    (h : runIn w t (sync directory files) = (.ok report, t')) :
    ∃ d s, LeadsTo w t' directory d ∧ s.isDirectory d = true ∧ Changed d t s t' ∧
      Synced d t t' files report := by
  unfold sync at h
  obtain ⟨_, s, hmake, h⟩ := of_runIn_bind h
  obtain ⟨hs, hgrown, d, hplace, hd⟩ := createDirectories_eq_some ht hw hne (of_runIn_demand hmake)
  have hl : LeadsTo w s directory d := ⟨hs, hplace, hd⟩
  obtain ⟨present, s', hpresent, h⟩ := of_runIn_bind h
  cases hpresent
  change runIn w s (removeFiles directory (staleIn w s directory files) >>= _) = _ at h
  have hremoved : ∀ name, name ∈ staleIn w s directory files ↔
      IsOutputName name ∧ (t.fileAt (d ++ [name])).isSome = true ∧ files.get? name = none := by
    intro name
    rw [mem_staleIn hplace hd.isDirectory, hgrown.fileAt_eq]
  obtain ⟨_, u, hremove, h⟩ := of_runIn_bind h
  obtain ⟨hlu, hsameu, hgetu⟩ :=
    of_runIn_removeFiles hl (fun n hn => ((hremoved n).1 hn).1) hremove
  obtain ⟨⟨written, unchanged⟩, v, hwrite, h⟩ := of_runIn_bind h
  cases h
  have hwritten := of_runIn_writeFiles hlu hfiles
    (List.pairwise_map.2 (files.sorted.imp fun hlt => String.ne_of_lt hlt)) hwrite
  have hchanged : Changed d t s t' := ⟨hgrown, hsameu.trans hwritten.sameBut, hd.isName⟩
  refine ⟨d, s, hwritten.leadsTo, hd.isDirectory, hchanged, fun name hname => ?_, fun q hq hother =>
    hchanged.fileAt_eq hq hother, hwritten.partition, fun name => ?_, ?_, hremoved⟩
  · rw [hwritten.fileAt_eq hfiles hname, fileAt_removed hl hgetu hname]
    cases files.get? name <;> simp
  · rw [hwritten.unchanged_iff]
    refine exists_congr fun text => ?_
    rw [Keyed.mem_entries_iff]
    refine and_congr_right fun hget => ?_
    have hname := hfiles (name, text) (Keyed.mem_entries_iff.2 hget)
    rw [fileAt_removed hl hgetu hname, if_neg (by simp [hget]), hgrown.fileAt_eq]
  · exact (nodup_filesIn s w directory).filter _

/-! ### A second time -/

theorem runIn_writeFiles_self
    {files : List (String × String)} (hl : LeadsTo w t directory d)
    (hfiles : ∀ e ∈ files, IsOutputName e.1)
    (htexts : ∀ e ∈ files, t.fileAt (d ++ [e.1]) = some (.text e.2)) :
    runIn w t (writeFiles directory files) = (.ok ([], files.map (·.1)), t) := by
  induction files with
  | nil => rfl
  | cons file files ih =>
    obtain ⟨name, text⟩ := file
    obtain ⟨hname, hrest⟩ := List.forall_mem_cons.1 hfiles
    obtain ⟨htext, htexts⟩ := List.forall_mem_cons.1 htexts
    have hread : t.readText w (inDirectory directory name) = some text :=
      (hl.readText_inDirectory hname.1).2 htext
    rw [writeFiles, runIn_liftM_bind (run_readText w t _),
      if_pos (beq_iff_eq.2 hread), runIn_bind_ok (ih hrest htexts)]
    rfl

/-- A directory that is in line stays as it is. -/
theorem runIn_sync_self
    (hl : LeadsTo w t directory d) (hfiles : ∀ e ∈ files.entries, IsOutputName e.1)
    (h : ∀ name, IsOutputName name → t.fileAt (d ++ [name]) = (files.get? name).map .text) :
    runIn w t (sync directory files) = (.ok ⟨[], files.keys, []⟩, t) := by
  have hmake : runIn w t (demand (FileAccess.createDirectories (m := InTree) directory)) =
      (.ok (), t) := by
    refine (runIn_demand w t fun t w => t.createDirectories w directory).trans ?_
    rw [createDirectories_eq_self hl.place hl.target.isDirectory]
  have hstale : staleIn w t directory files = [] := by
    rw [List.eq_nil_iff_forall_not_mem]
    intro name hmem
    obtain ⟨hname, hfile, hget⟩ := (mem_staleIn hl.place hl.target.isDirectory).1 hmem
    rw [h name hname, hget] at hfile
    cases hfile
  have hremove : runIn w t (removeFiles directory []) = (.ok (), t) := rfl
  have htexts : ∀ e ∈ files.entries, t.fileAt (d ++ [e.1]) = some (.text e.2) := by
    intro e he
    rw [h e.1 (hfiles e he), Keyed.mem_entries_iff.1 (show (e.1, e.2) ∈ _ from he)]
    rfl
  unfold sync
  rw [runIn_bind_ok hmake, runIn_liftM_bind (run_filesIn w t directory)]
  dsimp only
  rw [← staleIn, hstale, runIn_bind_ok hremove,
    runIn_bind_ok (runIn_writeFiles_self hl hfiles htexts)]
  rfl

/-! ### What can go wrong -/

/-- Steps that fail only where a file cannot be read, written or removed. -/
def OnlyAccess (x : ExceptT Failure InTree α) : Prop :=
  ∀ w t e, (runIn w t x).1 = .error e → e = .fileAccess

theorem OnlyAccess.bind
    {x : ExceptT Failure InTree α} {f : α → ExceptT Failure InTree β}
    (hx : OnlyAccess x) (hf : ∀ a, OnlyAccess (f a)) :
    OnlyAccess (x >>= f) := by
  intro w t e he
  rw [runIn_bind] at he
  split at he
  · exact hf _ _ _ e he
  · rename_i hrun
    cases he
    exact hx w t _ hrun

theorem onlyAccess_pure
    (a : α) :
    OnlyAccess (pure a : ExceptT Failure InTree α) := by
  intro w t e he
  cases he

theorem onlyAccess_liftM
    (look : InTree α) :
    OnlyAccess (liftM look) := by
  intro w t e he
  cases he

theorem onlyAccess_demand
    (action : InTree Bool) :
    OnlyAccess (demand action) := by
  refine (onlyAccess_liftM action).bind fun b => ?_
  cases b with
  | true => exact onlyAccess_pure ()
  | false =>
    intro w t e he
    cases he
    rfl

theorem onlyAccess_removeFiles
    (directory : String) (names : List String) :
    OnlyAccess (removeFiles directory names) := by
  induction names with
  | nil => exact onlyAccess_pure ()
  | cons name names ih => exact (onlyAccess_demand _).bind fun _ => ih

theorem onlyAccess_writeFiles
    (directory : String) (files : List (String × String)) :
    OnlyAccess (writeFiles directory files) := by
  induction files with
  | nil => exact onlyAccess_pure _
  | cons file files ih =>
    refine (onlyAccess_liftM _).bind fun present => ?_
    split
    · exact ih.bind fun _ => onlyAccess_pure _
    · exact (onlyAccess_demand _).bind fun _ => ih.bind fun _ => onlyAccess_pure _

theorem onlyAccess_sync
    (directory : String) (files : SourceFiles) :
    OnlyAccess (sync directory files) :=
  (onlyAccess_demand _).bind fun _ => (onlyAccess_liftM _).bind fun _ =>
    (onlyAccess_removeFiles _ _).bind fun _ => (onlyAccess_writeFiles _ _).bind fun _ =>
    onlyAccess_pure _

end Command
end ContentModels

import ContentModels.FileTree
import Mathlib.Data.List.Induction

/-!
# What is done to a tree of files

A path leads to the place that its names lead to (`resolve`), if there are directories all the
way.  In a tree whose entries all lie in directories (`WellFormed`), each of the changes that
commands make keeps it so and touches one place only: directories are made where there was
nothing, a file is written at its place, and a file is removed with nothing below it.  All of
this holds from every working directory, be it the root or far below it.
-/

namespace ContentModels
namespace FileTree

/-! ### Names and places -/

/-- A name that a file or a directory can have. -/
structure IsName (name : String) : Prop where
  ne_empty : name ≠ ""
  ne_here : name ≠ "."
  ne_up : name ≠ ".."
  no_slash : '/' ∉ name.toList

instance (name : String) : Decidable (IsName name) :=
  decidable_of_iff (name ≠ "" ∧ name ≠ "." ∧ name ≠ ".." ∧ '/' ∉ name.toList)
    ⟨fun ⟨hempty, hhere, hup, hslash⟩ => ⟨hempty, hhere, hup, hslash⟩,
      fun h => ⟨h.ne_empty, h.ne_here, h.ne_up, h.no_slash⟩⟩

theorem pathOf_append
    {p q : Place} (hp : p ≠ []) (hq : q ≠ []) :
    pathOf (p ++ q) = pathOf p ++ "/" ++ pathOf q :=
  String.intercalate_append_of_ne_nil hp hq

/-- The names on a path are those of the place. -/
theorem split_pathOf
    {p : Place} (hp : p ≠ []) (hnames : ∀ name ∈ p, '/' ∉ name.toList) :
    Text.split '/' (pathOf p) = p := by
  induction p with
  | nil => exact absurd rfl hp
  | cons name p ih =>
    obtain ⟨hname, hrest⟩ := List.forall_mem_cons.1 hnames
    cases p with
    | nil => exact (congrArg _ String.intercalate_singleton).trans (Text.split_of_not_mem hname)
    | cons second p =>
      have hsplit := Text.split_append '/' name (pathOf (second :: p))
      rw [Text.split_of_not_mem hname, ih (List.cons_ne_nil _ _) hrest] at hsplit
      exact (congrArg _ String.intercalate_cons_cons).trans hsplit

/-- What paths of entries below a directory start with. -/
def startOf (p : Place) : String :=
  if p.isEmpty then "" else pathOf p ++ "/"

theorem pathOf_append_startOf
    (p : Place) {q : Place} (hq : q ≠ []) :
    pathOf (p ++ q) = startOf p ++ pathOf q := by
  unfold startOf
  cases p with
  | nil => simp
  | cons name p => exact pathOf_append (List.cons_ne_nil _ _) hq

theorem pathOf_singleton
    (name : String) :
    pathOf [name] = name :=
  String.intercalate_singleton

/-- The place that a path leads to, as far as its names alone say. -/
def resolve (w : Place) (path : String) : Place :=
  (Text.split '/' path).foldl follow (origin w path)

theorem follow_isName
    (p : Place) {name : String} (h : IsName name) :
    follow p name = p ++ [name] := by
  unfold follow
  rw [if_neg (by simp [h.ne_empty, h.ne_here]), if_neg (by simp [h.ne_up])]

theorem isName_of_follow
    {p : Place} {name : String} (hname : '/' ∉ name.toList) (hp : ∀ n ∈ p, IsName n) :
    ∀ n ∈ follow p name, IsName n := by
  unfold follow
  split
  · exact hp
  · rename_i hhere
    split
    · exact fun n hn => hp n ((List.dropLast_sublist p).subset hn)
    · rename_i hup
      intro n hn
      rcases List.mem_append.1 hn with hn | hn
      · exact hp n hn
      · obtain rfl := List.mem_singleton.1 hn
        simp only [Bool.or_eq_true, String.isEmpty_iff, beq_iff_eq, not_or] at hhere hup
        exact ⟨hhere.1, hhere.2, hup, hname⟩

theorem isName_origin
    {w : Place} (hw : ∀ n ∈ w, IsName n) (path : String) :
    ∀ n ∈ origin w path, IsName n := by
  unfold origin
  split
  · simp
  · exact hw

theorem isName_of_resolve
    {w : Place} (hw : ∀ n ∈ w, IsName n) (path : String) :
    ∀ n ∈ resolve w path, IsName n :=
  List.foldlRecOn (motive := fun p => ∀ n ∈ p, IsName n) (Text.split '/' path) follow
    (isName_origin hw path) fun _ hp _ hname =>
      isName_of_follow (Text.not_mem_of_mem_split hname) hp

/-! ### Directories on the way -/

variable {t t' : FileTree} {w p q : Place} {name path : String} {e : FileEntry}

theorem step_eq_some
    (t : FileTree) :
    t.step p name = some q ↔ t.isDirectory p = true ∧ follow p name = q := by
  unfold step
  split <;> simp_all

theorem isDirectory_of_foldlM_step
    {names : List String} (h : names.foldlM t.step p = some q) (hq : t.isDirectory q = true) :
    t.isDirectory p = true := by
  cases names with
  | nil =>
    cases h
    exact hq
  | cons name names =>
    rw [List.foldlM_cons] at h
    obtain ⟨r, hr, -⟩ := Option.bind_eq_some_iff.1 h
    exact (t.step_eq_some.1 hr).1

/-- Where a path leads is the same in a tree with more directories, and what its names say. -/
theorem foldlM_step_mono
    {names : List String} (hdirs : ∀ p, t.isDirectory p = true → t'.isDirectory p = true)
    (h : names.foldlM t.step p = some q) :
    names.foldlM t'.step p = some q ∧ names.foldl follow p = q := by
  induction names generalizing p with
  | nil => exact ⟨h, Option.some.inj h⟩
  | cons name names ih =>
    rw [List.foldlM_cons] at h ⊢
    obtain ⟨r, hr, h⟩ := Option.bind_eq_some_iff.1 h
    obtain ⟨hp, rfl⟩ := t.step_eq_some.1 hr
    rw [t'.step_eq_some.2 ⟨hdirs p hp, rfl⟩]
    exact ih h

theorem place?_eq_some
    {path : String} :
    t.place? w path = some p ↔
      path ≠ "" ∧ (Text.split '/' path).foldlM t.step (origin w path) = some p := by
  unfold place?
  split <;> simp_all

theorem place?_mono
    (hdirs : ∀ p, t.isDirectory p = true → t'.isDirectory p = true)
    (h : t.place? w path = some p) :
    t'.place? w path = some p := by
  obtain ⟨hne, h⟩ := place?_eq_some.1 h
  exact place?_eq_some.2 ⟨hne, (foldlM_step_mono hdirs h).1⟩

theorem resolve_of_place?
    (h : t.place? w path = some p) :
    resolve w path = p := by
  obtain ⟨-, h⟩ := place?_eq_some.1 h
  exact (foldlM_step_mono (fun _ hp => hp) h).2

/-- A path with names behind it starts where it starts itself. -/
theorem origin_append
    {directory : String} (hdirectory : directory ≠ "") (w : Place) (rest : String) :
    origin w (directory ++ rest) = origin w directory := by
  have hne : directory.toList ≠ [] := fun h => hdirectory (String.toList_eq_nil_iff.1 h)
  obtain ⟨c, cs, hcs⟩ := List.exists_cons_of_ne_nil hne
  unfold origin
  rw [String.toList_append, hcs]
  rfl

/-- A name in a directory. -/
theorem place?_append
    {directory : String} (hname : IsName name) (hplace : t.place? w directory = some p)
    (hp : t.isDirectory p = true) :
    t.place? w (directory ++ "/" ++ name) = some (p ++ [name]) := by
  obtain ⟨hne, hplace⟩ := place?_eq_some.1 hplace
  have hstep : t.step p name = some (p ++ [name]) :=
    t.step_eq_some.2 ⟨hp, follow_isName p hname⟩
  refine place?_eq_some.2 ⟨by simp [hne], ?_⟩
  rw [String.append_assoc, origin_append hne, ← String.append_assoc,
    show ("/" : String) = String.singleton '/' from rfl, Text.split_append,
    Text.split_of_not_mem hname.no_slash, List.foldlM_append, hplace]
  simp [hstep]

/-! ### Trees whose entries lie in directories -/

/-- Every entry has a place, and lies in a directory. -/
def WellFormed (t : FileTree) : Prop :=
  ∀ k e, t.get? k = some e → ∃ p name, k = pathOf (p ++ [name]) ∧ (∀ n ∈ p ++ [name], IsName n) ∧
    t.isDirectory p = true

/-- A directory of a tree, such as the one that commands work in. -/
structure HasDirectory (t : FileTree) (p : Place) : Prop where
  isName : ∀ n ∈ p, IsName n
  isDirectory : t.isDirectory p = true

theorem hasDirectory_nil (t : FileTree) : t.HasDirectory [] :=
  ⟨by simp, rfl⟩

theorem HasDirectory.origin
    (h : t.HasDirectory w) (path : String) :
    t.HasDirectory (origin w path) := by
  unfold FileTree.origin
  split
  · exact hasDirectory_nil t
  · exact h

theorem entry?_of_ne_nil
    (t : FileTree) (hp : p ≠ []) :
    t.entry? p = t.get? (pathOf p) := by
  unfold entry?
  rw [if_neg (by simpa using hp)]

theorem entry?_append_singleton
    (t : FileTree) (p : Place) (name : String) :
    t.entry? (p ++ [name]) = t.get? (pathOf (p ++ [name])) :=
  entry?_of_ne_nil t (by simp)

theorem isDirectory_iff
    (hp : p ≠ []) :
    t.isDirectory p = true ↔ t.get? (pathOf p) = some .directory := by
  unfold isDirectory
  rw [entry?_of_ne_nil t hp, beq_iff_eq]

theorem no_slash_of_isName
    (h : ∀ n ∈ p, IsName n) :
    ∀ n ∈ p, '/' ∉ n.toList :=
  fun n hn => (h n hn).no_slash

/-- Whether all entries lie in directories can be told entry by entry. -/
theorem wellFormed_iff :
    t.WellFormed ↔ ∀ x ∈ t.entries, pathOf (Text.split '/' x.1) = x.1 ∧
      (∀ n ∈ Text.split '/' x.1, IsName n) ∧
      t.isDirectory (Text.split '/' x.1).dropLast = true := by
  constructor
  · intro ht x hx
    obtain ⟨p, name, hpath, hnames, hp⟩ := ht x.1 x.2 (Keyed.mem_entries_iff.1 hx)
    rw [hpath, split_pathOf (by simp) (no_slash_of_isName hnames), List.dropLast_concat]
    exact ⟨rfl, hnames, hp⟩
  · intro h k e hk
    obtain ⟨hpath, hnames, hdir⟩ := h (k, e) (Keyed.mem_entries_iff.2 hk)
    refine ⟨(Text.split '/' k).dropLast, (Text.split '/' k).getLast (Text.split_ne_nil '/' k), ?_⟩
    rw [List.dropLast_concat_getLast]
    exact ⟨hpath.symm, hnames, hdir⟩

instance (t : FileTree) : Decidable t.WellFormed :=
  decidable_of_iff _ wellFormed_iff.symm

/-- Places of names are told apart by their paths. -/
theorem eq_of_pathOf_eq
    (hp : p ≠ []) (hq : q ≠ []) (hpnames : ∀ n ∈ p, IsName n) (hqnames : ∀ n ∈ q, IsName n)
    (h : pathOf p = pathOf q) :
    p = q := by
  rw [← split_pathOf hp (no_slash_of_isName hpnames), h, split_pathOf hq (no_slash_of_isName hqnames)]

theorem WellFormed.isDirectory_of_entry
    (ht : t.WellFormed) (hnames : ∀ n ∈ p ++ [name], IsName n)
    (h : t.get? (pathOf (p ++ [name])) = some e) :
    t.isDirectory p = true := by
  obtain ⟨q, last, hpath, hqnames, hq⟩ := ht _ _ h
  have heq := eq_of_pathOf_eq (by simp) (by simp) hnames hqnames hpath
  obtain ⟨rfl, -⟩ := List.append_inj' heq rfl
  exact hq

/-- Whatever lies below a place, the place is a directory. -/
theorem WellFormed.isDirectory_of_below
    (ht : t.WellFormed) (hq : q ≠ []) (hnames : ∀ n ∈ p ++ q, IsName n)
    (h : t.get? (pathOf (p ++ q)) = some e) :
    t.isDirectory p = true := by
  induction q using List.reverseRecOn generalizing e with
  | nil => exact absurd rfl hq
  | append_singleton q last ih =>
    rw [← List.append_assoc] at h hnames
    have hdir := ht.isDirectory_of_entry hnames h
    by_cases hempty : q = []
    · rw [hempty, List.append_nil] at hdir
      exact hdir
    · exact ih hempty (fun n hn => hnames n (List.mem_append_left _ hn))
        ((isDirectory_iff (by simp [hempty])).1 hdir)

/-! ### Putting and taking out entries -/

theorem get?_put
    (t : FileTree) (p : Place) (e : FileEntry) (k : String) :
    (t.put p e).get? k = if k = pathOf p then some e else t.get? k :=
  Keyed.get?_insert t (pathOf p) k e

theorem get?_erase
    (t : FileTree) (k j : String) :
    (Keyed.erase t k).get? j = if j = k then none else t.get? j := by
  unfold Keyed.erase Keyed.get?
  dsimp only
  generalize t.entries = es
  induction es with
  | nil => simp
  | cons x es ih =>
    rw [List.filter_cons, List.lookup_cons]
    by_cases hx : x.1 = k
    · have hb : (x.1 != k) = false := by simpa using hx
      rw [hb, if_neg (by simp), ih]
      by_cases hj : j = k
      · rw [if_pos hj, if_pos hj]
      · have hjx : (j == x.1) = false := by simpa [hx] using hj
        rw [if_neg hj, if_neg hj, hjx]
    · have hb : (x.1 != k) = true := by simpa using hx
      rw [hb, if_pos rfl, List.lookup_cons, ih]
      by_cases hj : j = k
      · have hjx : (j == x.1) = false := by simpa [hj] using Ne.symm hx
        rw [if_pos hj, if_pos hj, hjx]
      · rw [if_neg hj, if_neg hj]

/-- A directory stays one unless its own entry becomes something else. -/
theorem isDirectory_of_get?
    (hp : t.isDirectory p = true)
    (h : t.get? (pathOf p) = some .directory → t'.get? (pathOf p) = some .directory) :
    t'.isDirectory p = true := by
  by_cases hempty : p = []
  · rw [hempty]
    rfl
  · exact (isDirectory_iff hempty).2 (h ((isDirectory_iff hempty).1 hp))

theorem isDirectory_put
    (h : e = .directory ∨ t.get? (pathOf q) ≠ some .directory) (hp : t.isDirectory p = true) :
    (t.put q e).isDirectory p = true := by
  refine isDirectory_of_get? hp fun hget => ?_
  rw [get?_put]
  split
  · rename_i heq
    rcases h with rfl | hne
    · rfl
    · exact absurd (heq ▸ hget) hne
  · exact hget

theorem WellFormed.put
    (ht : t.WellFormed) (hnames : ∀ n ∈ p ++ [name], IsName n) (hp : t.isDirectory p = true)
    (h : e = .directory ∨ t.get? (pathOf (p ++ [name])) ≠ some .directory) :
    (t.put (p ++ [name]) e).WellFormed := by
  intro k e' hk
  rw [get?_put] at hk
  split at hk
  · rename_i heq
    exact ⟨p, name, heq, hnames, isDirectory_put h hp⟩
  · obtain ⟨q, last, hpath, hqnames, hq⟩ := ht k e' hk
    exact ⟨q, last, hpath, hqnames, isDirectory_put h hq⟩

theorem isDirectory_erase
    {k : String} (h : t.get? k ≠ some .directory) (hp : t.isDirectory p = true) :
    isDirectory (Keyed.erase t k) p = true := by
  refine isDirectory_of_get? hp fun hget => ?_
  rw [get?_erase]
  split
  · rename_i heq
    exact absurd (heq ▸ hget) h
  · exact hget

theorem WellFormed.erase
    {k : String} (ht : t.WellFormed) (h : t.get? k ≠ some .directory) :
    WellFormed (Keyed.erase t k) := by
  intro j e hj
  rw [get?_erase] at hj
  split at hj
  · cases hj
  · obtain ⟨p, name, hpath, hnames, hp⟩ := ht j e hj
    exact ⟨p, name, hpath, hnames, isDirectory_erase h hp⟩

/-! ### Making directories -/

/-- A tree with some more directories, and otherwise the same. -/
def Grown (t t' : FileTree) : Prop :=
  ∀ k, t'.get? k = t.get? k ∨ t.get? k = none ∧ t'.get? k = some .directory

theorem Grown.refl (t : FileTree) : Grown t t :=
  fun _ => .inl rfl

theorem Grown.isDirectory
    (h : Grown t t') (hp : t.isDirectory p = true) :
    t'.isDirectory p = true := by
  refine isDirectory_of_get? hp fun hget => ?_
  rcases h (pathOf p) with heq | ⟨hnone, -⟩
  · rw [heq, hget]
  · rw [hnone] at hget
    cases hget

theorem Grown.trans
    {t'' : FileTree} (h : Grown t t') (h' : Grown t' t'') :
    Grown t t'' := by
  intro k
  rcases h' k with heq' | ⟨hnone, hdir⟩
  · rw [heq']
    exact h k
  · rcases h k with heq | ⟨-, hdir'⟩
    · exact .inr ⟨heq.symm.trans hnone, hdir⟩
    · rw [hdir'] at hnone
      cases hnone

theorem grown_put
    (h : t.get? (pathOf p) = none) :
    Grown t (t.put p .directory) := by
  intro k
  rw [get?_put]
  split
  · rename_i heq
    exact .inr ⟨heq ▸ h, rfl⟩
  · exact .inl rfl

/-- What lies above a directory is a directory. -/
theorem WellFormed.hasDirectory_dropLast
    (ht : t.WellFormed) (hp : t.HasDirectory p) :
    t.HasDirectory p.dropLast := by
  by_cases hne : p = []
  · rw [hne]
    exact hasDirectory_nil t
  · obtain ⟨hnames, hdir⟩ := hp
    rw [← List.dropLast_concat_getLast hne] at hnames hdir
    exact ⟨fun n hn => hnames n (List.mem_append_left _ hn),
      ht.isDirectory_of_entry hnames ((isDirectory_iff (by simp)).1 hdir)⟩

/-- Where a name leads from a directory, there is a directory or the name is that of an entry in it. -/
theorem WellFormed.hasDirectory_follow
    (ht : t.WellFormed) (hp : t.HasDirectory p) (name : String) :
    t.HasDirectory (follow p name) ∨ follow p name = p ++ [name] := by
  unfold follow
  split
  · exact .inl hp
  · split
    · exact .inl (ht.hasDirectory_dropLast hp)
    · exact .inr rfl

/-- Directories are made along some names until all names lead somewhere. -/
theorem makeDirectories_eq_some
    {names : List String} (ht : t.WellFormed) (hp : t.HasDirectory p)
    (hnames : ∀ n ∈ names, '/' ∉ n.toList) (h : t.makeDirectories p names = some t') :
    t'.WellFormed ∧ Grown t t' ∧
      ∃ d, names.foldlM t'.step p = some d ∧ t'.HasDirectory d := by
  induction names generalizing t p with
  | nil =>
    cases h
    exact ⟨ht, .refl _, p, rfl, hp⟩
  | cons name names ih =>
    obtain ⟨hname, hrest⟩ := List.forall_mem_cons.1 hnames
    have hall := isName_of_follow hname hp.isName
    -- One name leads further, perhaps in a tree with one more directory.
    obtain ⟨s, hs, hgrown, hdir, h⟩ : ∃ s, WellFormed s ∧ Grown t s ∧
        s.isDirectory (follow p name) = true ∧
        s.makeDirectories (follow p name) names = some t' := by
      rw [makeDirectories] at h
      split at h
      · rename_i hnone
        rcases ht.hasDirectory_follow hp name with hdir | hfollow
        · rw [beq_iff_eq.1 hdir.isDirectory] at hnone
          cases hnone
        · rw [hfollow] at hnone hall h ⊢
          rw [entry?_append_singleton] at hnone
          refine ⟨_, ht.put hall hp.isDirectory (.inl rfl), grown_put hnone, ?_, h⟩
          rw [isDirectory_iff (by simp), get?_put, if_pos rfl]
      · rename_i hdir
        exact ⟨t, ht, .refl _, beq_iff_eq.2 hdir, h⟩
      · cases h
    obtain ⟨ht', hgrown', d, hd, hdir'⟩ := ih hs ⟨hall, hdir⟩ hrest h
    refine ⟨ht', hgrown.trans hgrown', d, ?_, hdir'⟩
    rw [List.foldlM_cons, t'.step_eq_some.2 ⟨(hgrown.trans hgrown').isDirectory hp.isDirectory, rfl⟩]
    exact hd

/-- Where there are directories all the way, none is made. -/
theorem makeDirectories_eq_self
    {names : List String} {d : Place} (h : names.foldlM t.step p = some d)
    (hd : t.isDirectory d = true) :
    t.makeDirectories p names = some t := by
  induction names generalizing p with
  | nil => rfl
  | cons name names ih =>
    rw [List.foldlM_cons] at h
    obtain ⟨q, hq, h⟩ := Option.bind_eq_some_iff.1 h
    obtain ⟨-, rfl⟩ := t.step_eq_some.1 hq
    have hentry : t.entry? (follow p name) = some .directory :=
      beq_iff_eq.1 (isDirectory_of_foldlM_step h hd)
    rw [makeDirectories]
    simp only [hentry]
    exact ih h

/-- Afterwards the path of a directory leads to it. -/
theorem createDirectories_eq_some
    (ht : t.WellFormed) (hw : t.HasDirectory w) (hpath : path ≠ "")
    (h : t.createDirectories w path = some t') :
    t'.WellFormed ∧ Grown t t' ∧ ∃ d, t'.place? w path = some d ∧ t'.HasDirectory d := by
  obtain ⟨ht', hgrown, d, hd, hdir⟩ := makeDirectories_eq_some ht (hw.origin path)
    (fun n hn => Text.not_mem_of_mem_split hn) h
  exact ⟨ht', hgrown, d, place?_eq_some.2 ⟨hpath, hd⟩, hdir⟩

theorem createDirectories_eq_self
    {d : Place} (hplace : t.place? w path = some d) (hd : t.isDirectory d = true) :
    t.createDirectories w path = some t :=
  makeDirectories_eq_self (place?_eq_some.1 hplace).2 hd

/-! ### Files in a directory -/

/-- The file at a place, if one is there. -/
def fileAt (t : FileTree) (p : Place) : Option FileEntry :=
  (t.entry? p).filter (·.isFile)

/-- Directories that are made do not count as files. -/
theorem Grown.fileAt_eq
    (h : Grown t t') (q : Place) :
    t'.fileAt q = t.fileAt q := by
  by_cases hne : q = []
  · rw [hne]
    rfl
  · unfold fileAt
    rw [entry?_of_ne_nil _ hne, entry?_of_ne_nil _ hne]
    rcases h (pathOf q) with heq | ⟨hnone, hdir⟩
    · rw [heq]
    · rw [hnone, hdir]
      rfl

theorem readText_eq_some
    {s : String} :
    t.readText w path = some s ↔ ∃ p, t.place? w path = some p ∧ t.fileAt p = some (.text s) := by
  unfold readText find? fileAt
  cases hplace : t.place? w path with
  | none => simp
  | some p =>
    simp only [Option.bind_some, Option.some.injEq, exists_eq_left', Option.filter_eq_some_iff]
    constructor
    · intro h
      split at h
      · rename_i content hcontent
        cases h
        exact ⟨hcontent, rfl⟩
      · cases h
    · rintro ⟨h, -⟩
      rw [h]

/-- Writing puts a file at its place. -/
theorem write_eq_some
    {content : FileEntry} (hplace : t.place? w path = some p)
    (h : t.write w path content = some t') :
    t' = t.put p content ∧ t.isDirectory p = false := by
  unfold write at h
  rw [hplace, Option.bind_eq_bind, Option.bind_some] at h
  split at h
  · cases h
  · rename_i hdir
    cases h
    exact ⟨rfl, Bool.eq_false_iff.2 hdir⟩

theorem not_isDirectory_of_isFile
    (hp : p ≠ []) (hget : t.get? (pathOf p) = some e) (he : e.isFile = true) :
    t.isDirectory p = false := by
  rw [Bool.eq_false_iff, ne_eq, isDirectory_iff hp, hget]
  rintro ⟨⟩
  cases he

/-- Nothing lies below a file. -/
theorem WellFormed.below_eq_nil
    (ht : t.WellFormed) (hp : p ≠ []) (hnames : ∀ n ∈ p, IsName n)
    (hfile : t.isDirectory p = false) :
    t.below p = [] := by
  unfold below
  rw [List.filterMap_eq_nil_iff]
  intro x hx
  have hempty : p.isEmpty = false := by simpa using hp
  rw [hempty]
  refine if_neg fun hprefix => ?_
  obtain ⟨rest, hrest⟩ := List.isPrefixOf_iff_prefix.1 hprefix
  have hget : t.get? x.1 = some x.2 := Keyed.mem_entries_iff.1 hx
  obtain ⟨q, last, hpath, hqnames, -⟩ := ht _ _ hget
  have hkey : x.1 = pathOf p ++ String.singleton '/' ++ String.ofList rest := by
    rw [← String.toList_inj, String.toList_append, String.toList_append, String.toList_singleton,
      String.toList_ofList, ← hrest]
    rfl
  have hsplit := Text.split_append '/' (pathOf p) (String.ofList rest)
  rw [← hkey, hpath, split_pathOf (by simp) (no_slash_of_isName hqnames),
    split_pathOf hp (no_slash_of_isName hnames)] at hsplit
  have hne := Text.split_ne_nil '/' (String.ofList rest)
  rw [hpath, hsplit] at hget
  rw [hsplit] at hqnames
  have hdir := ht.isDirectory_of_below hne hqnames hget
  rw [hfile] at hdir
  cases hdir

/-- Removing a file takes out its entry alone. -/
theorem WellFormed.removeFile_eq_some
    (ht : t.WellFormed) (hp : p ≠ []) (hnames : ∀ n ∈ p, IsName n)
    (hplace : t.place? w path = some p) (h : t.removeFile w path = some t') :
    t' = Keyed.erase t (pathOf p) ∧ t.isDirectory p = false := by
  unfold removeFile at h
  split at h
  · rename_i hany
    rw [find?, hplace, Option.bind_some] at hany
    obtain ⟨e, he, hfile⟩ := (Option.any_eq_true _ _).1 hany
    have hdir : t.isDirectory p = false :=
      not_isDirectory_of_isFile hp (entry?_of_ne_nil t hp ▸ he) hfile
    unfold remove at h
    simp only [hplace, he, ht.below_eq_nil hp hnames hdir, Option.bind_eq_bind, Option.bind_some,
      List.map_nil] at h
    cases h
    exact ⟨rfl, hdir⟩
  · cases h

/-- The path of an entry is what it starts with, and then the path from there. -/
theorem eq_of_drop
    {start : List Char} {e x : String × FileEntry}
    (h : (if start.isPrefixOf e.1.toList then
      some (String.ofList (e.1.toList.drop start.length), e.2) else none) = some x) :
    e = (String.ofList start ++ x.1, x.2) := by
  split at h
  · rename_i hprefix
    obtain ⟨rest, hrest⟩ := List.isPrefixOf_iff_prefix.1 hprefix
    cases h
    rw [← hrest, List.drop_left, ← String.ofList_append, hrest, String.ofList_toList]
  · cases h

theorem below_eq
    (t : FileTree) (p : Place) :
    t.below p = t.entries.filterMap fun e =>
      if (startOf p).toList.isPrefixOf e.1.toList then
        some (String.ofList (e.1.toList.drop (startOf p).toList.length), e.2) else none := by
  have hstart : (if p.isEmpty then [] else (pathOf p).toList ++ ['/']) = (startOf p).toList := by
    unfold startOf
    split
    · rfl
    · rw [String.toList_append]
      rfl
  rw [← hstart]
  rfl

/-- Entries below a directory are those whose paths start with it. -/
theorem mem_below
    {x : String × FileEntry} :
    x ∈ t.below p ↔ t.get? (startOf p ++ x.1) = some x.2 := by
  rw [below_eq, List.mem_filterMap, ← Keyed.mem_entries_iff]
  constructor
  · rintro ⟨e, he, hx⟩
    have heq := eq_of_drop hx
    rw [String.ofList_toList] at heq
    exact heq ▸ he
  · intro he
    refine ⟨_, he, ?_⟩
    dsimp only
    rw [String.toList_append, if_pos (List.isPrefixOf_iff_prefix.2 (List.prefix_append _ _)),
      List.drop_left, String.ofList_toList]

theorem nodup_below
    (t : FileTree) (p : Place) :
    ((t.below p).map (·.1)).Nodup := by
  rw [List.Nodup, List.pairwise_map, below_eq, List.pairwise_filterMap]
  refine t.sorted.imp fun {d e} hlt x hx y hy heq => ?_
  rw [eq_of_drop hx, eq_of_drop hy, heq] at hlt
  exact String.lt_irrefl _ hlt

theorem nodup_filesIn
    (t : FileTree) (w : Place) (path : String) :
    (t.filesIn w path).Nodup := by
  unfold filesIn filesBelow
  refine List.Pairwise.filter _ ?_
  split
  · exact .nil
  · split
    · exact .nil
    · exact (nodup_below t _).sublist (List.filter_sublist.map _)
    · exact List.pairwise_singleton _ _

/-- The files in a directory are those at places there. -/
theorem mem_filesIn
    (hplace : t.place? w path = some p) (hp : t.isDirectory p = true) :
    name ∈ t.filesIn w path ↔
      name ≠ "" ∧ '/' ∉ name.toList ∧ (t.fileAt (p ++ [name])).isSome = true := by
  have hentry : t.entry? p = some .directory := beq_iff_eq.1 hp
  unfold filesIn filesBelow
  simp only [hplace, hentry]
  rw [List.mem_filter, List.mem_map]
  simp only [List.mem_filter, mem_below]
  unfold fileAt
  rw [entry?_append_singleton, pathOf_append_startOf p (List.cons_ne_nil _ _), pathOf_singleton]
  constructor
  · rintro ⟨⟨x, ⟨hx, hfile⟩, rfl⟩, hname⟩
    simp only [Bool.and_eq_true, Bool.not_eq_true', List.contains_eq_mem, decide_eq_false_iff_not] at hname
    refine ⟨fun h => ?_, hname.2, by rw [hx]; simp [hfile]⟩
    rw [h] at hname
    simp at hname
  · rintro ⟨hne, hslash, hsome⟩
    obtain ⟨e, he⟩ := Option.isSome_iff_exists.1 hsome
    obtain ⟨he, hfile⟩ := Option.filter_eq_some_iff.1 he
    refine ⟨⟨(name, e), ⟨he, hfile⟩, rfl⟩, ?_⟩
    simp [hne, hslash]

end FileTree
end ContentModels

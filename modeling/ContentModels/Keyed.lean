/-!
# Tables keyed by text

A table holds at most one value for a key and lists its entries in the order of the
keys, which is the order of code points.  Two tables that answer alike on every key
are equal, so a table is determined by its look-ups.
-/

namespace ContentModels

/-- Values keyed by text, in key order. -/
structure Keyed (α : Type) where
  entries : List (String × α)
  sorted : entries.Pairwise fun a b => a.1 < b.1
deriving DecidableEq

namespace Keyed

variable {α β : Type}

/-- The table without entries. -/
def empty : Keyed α := ⟨[], .nil⟩

instance : Inhabited (Keyed α) := ⟨empty⟩

instance [Repr α] : Repr (Keyed α) := ⟨fun t n => reprPrec t.entries n⟩

/-- The value of a key. -/
def get? (t : Keyed α) (k : String) : Option α :=
  t.entries.lookup k

/-- Whether a key has a value. -/
def contains (t : Keyed α) (k : String) : Bool :=
  (t.get? k).isSome

/-- The keys, in order. -/
def keys (t : Keyed α) : List String :=
  t.entries.map (·.1)

/-- Entries with the value of one key computed from the value it had. -/
def updateEntries (k : String) (f : Option α → α) : List (String × α) → List (String × α)
  | [] => [(k, f none)]
  | e :: r =>
    if k < e.1 then (k, f none) :: e :: r
    else if k = e.1 then (k, f (some e.2)) :: r
    else e :: updateEntries k f r

theorem mem_updateEntries
    {k : String} {f : Option α → α} {es : List (String × α)} {e : String × α}
    (h : e ∈ updateEntries k f es) :
    e.1 = k ∨ e ∈ es := by
  induction es with
  | nil =>
    simp only [updateEntries, List.mem_singleton] at h
    exact Or.inl (congrArg Prod.fst h)
  | cons d r ih =>
    simp only [updateEntries] at h
    split at h
    · rcases List.mem_cons.1 h with rfl | h
      · exact Or.inl rfl
      · exact Or.inr h
    · split at h
      · rcases List.mem_cons.1 h with rfl | h
        · exact Or.inl rfl
        · exact Or.inr (List.mem_cons_of_mem _ h)
      · rcases List.mem_cons.1 h with rfl | h
        · exact Or.inr List.mem_cons_self
        · rcases ih h with h | h
          · exact Or.inl h
          · exact Or.inr (List.mem_cons_of_mem _ h)

theorem lt_of_not_lt_of_ne
    {a b : String}
    (h : ¬ a < b) (hne : a ≠ b) :
    b < a :=
  Std.lt_of_le_of_ne (Std.not_lt.1 h) hne.symm

theorem sorted_updateEntries
    {k : String} {f : Option α → α} {es : List (String × α)}
    (h : es.Pairwise fun a b => a.1 < b.1) :
    (updateEntries k f es).Pairwise fun a b => a.1 < b.1 := by
  induction es with
  | nil => simp [updateEntries]
  | cons d r ih =>
    have hd := List.pairwise_cons.1 h
    simp only [updateEntries]
    split
    · rename_i hk
      refine List.pairwise_cons.2 ⟨fun e he => ?_, h⟩
      rcases List.mem_cons.1 he with rfl | he
      · exact hk
      · exact String.lt_trans hk (hd.1 e he)
    · split
      · rename_i hk
        refine List.pairwise_cons.2 ⟨fun e he => ?_, hd.2⟩
        exact hk ▸ hd.1 e he
      · rename_i hlt hne
        refine List.pairwise_cons.2 ⟨fun e he => ?_, ih hd.2⟩
        rcases mem_updateEntries he with he | he
        · exact he ▸ lt_of_not_lt_of_ne hlt hne
        · exact hd.1 e he

/-- Compute the value of a key from the value it had. -/
def update (t : Keyed α) (k : String) (f : Option α → α) : Keyed α :=
  ⟨updateEntries k f t.entries, sorted_updateEntries t.sorted⟩

/-- Set the value of a key. -/
def insert (t : Keyed α) (k : String) (a : α) : Keyed α :=
  t.update k fun _ => a

/-- Set the value of a key that has none. -/
def insertNew (t : Keyed α) (k : String) (a : α) : Keyed α :=
  t.update k fun old => old.getD a

/-- Take out the entry of a key. -/
def erase (t : Keyed α) (k : String) : Keyed α :=
  ⟨t.entries.filter (·.1 != k), t.sorted.filter _⟩

/-- The table of a list of entries; of two entries with one key the later counts. -/
def ofList (es : List (String × α)) : Keyed α :=
  es.foldl (fun t e => t.insert e.1 e.2) empty

/-- Apply a function to every value. -/
def map (f : String → α → β) (t : Keyed α) : Keyed β :=
  ⟨t.entries.map fun e => (e.1, f e.1 e.2), by
    rw [List.pairwise_map]
    exact t.sorted⟩

theorem lookup_updateEntries
    (k j : String) (f : Option α → α) (es : List (String × α))
    (h : es.Pairwise fun a b => a.1 < b.1) :
    (updateEntries k f es).lookup j =
      if j = k then some (f (es.lookup k)) else es.lookup j := by
  induction es with
  | nil =>
    by_cases hj : j = k
    · simp [updateEntries, hj]
    · have hb : (j == k) = false := by simpa using hj
      simp [updateEntries, List.lookup_cons, hj, hb]
  | cons d r ih =>
    have hd := List.pairwise_cons.1 h
    have absent : ∀ k, k < d.1 → (d :: r).lookup k = none := by
      intro k hk
      rw [List.lookup_eq_none_iff]
      intro e he
      have hke : k < e.1 := by
        rcases List.mem_cons.1 he with rfl | he
        · exact hk
        · exact String.lt_trans hk (hd.1 e he)
      have hne : k ≠ e.1 := fun heq => String.lt_irrefl _ (heq ▸ hke)
      simpa using hne
    simp only [updateEntries]
    split
    · rename_i hk
      rw [absent k hk]
      by_cases hj : j = k
      · simp [hj]
      · have hb : (j == k) = false := by simpa using hj
        rw [List.lookup_cons, hb, if_neg hj]
    · split
      · rename_i hk
        by_cases hj : j = k
        · have hkd : (k == d.1) = true := by simpa using hk
          rw [if_pos hj, List.lookup_cons, List.lookup_cons, hkd, hj, beq_self_eq_true]
        · have hb : (j == k) = false := by simpa using hj
          have hb' : (j == d.1) = false := by simpa [← hk] using hj
          rw [List.lookup_cons, hb, if_neg hj, List.lookup_cons, hb']
      · rename_i hlt hne
        have hkd : (k == d.1) = false := by simpa using hne
        rw [List.lookup_cons, List.lookup_cons, List.lookup_cons, hkd, ih hd.2]
        cases hjd : j == d.1
        · simp only
        · have hjd' : j = d.1 := by simpa using hjd
          have hjk : ¬ j = k := fun heq => hne (heq ▸ hjd')
          simp [hjk]

theorem get?_update
    (t : Keyed α) (k j : String) (f : Option α → α) :
    (t.update k f).get? j = if j = k then some (f (t.get? k)) else t.get? j :=
  lookup_updateEntries k j f t.entries t.sorted

theorem get?_insert
    (t : Keyed α) (k j : String) (a : α) :
    (t.insert k a).get? j = if j = k then some a else t.get? j :=
  get?_update t k j _

@[simp] theorem get?_empty
    (k : String) :
    (empty : Keyed α).get? k = none := by
  rfl

theorem lookup_of_mem
    {es : List (String × α)} {e : String × α}
    (h : es.Pairwise fun a b => a.1 < b.1)
    (he : e ∈ es) :
    es.lookup e.1 = some e.2 := by
  induction es with
  | nil => cases he
  | cons d r ih =>
    have hd := List.pairwise_cons.1 h
    rcases List.mem_cons.1 he with rfl | he
    · rw [List.lookup_cons, beq_self_eq_true]
    · have hlt := hd.1 e he
      have hne : (e.1 == d.1) = false := by
        have : e.1 ≠ d.1 := fun heq => String.lt_irrefl _ (heq ▸ hlt)
        simpa using this
      rw [List.lookup_cons, hne]
      exact ih hd.2 he

theorem mem_of_lookup
    {es : List (String × α)} {k : String} {a : α}
    (h : es.lookup k = some a) :
    (k, a) ∈ es := by
  induction es with
  | nil => cases h
  | cons d r ih =>
    rw [List.lookup_cons] at h
    split at h
    · rename_i heq
      cases h
      have : k = d.1 := by simpa using heq
      subst this
      exact List.mem_cons_self
    · exact List.mem_cons_of_mem _ (ih h)

theorem mem_entries_iff
    {t : Keyed α} {k : String} {a : α} :
    (k, a) ∈ t.entries ↔ t.get? k = some a :=
  ⟨fun h => lookup_of_mem t.sorted h, mem_of_lookup⟩

theorem eq_of_mem_iff
    {es ds : List (String × α)}
    (he : es.Pairwise fun a b => a.1 < b.1)
    (hd : ds.Pairwise fun a b => a.1 < b.1)
    (h : ∀ x, x ∈ es ↔ x ∈ ds) :
    es = ds := by
  induction es generalizing ds with
  | nil =>
    cases ds with
    | nil => rfl
    | cons d ds => exact absurd ((h d).2 List.mem_cons_self) List.not_mem_nil
  | cons e es ih =>
    cases ds with
    | nil => exact absurd ((h e).1 List.mem_cons_self) List.not_mem_nil
    | cons d ds =>
      have hes := List.pairwise_cons.1 he
      have hds := List.pairwise_cons.1 hd
      have hed : e = d := by
        rcases List.mem_cons.1 ((h e).1 List.mem_cons_self) with heq | hmem
        · exact heq
        · rcases List.mem_cons.1 ((h d).2 List.mem_cons_self) with heq | hmem'
          · exact heq.symm
          · exact absurd (String.lt_trans (hes.1 d hmem') (hds.1 e hmem)) (String.lt_irrefl _)
      subst hed
      congr 1
      refine ih hes.2 hds.2 fun x => ?_
      have hx := h x
      simp only [List.mem_cons] at hx
      constructor
      · intro hm
        rcases hx.1 (Or.inr hm) with heq | hm'
        · exact absurd (heq ▸ hes.1 x hm) (String.lt_irrefl _)
        · exact hm'
      · intro hm
        rcases hx.2 (Or.inr hm) with heq | hm'
        · exact absurd (heq ▸ hds.1 x hm) (String.lt_irrefl _)
        · exact hm'

/-- A table is determined by its look-ups. -/
theorem ext_get?
    {s t : Keyed α}
    (h : ∀ k, s.get? k = t.get? k) :
    s = t := by
  have hentries : s.entries = t.entries :=
    eq_of_mem_iff s.sorted t.sorted fun x => by
      rw [show x = (x.1, x.2) from rfl, mem_entries_iff, mem_entries_iff, h]
  cases s
  cases t
  cases hentries
  rfl

end Keyed

/-- A set of texts, in order. -/
abbrev TextSet := Keyed Unit

namespace TextSet

/-- Add a text. -/
def add (s : TextSet) (k : String) : TextSet :=
  Keyed.insert s k ()

/-- The texts, in order. -/
def toList (s : TextSet) : List String :=
  Keyed.keys s

/-- The set of the texts in a list. -/
def ofList (l : List String) : TextSet :=
  l.foldl add Keyed.empty

/-- All texts of two sets. -/
def union (s t : TextSet) : TextSet :=
  (toList t).foldl add s

theorem contains_add
    (s : TextSet) (k j : String) :
    (s.add k).contains j = (j == k || s.contains j) := by
  unfold add Keyed.contains
  rw [Keyed.get?_insert]
  by_cases h : j = k <;> simp [h]

end TextSet

end ContentModels

import ContentModels.Keyed
import ContentModels.Proofs.Lists

/-!
# Tables

A table into which entries are inserted holds for a key the last of these, or else what it held
before.  Of entries with different keys it holds each (`get?_ofList_eq_some_iff`), so their
order does not matter (`ofList_perm`).
-/

namespace ContentModels
namespace Keyed

variable {α : Type}

theorem mem_keys_iff
    {t : Keyed α} {k : String} :
    k ∈ t.keys ↔ t.contains k = true := by
  unfold keys contains
  rw [List.mem_map, Option.isSome_iff_exists]
  constructor
  · rintro ⟨e, he, rfl⟩
    exact ⟨e.2, mem_entries_iff.1 he⟩
  · rintro ⟨a, ha⟩
    exact ⟨(k, a), mem_entries_iff.2 ha, rfl⟩

theorem get?_foldl_insert
    (es : List (String × α)) (t : Keyed α) (k : String) :
    (es.foldl (fun s e => s.insert e.1 e.2) t).get? k = (es.reverse.lookup k).or (t.get? k) := by
  induction es generalizing t with
  | nil => rfl
  | cons e es ih =>
    rw [List.foldl_cons, ih, get?_insert, List.reverse_cons, List.lookup_append, Option.or_assoc]
    obtain ⟨j, a⟩ := e
    by_cases hk : k = j
    · have hb : (k == j) = true := by simpa using hk
      simp [hk]
    · have hb : (k == j) = false := by simpa using hk
      simp [hk, hb, List.lookup_cons]

/-- What a table holds into which entries are inserted is one of these, or was there before. -/
theorem of_mem_entries_foldl_insert
    {es : List (String × α)} {t : Keyed α} {e : String × α}
    (h : e ∈ (es.foldl (fun s e => s.insert e.1 e.2) t).entries) :
    e ∈ es ∨ e ∈ t.entries := by
  obtain ⟨k, a⟩ := e
  rw [mem_entries_iff, get?_foldl_insert, Option.or_eq_some_iff] at h
  rcases h with h | ⟨-, h⟩
  · exact .inl (List.mem_reverse.1 (mem_of_lookup h))
  · exact .inr (mem_entries_iff.2 h)

/-- Inserting the same entries once more changes nothing. -/
theorem foldl_insert_idem
    (es : List (String × α)) (t : Keyed α) :
    es.foldl (fun s e => s.insert e.1 e.2) (es.foldl (fun s e => s.insert e.1 e.2) t) =
      es.foldl (fun s e => s.insert e.1 e.2) t := by
  refine ext_get? fun k => ?_
  rw [get?_foldl_insert, get?_foldl_insert]
  cases es.reverse.lookup k <;> rfl

theorem filter_foldl_insert
    {es : List (String × α)} {t : Keyed α} {p : String → Bool}
    (ht : ∀ e ∈ t.entries, p e.1 = true) (hes : ∀ e ∈ es, p e.1 = false) :
    (es.foldl (fun s e => s.insert e.1 e.2) t).entries.filter (fun e => p e.1) =
      t.entries := by
  refine eq_of_mem_iff ((sorted _).filter _) t.sorted fun x => ?_
  obtain ⟨k, a⟩ := x
  rw [List.mem_filter, mem_entries_iff, mem_entries_iff, get?_foldl_insert]
  have habsent : p k = true → es.reverse.lookup k = none := by
    intro hk
    rw [List.lookup_eq_none_iff]
    intro e he
    have hne : k ≠ e.1 := by
      rintro rfl
      rw [hes e (List.mem_reverse.1 he)] at hk
      cases hk
    simpa using hne
  constructor
  · rintro ⟨hget, hk⟩
    rwa [habsent hk, Option.none_or] at hget
  · intro hget
    have hk := ht _ (mem_entries_iff.2 hget)
    rw [habsent hk, Option.none_or]
    exact ⟨hget, hk⟩

/-- A table into which entries with different keys are inserted holds them. -/
theorem mem_entries_foldl_insert
    {es : List (String × α)} (hnodup : (es.map (·.1)).Nodup) (t : Keyed α) {e : String × α}
    (he : e ∈ es) :
    e ∈ (es.foldl (fun s e => s.insert e.1 e.2) t).entries := by
  obtain ⟨k, a⟩ := e
  rw [mem_entries_iff, get?_foldl_insert]
  have hkeys : (es.reverse.map (·.1)).Nodup := by
    rw [List.map_reverse]
    exact List.nodup_reverse.2 hnodup
  rw [lookup_eq_some_of_mem hkeys (List.mem_reverse.2 he), Option.some_or]

/-- An entry stays where no entry with its key is inserted. -/
theorem mem_entries_foldl_insert_of_ne
    {es : List (String × α)} {t : Keyed α} {e : String × α} (he : e ∈ t.entries)
    (hne : ∀ x ∈ es, x.1 ≠ e.1) :
    e ∈ (es.foldl (fun s e => s.insert e.1 e.2) t).entries := by
  obtain ⟨k, a⟩ := e
  rw [mem_entries_iff, get?_foldl_insert]
  have hnone : es.reverse.lookup k = none := by
    rw [List.lookup_eq_none_iff]
    intro x hx
    simpa using Ne.symm (hne x (List.mem_reverse.1 hx))
  rw [hnone, Option.none_or]
  exact mem_entries_iff.1 he

/-! ### Tables of lists -/

theorem mem_of_get?_ofList
    {es : List (String × α)} {k : String} {a : α} (h : (ofList es).get? k = some a) :
    (k, a) ∈ es :=
  (of_mem_entries_foldl_insert (mem_entries_iff.2 h)).resolve_right nofun

/-- A table of entries with different keys holds these and no others. -/
theorem get?_ofList_eq_some_iff
    {es : List (String × α)} (hnodup : (es.map (·.1)).Nodup) {k : String} {a : α} :
    (ofList es).get? k = some a ↔ (k, a) ∈ es :=
  ⟨mem_of_get?_ofList, fun h => mem_entries_iff.1 (mem_entries_foldl_insert hnodup empty h)⟩

/-- Entries with different keys make the same table in any order. -/
theorem ofList_perm
    {es ds : List (String × α)} (hnodup : (es.map (·.1)).Nodup) (h : es.Perm ds) :
    ofList es = ofList ds :=
  ext_get? fun k => Option.ext fun a => by
    rw [get?_ofList_eq_some_iff hnodup, get?_ofList_eq_some_iff ((h.map _).nodup_iff.1 hnodup),
      h.mem_iff]

end Keyed
end ContentModels

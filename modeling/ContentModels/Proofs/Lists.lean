import ContentModels.Options.Declaration
import Mathlib.Data.List.Nodup

/-!
# Lists

What is chosen from a list by position, or whatever the order, and lists without repetitions.
-/

namespace ContentModels

/-! ### Choosing -/

theorem flatMap_congr
    {α β : Type} {as : List α} {f g : α → List β}
    (h : ∀ a ∈ as, f a = g a) :
    as.flatMap f = as.flatMap g := by
  rw [List.flatMap_def, List.flatMap_def, List.map_congr_left h]

/-- What is found does not depend on the order if only one element can be found. -/
theorem find?_eq_of_mem_iff
    {α : Type} {l l' : List α} {p : α → Bool} (hmem : ∀ a, a ∈ l ↔ a ∈ l')
    (hsame : ∀ a ∈ l, ∀ b ∈ l, p a = true → p b = true → a = b) :
    l.find? p = l'.find? p := by
  cases h : l.find? p with
  | none =>
    refine (List.find?_eq_none.2 fun a ha => ?_).symm
    exact List.find?_eq_none.1 h a ((hmem a).2 ha)
  | some a =>
    have ha := List.mem_of_find?_eq_some h
    have hsome : (l'.find? p).isSome = true :=
      List.find?_isSome.2 ⟨a, (hmem a).1 ha, List.find?_some h⟩
    obtain ⟨b, hb⟩ := Option.isSome_iff_exists.1 hsome
    rw [hb, hsame a ha b ((hmem b).2 (List.mem_of_find?_eq_some hb)) (List.find?_some h)
      (List.find?_some hb)]

/-- The same is chosen from a part of a list if nothing else is chosen. -/
theorem filter_eq_of_sublist
    {α : Type} {l l' : List α} {p : α → Bool} (h : l.Sublist l') (hnodup : l'.Nodup)
    (hchosen : ∀ a ∈ l', p a = true → a ∈ l) :
    l'.filter p = l.filter p := by
  induction h with
  | slnil => rfl
  | @cons l l' a hsub ih =>
    obtain ⟨ha, hrest⟩ := List.nodup_cons.1 hnodup
    have hnot : p a = false := by
      refine Bool.eq_false_iff.2 fun hpa => ha (hsub.subset ?_)
      exact hchosen a List.mem_cons_self hpa
    rw [List.filter_cons_of_neg (by simp [hnot])]
    exact ih hrest fun b hb => hchosen b (List.mem_cons_of_mem _ hb)
  | @cons_cons l l' a hsub ih =>
    obtain ⟨ha, hrest⟩ := List.nodup_cons.1 hnodup
    have hl : l'.filter p = l.filter p := ih hrest fun b hb hpb => by
      refine (List.mem_cons.1 (hchosen b (List.mem_cons_of_mem _ hb) hpb)).resolve_left ?_
      rintro rfl
      exact ha hb
    rw [List.filter_cons, List.filter_cons, hl]

theorem flatMap_filterMap
    {α β γ : Type} {f : α → Option β} {g : β → List γ} {l : List α} :
    (l.filterMap f).flatMap g = l.flatMap fun a => ((f a).map g).getD [] := by
  induction l with
  | nil => rfl
  | cons a l ih =>
    rw [List.filterMap_cons, List.flatMap_cons, ← ih]
    cases f a with
    | none => rfl
    | some b => rfl

/-- What is found for all elements is found for each. -/
theorem map_eq_of_filterMap
    {α β : Type} {f : α → Option β} {as : List α} {bs : List β}
    (hsome : ∀ a ∈ as, (f a).isSome = true) (h : as.filterMap f = bs) :
    as.map f = bs.map some := by
  subst h
  induction as with
  | nil => rfl
  | cons a as ih =>
    obtain ⟨ha, hrest⟩ := List.forall_mem_cons.1 hsome
    obtain ⟨b, hb⟩ := Option.isSome_iff_exists.1 ha
    rw [List.map_cons, List.filterMap_cons_some hb, List.map_cons, hb, ih hrest]

/-! ### Keys -/

/-- What is listed under a key is found, if keys differ. -/
theorem lookup_eq_some_of_mem
    {κ α : Type} [BEq κ] [LawfulBEq κ] {es : List (κ × α)} {k : κ} {a : α}
    (hnodup : (es.map (·.1)).Nodup) (h : (k, a) ∈ es) :
    es.lookup k = some a := by
  obtain ⟨l, r, rfl⟩ := List.append_of_mem h
  refine List.lookup_eq_some_iff.2 ⟨l, r, rfl, fun x hx => ?_⟩
  rw [List.map_append, List.map_cons, List.nodup_append] at hnodup
  have hne := hnodup.2.2 x.1 (List.mem_map_of_mem hx) k List.mem_cons_self
  simpa using Ne.symm hne

/-- What belongs to elements with different keys belongs to their keys. -/
theorem exists_of_nodup_map
    {α κ β : Type} [Inhabited β] {l : List α} {key : α → κ} (hnodup : (l.map key).Nodup)
    (f : α → β) :
    ∃ g : κ → β, ∀ a ∈ l, f a = g (key a) := by
  classical
  refine ⟨fun k => ((l.find? fun b => key b = k).map f).getD default, fun a ha => ?_⟩
  have hsome : (l.find? fun b => key b = key a).isSome = true :=
    List.find?_isSome.2 ⟨a, ha, decide_eq_true rfl⟩
  obtain ⟨b, hb⟩ := Option.isSome_iff_exists.1 hsome
  have hkey : key b = key a := by simpa using List.find?_some hb
  dsimp only
  rw [hb, List.inj_on_of_nodup_map hnodup (List.mem_of_find?_eq_some hb) ha hkey]
  rfl

/-! ### Positions -/

theorem getElem?_filterMap_of_isSome
    {α β : Type} {f : α → Option β} {as : List α}
    (h : ∀ a ∈ as, (f a).isSome) (i : Nat) :
    (as.filterMap f)[i]? = as[i]?.bind f := by
  induction as generalizing i with
  | nil => rfl
  | cons a as ih =>
    obtain ⟨b, hb⟩ := Option.isSome_iff_exists.1 (h a List.mem_cons_self)
    rw [List.filterMap_cons_some hb]
    cases i with
    | zero => exact hb.symm
    | succ i => exact ih (fun a ha => h a (List.mem_cons_of_mem _ ha)) i

/-- What is chosen by position is chosen by what is at the positions. -/
theorem filterMap_range_filter
    {α : Type} {l : List α} {p : Nat → Bool} {q : α → Bool}
    (h : ∀ i a, l[i]? = some a → p i = q a) :
    ((List.range l.length).filter p).filterMap (l[·]?) = l.filter q := by
  have hall : (List.range l.length).filterMap (l[·]?) = l := by
    refine List.ext_getElem? fun i => ?_
    rw [getElem?_filterMap_of_isSome fun i hi => by simpa using hi]
    by_cases hi : i < l.length
    · simp [hi]
    · simp [hi]
  have hfilter : (l.filter q) = ((List.range l.length).filterMap (l[·]?)).filter q := by rw [hall]
  rw [hfilter, List.filterMap_filter, List.filter_filterMap]
  refine List.filterMap_congr fun i hi => ?_
  have hget := List.getElem?_eq_getElem (List.mem_range.1 hi)
  rw [hget, h i _ hget]
  rfl

/-- Elements that are found by their own positions. -/
theorem filterMap_zipIdx_getElem?
    {α β : Type} (l : List α) (g : α → α → β) :
    (l.zipIdx.filterMap fun x => l[x.2]?.map (g x.1)) = l.map fun a => g a a := by
  have hown : (l.zipIdx.filterMap fun x => l[x.2]?.map (g x.1)) =
      l.zipIdx.filterMap (some ∘ fun x => g x.1 x.1) := by
    refine List.filterMap_congr fun x hx => ?_
    rw [List.mem_zipIdx_iff_getElem?.1 hx]
    rfl
  rw [hown, List.filterMap_eq_map]
  conv_rhs => rw [← List.zipIdx_map_fst 0 l, List.map_map]
  rfl

/-- A position is that of one element. -/
theorem eq_of_getElem?_of_nodup
    {α : Type} {l : List α} {i j : Nat} {a : α} (hnodup : l.Nodup)
    (hi : l[i]? = some a) (hj : l[j]? = some a) :
    i = j :=
  (List.getElem?_inj (List.getElem?_eq_some_iff.1 hi).1 hnodup).1 (hi.trans hj.symm)

/-! ### Repetitions -/

/-- Repetitions can be left out before or after elements are replaced one by one. -/
theorem filterMap_eraseDups
    {α β : Type} [DecidableEq α] [DecidableEq β] {f : α → Option β} (as : List α)
    (hinj : ∀ a ∈ as, ∀ b ∈ as, f a = f b → a = b) (hsome : ∀ a ∈ as, (f a).isSome = true) :
    as.eraseDups.filterMap f = (as.filterMap f).eraseDups := by
  induction hn : as.length using Nat.strongRecOn generalizing as with
  | _ n ih =>
    cases as with
    | nil => rfl
    | cons a as =>
      obtain ⟨x, hx⟩ := Option.isSome_iff_exists.1 (hsome a List.mem_cons_self)
      have hrest : ∀ b ∈ as.filter (fun b => !b == a), b ∈ a :: as := fun b hb =>
        List.mem_cons_of_mem _ (List.mem_filter.1 hb).1
      have hlength : (as.filter fun b => !b == a).length < n := by
        rw [← hn, List.length_cons]
        exact Nat.lt_succ_of_le (List.length_filter_le _ _)
      have hfilter : (as.filter fun b => !b == a).filterMap f =
          (as.filterMap f).filter fun y => !y == x := by
        rw [List.filterMap_filter, List.filter_filterMap]
        refine List.filterMap_congr fun b hb => ?_
        obtain ⟨y, hy⟩ := Option.isSome_iff_exists.1 (hsome b (List.mem_cons_of_mem _ hb))
        by_cases hba : b = a
        · subst hba
          obtain rfl : x = y := Option.some.inj (hx.symm.trans hy)
          simp [hx, Option.filter]
        · have hyx : y ≠ x := fun heq => hba
            (hinj b (List.mem_cons_of_mem _ hb) a List.mem_cons_self (by rw [hy, hx, heq]))
          simp [hy, Option.filter, hba, hyx]
      rw [List.eraseDups_cons, List.filterMap_cons_some hx, List.filterMap_cons_some hx,
        List.eraseDups_cons, ← hfilter]
      congr 1
      exact ih _ hlength _ (fun b hb c hc => hinj b (hrest b hb) c (hrest c hc))
        (fun b hb => hsome b (hrest b hb)) rfl

theorem nodup_eraseDups
    {α : Type} [DecidableEq α] (as : List α) :
    as.eraseDups.Nodup := by
  induction hn : as.length using Nat.strongRecOn generalizing as with
  | _ n ih =>
    cases as with
    | nil => exact .nil
    | cons a as =>
      have hlength : (as.filter fun b => !b == a).length < n := by
        rw [← hn, List.length_cons]
        exact Nat.lt_succ_of_le (List.length_filter_le _ _)
      rw [List.eraseDups_cons, List.nodup_cons, List.mem_eraseDups]
      exact ⟨by simp, ih _ hlength _ rfl⟩

/-- Adding entries to a list adds those that it does not hold. -/
theorem mem_foldl_addOnce
    {names start : List String} {name : String} :
    name ∈ names.foldl addOnce start ↔ name ∈ start ∨ name ∈ names := by
  induction names generalizing start with
  | nil => simp
  | cons n names ih =>
    rw [List.foldl_cons, ih]
    unfold addOnce
    split
    · rename_i hmem
      have hmem : n ∈ start := by simpa using hmem
      constructor
      · rintro (h | h)
        · exact .inl h
        · exact .inr (List.mem_cons_of_mem _ h)
      · rintro (h | h)
        · exact .inl h
        · rcases List.mem_cons.1 h with rfl | h
          · exact .inl hmem
          · exact .inr h
    · rw [List.mem_append, List.mem_singleton, List.mem_cons, or_assoc]

/-- Entries that a list holds are not added. -/
theorem foldl_addOnce_of_subset
    {names start : List String} (h : ∀ name ∈ names, name ∈ start) :
    names.foldl addOnce start = start := by
  induction names with
  | nil => rfl
  | cons n names ih =>
    obtain ⟨hn, hnames⟩ := List.forall_mem_cons.1 h
    rw [List.foldl_cons, addOnce, if_pos (List.contains_iff_mem.2 hn), ih hnames]

end ContentModels

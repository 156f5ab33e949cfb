import ContentModels.Options.Declaration
import ContentModels.Proofs.Outcome
import ContentModels.Proofs.Searches
import ContentModels.Proofs.Tables
import Mathlib.Algebra.GroupWithZero.Nat

/-!
# Options that classes inherit

After the mapping a class has the options of all classes and interfaces that it is declared to
be derived from, directly or not, also where declarations lead in circles.  The name of a
property is the one that a depth-first search finds, which tries a class before its base class
and the base class before the interfaces.  A property is ignored or implemented if it is so for
any class or interface that is reached (`answers_inherited`).
-/

namespace ContentModels

open Relation Walk

namespace Keyed

variable {α : Type}

theorem nodup_keys
    (t : Keyed α) :
    t.keys.Nodup :=
  List.pairwise_map.2 (t.sorted.imp fun hlt => String.ne_of_lt hlt)

/-- A sum over keys is one over the entries if no key of the table is left out. -/
theorem sum_get?
    (t : Keyed α) (f : α → Nat) {s : Finset String}
    (h : ∀ k ∈ t.keys, k ∈ s) :
    ∑ k ∈ s, ((t.get? k).map f).getD 0 = (t.entries.map fun e => f e.2).sum := by
  have hsubset : t.keys.toFinset ⊆ s := fun k hk => h k (List.mem_toFinset.1 hk)
  have hout : ∀ k ∈ s, k ∉ t.keys.toFinset → ((t.get? k).map f).getD 0 = 0 := by
    intro k _ hk
    rw [List.mem_toFinset, mem_keys_iff] at hk
    have hnone : t.get? k = none := by simpa [contains] using hk
    rw [hnone]
    rfl
  rw [← Finset.sum_subset hsubset hout, List.sum_toFinset _ t.nodup_keys]
  unfold keys
  rw [List.map_map]
  congr 1
  refine List.map_congr_left fun e he => ?_
  rw [Function.comp_apply, mem_entries_iff.1 (show (e.1, e.2) ∈ t.entries from he)]
  rfl

end Keyed

namespace ContentTypeOptions

variable {o : ContentTypeOptions} {key className property : String}

/-! ### Supertypes -/

/-- The keys of all classes for which supertypes are declared. -/
def derivedKeys (o : ContentTypeOptions) : Finset String :=
  (o.baseClasses.keys ++ o.interfaces.keys).toFinset

theorem supertypes_eq_nil
    (h : key ∉ o.derivedKeys) :
    o.supertypes key = [] := by
  unfold derivedKeys at h
  simp only [List.mem_toFinset, List.mem_append, not_or, Keyed.mem_keys_iff, Keyed.contains,
    Bool.not_eq_true, Option.isSome_eq_false_iff, Option.isNone_iff_eq_none] at h
  unfold supertypes
  rw [h.1, h.2]
  rfl

theorem length_supertypes
    (o : ContentTypeOptions) (key : String) :
    (o.supertypes key).length =
      ((o.baseClasses.get? key).map fun _ => 1).getD 0 +
        ((o.interfaces.get? key).map List.length).getD 0 := by
  unfold supertypes
  rw [List.length_map, List.length_append]
  congr 1
  · cases o.baseClasses.get? key <;> rfl
  · cases o.interfaces.get? key <;> rfl

/-- All declared supertypes are counted. -/
theorem sum_length_supertypes
    (o : ContentTypeOptions) :
    ∑ key ∈ o.derivedKeys, (o.supertypes key).length = o.supertypeCount := by
  have hbases : ∀ k ∈ o.baseClasses.keys, k ∈ o.derivedKeys := fun k hk =>
    List.mem_toFinset.2 (List.mem_append_left _ hk)
  have hinterfaces : ∀ k ∈ o.interfaces.keys, k ∈ o.derivedKeys := fun k hk =>
    List.mem_toFinset.2 (List.mem_append_right _ hk)
  simp only [length_supertypes]
  rw [Finset.sum_add_distrib, o.baseClasses.sum_get? _ hbases, o.interfaces.sum_get? _ hinterfaces]
  unfold supertypeCount
  rw [List.length_flatMap]
  simp

/-- The lineage of a class holds all that its declared supertypes lead to. -/
theorem mem_lineage_iff :
    key ∈ o.lineage className ↔ ReflTransGen (Leads o.supertypes) className key :=
  mem_nodes_iff (fun _ => supertypes_eq_nil) (Nat.le_of_eq o.sum_length_supertypes)

/-- What is found first along the lineage of a class is what a search finds. -/
theorem searches_lineage
    {β : Type} (find : String → Option β) :
    ∃ tried, Searches o.supertypes find [] [className]
      ((o.lineage className).findSome? find) tried :=
  searches_nodes find (fun _ => supertypes_eq_nil) (Nat.le_of_eq o.sum_length_supertypes)

/-! ### Queries by class name -/

theorem relevant_className
    (hmapped : o.mapped = true) :
    o.relevant (.className className) = .ok (o.ofClass className) := by
  have hkey : o.checkKey (.className className) = .ok () := by
    unfold checkKey
    rw [hmapped]
  unfold relevant
  rw [hkey, hmapped]
  rfl

/-- What holds of some options of a class holds of those filed under some key of its lineage. -/
theorem any_ofClass_iff
    {p : PropertyOptions → Bool} :
    (o.ofClass className).any p = true ↔
      ∃ key, ReflTransGen (Leads o.supertypes) (Text.lowercase className) key ∧
        ∃ options, o.byClass.get? key = some options ∧ p options = true := by
  unfold ofClass
  simp only [List.any_eq_true, List.mem_filterMap, mem_lineage_iff]
  constructor
  · rintro ⟨options, ⟨key, hkey, hget⟩, hp⟩
    exact ⟨key, hkey, options, hget, hp⟩
  · rintro ⟨key, hkey, options, hget, hp⟩
    exact ⟨options, ⟨key, hkey, hget⟩, hp⟩

/-- The name that the options filed under a class give to a property. -/
def nameUnder (o : ContentTypeOptions) (property key : String) : Option String :=
  (o.byClass.get? key).bind (·.name? property)

theorem findSome?_ofClass
    (o : ContentTypeOptions) (className property : String) :
    (o.ofClass className).findSome? (·.name? property) =
      (o.lineage (Text.lowercase className)).findSome? (o.nameUnder property) := by
  unfold ofClass
  induction o.lineage (Text.lowercase className) with
  | nil => rfl
  | cons key keys ih =>
    rw [List.findSome?_cons, ← ih]
    unfold nameUnder
    cases hget : o.byClass.get? key with
    | none => rw [List.filterMap_cons_none hget]; rfl
    | some options => rw [List.filterMap_cons_some hget, List.findSome?_cons]; rfl

/--
Queries by class name are answered by a search along the declared supertypes, which finds the
name of a property, and by all that these lead to, whether it is ignored or implemented.
-/
theorem answers_inherited
    (hmapped : o.mapped = true) (className property : String) :
    (∃ name, o.propertyName? (.className className) property = .ok name ∧
      ∀ found, (∃ tried, Searches o.supertypes (o.nameUnder property) []
        [Text.lowercase className] found tried) ↔ found = name) ∧
    (∃ ignored, o.isPropertyIgnored (.className className) property = .ok ignored ∧
      (ignored = true ↔ ∃ key, ReflTransGen (Leads o.supertypes) (Text.lowercase className) key ∧
        ∃ options, o.byClass.get? key = some options ∧
          ∃ pattern ∈ TextSet.toList options.ignored, matchesPattern pattern property = true)) ∧
    ∃ implemented, o.isPropertyImplemented (.className className) property = .ok implemented ∧
      (implemented = true ↔
        ∃ key, ReflTransGen (Leads o.supertypes) (Text.lowercase className) key ∧
          ∃ options, o.byClass.get? key = some options ∧
            options.implemented.contains (Text.lowercase property) = true) := by
  have hrelevant := @relevant_className o className hmapped
  refine ⟨⟨_, by unfold propertyName?; rw [hrelevant]; rfl, fun found => ?_⟩,
    ⟨_, by unfold isPropertyIgnored; rw [hrelevant]; rfl, ?_⟩,
    ⟨_, by unfold isPropertyImplemented; rw [hrelevant]; rfl, any_ofClass_iff⟩⟩
  · rw [findSome?_ofClass]
    obtain ⟨tried, hsearch⟩ := @searches_lineage o (Text.lowercase className) _
      (o.nameUnder property)
    constructor
    · rintro ⟨tried', hsearch'⟩
      exact (hsearch'.unique hsearch).1
    · rintro rfl
      exact ⟨tried, hsearch⟩
  · rw [any_ofClass_iff]
    simp only [PropertyOptions.isIgnored, List.any_eq_true]

/-- Options of a page whose base class is derived from it in turn, and of its interfaces. -/
def circularOptions : ContentTypeOptions :=
  { (CodeOptions.ofDeclarations [
      .baseClass "Page" "Base", .interface "Page" "ISeo", .interface "Page" "IHead",
      .baseClass "Base" "Page", .interface "Base" "IMeta", .interface "ISeo" "IMeta",
      .renameProperty (.className "ISeo") "title" "SeoTitle",
      .renameProperty (.className "IMeta") "title" "MetaTitle",
      .ignoreProperty (.className "IHead") "tit*"]).contentTypes with mapped := true }

/-- What the interface of the base class says comes before what the own interface says. -/
theorem answers_inherited_page :
    circularOptions.propertyName? (.className "Page") "Title" = .ok (some "MetaTitle") ∧
      (∃ tried, Searches circularOptions.supertypes (circularOptions.nameUnder "Title") []
        [Text.lowercase "Page"] (some "MetaTitle") tried) ∧
      ∃ key options, ReflTransGen (Leads circularOptions.supertypes) (Text.lowercase "Page") key ∧
        circularOptions.byClass.get? key = some options ∧
          ∃ pattern ∈ TextSet.toList options.ignored, matchesPattern pattern "Title" = true := by
  have hname : circularOptions.propertyName? (.className "Page") "Title" =
      .ok (some "MetaTitle") := Outcome.ok_of_toOption (by decide +kernel)
  have hignored : circularOptions.isPropertyIgnored (.className "Page") "Title" = .ok true :=
    Outcome.ok_of_toOption (by decide +kernel)
  obtain ⟨⟨name, hname', hsearch⟩, ⟨ignored, hignored', hreach⟩, -⟩ :=
    answers_inherited (o := circularOptions) (by decide +kernel) "Page" "Title"
  obtain rfl := Except.ok.inj (hname.symm.trans hname')
  obtain rfl := Except.ok.inj (hignored.symm.trans hignored')
  obtain ⟨key, hkey, options, hoptions, hpattern⟩ := hreach.1 rfl
  exact ⟨hname, (hsearch _).2 rfl, key, options, hkey, hoptions, hpattern⟩

end ContentTypeOptions
end ContentModels

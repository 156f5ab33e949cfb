import ContentModels.Proofs.Options
import ContentModels.Proofs.Tables

/-!
# Properties that options leave to code

A property counts as implemented for a class if a declaration says so, by the name of the
class or by the alias of its content type, whatever the case of the letters.  What is filed
under an alias moves to the name of the class for it, next to what is filed there, and a class
always has what is filed under its own name.
-/

namespace ContentModels

namespace TextSet

theorem contains_foldl_add
    (l : List String) (s : TextSet) (k : String) :
    (l.foldl add s).contains k = (l.contains k || s.contains k) := by
  induction l generalizing s with
  | nil => simp
  | cons x l ih =>
    rw [List.foldl_cons, ih, contains_add, List.contains_cons]
    cases k == x <;> simp

theorem contains_union
    (s t : TextSet) (k : String) :
    (union s t).contains k = (s.contains k || t.contains k) := by
  have hkeys : (toList t).contains k = t.contains k := by
    rw [Bool.eq_iff_iff, List.contains_iff_mem]
    exact Keyed.mem_keys_iff
  unfold union
  rw [contains_foldl_add, hkeys, Bool.or_comm]

/-- A set is determined by the texts in it. -/
theorem ext_contains
    {s t : TextSet} (h : ∀ k, s.contains k = t.contains k) :
    s = t :=
  Keyed.ext_get? fun k => by
    have hk := h k
    unfold Keyed.contains at hk
    revert hk
    cases s.get? k <;> cases t.get? k <;> simp

end TextSet

namespace Walk

variable {α : Type} [BEq α] {next : α → List α} {visited pending : List α} {a : α}

/-- A walk forgets no visit. -/
theorem mem_steps_of_visited
    (n : Nat) (h : a ∈ visited) :
    a ∈ steps next n visited pending := by
  induction n generalizing visited pending with
  | zero => exact h
  | succ n ih =>
    cases pending with
    | nil => exact h
    | cons b pending =>
      rw [steps]
      split
      · exact ih h
      · exact ih (List.mem_append_left _ h)

theorem start_mem_nodes
    (next : α → List α) (links : Nat) (start : α) :
    start ∈ nodes next links start := by
  unfold nodes
  rw [steps, if_neg (by simp)]
  exact mem_steps_of_visited links (by simp)

end Walk

namespace PropertyOptions

theorem isImplemented_merge
    (o added : PropertyOptions) (property : String) :
    (o.merge added).isImplemented property =
      (o.isImplemented property || added.isImplemented property) :=
  TextSet.contains_union _ _ _

/-- Whether what is filed under a key says that a property is implemented. -/
def implementsAt (table : Keyed PropertyOptions) (key property : String) : Bool :=
  (table.get? key).any (·.isImplemented property)

theorem implementsAt_update
    (table : Keyed PropertyOptions) (key k property : String)
    (f : PropertyOptions → PropertyOptions) :
    implementsAt (table.update k fun p => f (p.getD .empty)) key property =
      if k = key then (f ((table.get? key).getD .empty)).isImplemented property
      else implementsAt table key property := by
  unfold implementsAt
  rw [Keyed.get?_update]
  by_cases h : k = key
  · rw [if_pos h.symm, if_pos h, h]
    rfl
  · rw [if_neg (Ne.symm h), if_neg h]

theorem isImplemented_getD
    (table : Keyed PropertyOptions) (key property : String) :
    ((table.get? key).getD .empty).isImplemented property = implementsAt table key property := by
  unfold implementsAt
  cases table.get? key <;> rfl

end PropertyOptions

namespace ContentTypeOptions

open PropertyOptions

variable {o mapped : ContentTypeOptions} {key : TypeKey} {property name : String}

/-! ### Declarations -/

/-- What is filed under keys of some kind. -/
def tableOf (o : ContentTypeOptions) : TypeKey → Keyed PropertyOptions
  | .typeAlias _ => o.byAlias
  | .className _ => o.byClass

/-- A declaration that a property of a type is implemented. -/
def NamesImplemented (key : TypeKey) (property : String) (d : Declaration) : Prop :=
  ∃ k p, d = .implementProperty k p ∧ k.isAlias = key.isAlias ∧ k.folded = key.folded ∧
    Text.lowercase p = Text.lowercase property

theorem implementsAt_updateProperties
    (o : ContentTypeOptions) (key k : TypeKey) (property : String)
    (f : PropertyOptions → PropertyOptions) :
    implementsAt ((o.updateProperties k f).tableOf key) key.folded property =
      if k.isAlias = key.isAlias ∧ k.folded = key.folded then
        (f (((o.tableOf key).get? key.folded).getD .empty)).isImplemented property
      else implementsAt (o.tableOf key) key.folded property := by
  cases key <;> cases k
  · exact (implementsAt_update _ _ _ _ f).trans (by simp [tableOf, TypeKey.isAlias])
  · rfl
  · rfl
  · exact (implementsAt_update _ _ _ _ f).trans (by simp [tableOf, TypeKey.isAlias])

/-- A declaration adds what it says, and takes nothing back. -/
theorem implementsAt_declare
    (d : Declaration) :
    implementsAt ((o.declare d).tableOf key) key.folded property = true ↔
      NamesImplemented key property d ∨ implementsAt (o.tableOf key) key.folded property = true := by
  unfold NamesImplemented
  have hkeep : ∀ (k : TypeKey) (f : PropertyOptions → PropertyOptions),
      (∀ x, (f x).isImplemented property = x.isImplemented property) →
        implementsAt ((o.updateProperties k f).tableOf key) key.folded property =
          implementsAt (o.tableOf key) key.folded property := by
    intro k f hf
    rw [implementsAt_updateProperties, hf, isImplemented_getD, ite_self]
  cases d with
  | implementProperty k p =>
    have hadd : ∀ x : PropertyOptions,
        ({ x with implemented := x.implemented.add (Text.lowercase p) } :
            PropertyOptions).isImplemented property =
          (Text.lowercase property == Text.lowercase p || x.isImplemented property) := fun x =>
      TextSet.contains_add _ _ _
    simp only [declare, implementsAt_updateProperties, hadd, isImplemented_getD]
    by_cases hkey : k.isAlias = key.isAlias ∧ k.folded = key.folded
    · rw [if_pos hkey, Bool.or_eq_true, beq_iff_eq]
      refine or_congr_left ⟨fun h => ⟨k, p, rfl, hkey.1, hkey.2, h.symm⟩, ?_⟩
      rintro ⟨_, _, ⟨⟩, -, -, h⟩
      exact h.symm
    · rw [if_neg hkey]
      refine (or_iff_right ?_).symm
      rintro ⟨_, _, ⟨⟩, halias, hfolded, -⟩
      exact hkey ⟨halias, hfolded⟩
  | ignoreProperty k pattern =>
    unfold declare
    rw [hkeep]
    · simp
    · exact fun _ => rfl
  | renameProperty k p name =>
    unfold declare
    rw [hkeep]
    · simp
    · exact fun _ => rfl
  | _ => cases key <;> simp [declare, tableOf]

/-! ### Mapping aliases -/

/-- Class names by aliases in lower case, as options of properties are filed under them. -/
def foldedNames (map : Keyed String) : Keyed String :=
  .ofList (map.entries.map fun e => (Text.lowercase e.1, e.2))

theorem implementsAt_mergeInto
    (table : Keyed PropertyOptions) (className k : String) (added : PropertyOptions) :
    implementsAt (mergeInto table className added) k property =
      (implementsAt table k property ||
        Text.lowercase className == k && added.isImplemented property) := by
  unfold mergeInto
  rw [implementsAt_update table k (Text.lowercase className) property (·.merge added),
    isImplemented_merge, isImplemented_getD]
  by_cases h : Text.lowercase className = k
  · simp [h]
  · simp [h]

/-- Filing options under class names adds them to those that are there. -/
theorem implementsAt_foldl_mergeInto
    {folded : Keyed String} (es : List (String × PropertyOptions))
    (table : Keyed PropertyOptions) (k : String) :
    implementsAt (es.foldl (fun t e =>
      match folded.get? e.1 with
      | some className => mergeInto t className e.2
      | none => t) table) k property = true ↔
      implementsAt table k property = true ∨ ∃ e ∈ es, ∃ className, folded.get? e.1 = some className ∧
        Text.lowercase className = k ∧ e.2.isImplemented property = true := by
  induction es generalizing table with
  | nil => simp
  | cons e es ih =>
    rw [List.foldl_cons, ih]
    cases hname : folded.get? e.1 with
    | none => simp [hname]
    | some className => simp [hname, implementsAt_mergeInto, or_assoc]

/-- What is filed under an alias is filed under the class name for it. -/
theorem implementsAt_mapAliases
    {map : Keyed String} (h : o.mapAliases map = .ok mapped) (k : String) :
    implementsAt mapped.byClass k property = true ↔
      implementsAt o.byClass k property = true ∨
        ∃ aliasKey className, (foldedNames map).get? aliasKey = some className ∧
          Text.lowercase className = k ∧ implementsAt o.byAlias aliasKey property = true := by
  unfold mapAliases at h
  split at h
  · cases h
  · cases h
    refine (implementsAt_foldl_mergeInto o.byAlias.entries o.byClass k).trans (or_congr_right ?_)
    unfold implementsAt
    constructor
    · rintro ⟨e, he, className, hname, hk, himplemented⟩
      refine ⟨e.1, className, hname, hk, ?_⟩
      rw [Keyed.mem_entries_iff.1 (show (e.1, e.2) ∈ _ from he)]
      exact himplemented
    · rintro ⟨aliasKey, className, hname, hk, himplemented⟩
      obtain ⟨x, hx, himplemented⟩ := (Option.any_eq_true _ _).1 himplemented
      exact ⟨(aliasKey, x), Keyed.mem_entries_iff.2 hx, className, hname, hk, himplemented⟩

/-! ### The class itself -/

/-- What is filed under the name of a class counts for the class. -/
theorem any_ofClass
    (h : implementsAt o.byClass (Text.lowercase name) property = true) :
    (o.ofClass name).any (·.isImplemented property) = true := by
  obtain ⟨x, hx, himplemented⟩ := (Option.any_eq_true _ _).1 h
  rw [List.any_eq_true]
  exact ⟨x, List.mem_filterMap.2 ⟨Text.lowercase name, Walk.start_mem_nodes _ _ _, hx⟩, himplemented⟩

end ContentTypeOptions

namespace CodeOptions

open ContentTypeOptions PropertyOptions

/-- A property is filed as implemented exactly if a declaration says so. -/
theorem implementsAt_ofDeclarations
    {ds : List Declaration} {key : TypeKey} {property : String} :
    implementsAt ((ofDeclarations ds).contentTypes.tableOf key) key.folded property = true ↔
      ∃ d ∈ ds, NamesImplemented key property d := by
  have hempty : implementsAt (empty.contentTypes.tableOf key) key.folded property = false := by
    cases key <;> rfl
  unfold ofDeclarations
  rw [contentTypes_declareAll]
  refine (foldl_declare_iff (fun o => implementsAt (o.tableOf key) key.folded property = true)
    (fun _ => implementsAt_declare) _).trans ?_
  simp [hempty]

end CodeOptions
end ContentModels

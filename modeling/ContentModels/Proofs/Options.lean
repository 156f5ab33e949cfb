import ContentModels.Options.Declaration
import ContentModels.Proofs.Outcome

/-!
# What declarations give

A class has a constructor in the options exactly if some declaration names it, and a base
class exactly if some declaration gives it one, whatever the case of the letters.  Mapping
aliases to class names leaves what is filed under class names from the start as it is.
-/

namespace ContentModels
namespace ContentTypeOptions

variable {o mapped : ContentTypeOptions} {name base : String}

/-- Mapping aliases changes the options of properties only. -/
theorem mapAliases_eq_ok
    {map : Keyed String}
    (h : o.mapAliases map = .ok mapped) :
    ∃ byClass, mapped = { o with byAlias := .empty, byClass, mapped := true } := by
  unfold mapAliases at h
  split at h
  · cases h
  · cases h
    exact ⟨_, rfl⟩

theorem hasConstructor_mapAliases
    {map : Keyed String}
    (h : o.mapAliases map = .ok mapped) :
    mapped.hasConstructor name = o.hasConstructor name := by
  obtain ⟨_, rfl⟩ := mapAliases_eq_ok h
  rfl

theorem baseClass?_mapAliases
    {map : Keyed String}
    (h : o.mapAliases map = .ok mapped) :
    mapped.baseClass? name = o.baseClass? name := by
  obtain ⟨_, rfl⟩ := mapAliases_eq_ok h
  rfl

/-- A declaration that names the constructor of a class. -/
def NamesConstructor (name : String) (d : Declaration) : Prop :=
  ∃ n, d = .constructor n ∧ Text.lowercase n = Text.lowercase name

/-- A declaration that gives a class a base class. -/
def NamesBase (name : String) (d : Declaration) : Prop :=
  ∃ n b, d = .baseClass n b ∧ Text.lowercase n = Text.lowercase name

theorem hasConstructor_declare
    (d : Declaration) :
    (o.declare d).hasConstructor name = true ↔
      NamesConstructor name d ∨ o.hasConstructor name = true := by
  unfold hasConstructor NamesConstructor
  cases d with
  | constructor n =>
    simp only [declare, TextSet.contains_add, Bool.or_eq_true, beq_iff_eq]
    refine or_congr_left ⟨fun h => ⟨n, rfl, h.symm⟩, ?_⟩
    rintro ⟨_, ⟨⟩, h⟩
    exact h.symm
  | ignoreProperty key | renameProperty key | implementProperty key =>
    cases key <;> simp [declare, updateProperties]
  | _ => simp [declare]

theorem baseClass?_declare
    (d : Declaration) :
    ((o.declare d).baseClass? name).isSome = true ↔
      NamesBase name d ∨ (o.baseClass? name).isSome = true := by
  unfold baseClass? NamesBase
  cases d with
  | baseClass n b =>
    simp only [declare, Keyed.get?_insert]
    split
    · rename_i heq
      simp [heq]
    · rename_i hne
      simp [Ne.symm hne]
  | ignoreProperty key | renameProperty key | implementProperty key =>
    cases key <;> simp [declare, updateProperties]
  | _ => simp [declare]

end ContentTypeOptions

namespace CodeOptions

open ContentTypeOptions

variable {o : CodeOptions} {ds : List Declaration} {name : String}

theorem contentTypes_declare
    (d : Declaration) :
    (o.declare d).contentTypes = o.contentTypes.declare d := by
  cases d <;> rfl

theorem contentTypes_declareAll :
    (o.declareAll ds).contentTypes = ds.foldl ContentTypeOptions.declare o.contentTypes := by
  induction ds generalizing o with
  | nil => rfl
  | cons d ds ih =>
    rw [declareAll, List.foldl_cons, List.foldl_cons, ← contentTypes_declare]
    exact ih

/-- What one declaration can do, some declaration of a list can. -/
theorem foldl_declare_iff
    (p : ContentTypeOptions → Prop) {q : Declaration → Prop}
    (hstep : ∀ o d, p (ContentTypeOptions.declare o d) ↔ q d ∨ p o) (o : ContentTypeOptions) :
    p (ds.foldl ContentTypeOptions.declare o) ↔ (∃ d ∈ ds, q d) ∨ p o := by
  induction ds generalizing o with
  | nil => simp
  | cons d ds ih =>
    rw [List.foldl_cons, ih, hstep]
    simp [or_left_comm, or_assoc]

theorem hasConstructor_ofDeclarations :
    (ofDeclarations ds).contentTypes.hasConstructor name = true ↔
      ∃ d ∈ ds, NamesConstructor name d := by
  have hempty : empty.contentTypes.hasConstructor name = false := rfl
  unfold ofDeclarations
  rw [contentTypes_declareAll]
  refine (foldl_declare_iff (·.hasConstructor name = true)
    (fun _ => hasConstructor_declare) _).trans ?_
  simp [hempty]

theorem baseClass?_ofDeclarations :
    ((ofDeclarations ds).contentTypes.baseClass? name).isSome = true ↔
      ∃ d ∈ ds, NamesBase name d := by
  have hempty : empty.contentTypes.baseClass? name = none := rfl
  unfold ofDeclarations
  rw [contentTypes_declareAll]
  refine (foldl_declare_iff (fun o => (o.baseClass? name).isSome = true)
    (fun _ => baseClass?_declare) _).trans ?_
  simp [hempty]

end CodeOptions
end ContentModels

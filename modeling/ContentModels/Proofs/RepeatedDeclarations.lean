import ContentModels.Proofs.OptionKeys
import ContentModels.Proofs.Tables

/-!
# Declarations that are repeated

Whatever declarations are applied to options, applying all of them once more, in their order,
changes nothing (`declareAll_declareAll`).  This holds although single declarations do undo each
other on the way: the second time, too, an earlier name is set before a later one replaces it.
So the options are looked at part by part.  To each part some of the declarations contribute, and
the others leave it alone (`ActsBy`); what contributes to it either replaces a value, so that the
last contribution stays, or adds to a list what is not there yet, so that nothing is left to add.
-/

namespace ContentModels

/-! ### Steps that are repeated -/

section Settles

variable {σ α δ ε : Type}

/-- Taking the same steps once more, in the same order, changes nothing. -/
def Settles (step : σ → δ → σ) : Prop :=
  ∀ (ds : List δ) (s : σ), ds.foldl step (ds.foldl step s) = ds.foldl step s

/-- A step contributes to a part of a state, or leaves this part alone. -/
def ActsBy (step : σ → δ → σ) (part : σ → α) (contribute : α → ε → α) : Prop :=
  ∀ d, (∀ s, part (step s d) = part s) ∨ ∃ e, ∀ s, part (step s d) = contribute (part s) e

/-- Steps make their contributions to a part in their order. -/
theorem ActsBy.exists_foldl
    {step : σ → δ → σ} {part : σ → α} {contribute : α → ε → α}
    (h : ActsBy step part contribute) (ds : List δ) :
    ∃ es : List ε, ∀ s, part (ds.foldl step s) = es.foldl contribute (part s) := by
  induction ds with
  | nil => exact ⟨[], fun _ => rfl⟩
  | cons d ds ih =>
    obtain ⟨es, hes⟩ := ih
    rcases h d with hkept | ⟨e, he⟩
    · exact ⟨es, fun s => by rw [List.foldl_cons, hes, hkept]⟩
    · exact ⟨e :: es, fun s => by rw [List.foldl_cons, hes, he, List.foldl_cons]⟩

/-- A part settles if what is contributed to it does. -/
theorem Settles.part_eq
    {step : σ → δ → σ} {part : σ → α} {contribute : α → ε → α}
    (hsettles : Settles contribute) (h : ActsBy step part contribute) (ds : List δ) (s : σ) :
    part (ds.foldl step (ds.foldl step s)) = part (ds.foldl step s) := by
  obtain ⟨es, hes⟩ := h.exists_foldl ds
  rw [hes, hes, hsettles]

/-- Of values that replace each other the last one stays. -/
theorem settles_replace :
    Settles fun (_ : Option α) a => some a := by
  intro as s
  rcases List.eq_nil_or_concat as with rfl | ⟨as, a, rfl⟩
  · rfl
  · rw [List.concat_eq_append, List.foldl_append, List.foldl_append]
    rfl

/-- Contributions to a value that may not be there yet start from a given one. -/
theorem Settles.getD
    {contribute : α → ε → α} (h : Settles contribute) (start : α) :
    Settles fun (a : Option α) (e : ε) => some (contribute (a.getD start) e) := by
  have hsome : ∀ (es : List ε) (a : α),
      es.foldl (fun (a : Option α) e => some (contribute (a.getD start) e)) (some a) =
        some (es.foldl contribute a) := by
    intro es
    induction es with
    | nil => exact fun _ => rfl
    | cons e es ih => exact fun a => ih _
  intro es a
  cases es with
  | nil => rfl
  | cons e es =>
    have hfirst : (e :: es).foldl (fun (a : Option α) e => some (contribute (a.getD start) e)) a =
        some ((e :: es).foldl contribute (a.getD start)) := hsome es _
    rw [hfirst, hsome, h]

/-- Entries that a list does not hold are added once. -/
theorem settles_addOnce : Settles addOnce :=
  fun _ _ => foldl_addOnce_of_subset fun _ hname => mem_foldl_addOnce.2 (.inr hname)

end Settles

/-! ### Tables -/

namespace Keyed

variable {α ε : Type} {contribute : α → ε → α}

theorem settles_insert :
    Settles fun (t : Keyed α) (e : String × α) => t.insert e.1 e.2 :=
  fun es t => foldl_insert_idem es t

/-- A step at a key contributes to the value of this key alone. -/
theorem actsBy_update
    (contribute : α → ε → α) (start : α) (k : String) :
    ActsBy (fun (t : Keyed α) (e : String × ε) =>
      t.update e.1 fun old => contribute (old.getD start) e.2) (get? · k)
      fun (a : Option α) e => some (contribute (a.getD start) e) := by
  rintro ⟨j, e⟩
  by_cases hk : k = j
  · exact .inr ⟨e, fun t => (get?_update t j k _).trans (by rw [if_pos hk, hk])⟩
  · exact .inl fun t => (get?_update t j k _).trans (if_neg hk)

/-- A table settles if the values of its keys do. -/
theorem settles_update
    (h : Settles contribute) (start : α) :
    Settles fun (t : Keyed α) (e : String × ε) =>
      t.update e.1 fun old => contribute (old.getD start) e.2 :=
  fun es t => ext_get? fun k => (h.getD start).part_eq (actsBy_update contribute start k) es t

end Keyed

/-! ### Options -/

attribute [ext] PropertyOptions ContentTypeOptions CodeOptions

namespace PropertyOptions

/-- What a declaration says about a property, whatever the content type. -/
def declare (o : PropertyOptions) : Declaration → PropertyOptions
  | .ignoreProperty _ pattern => { o with ignored := o.ignored.add (Text.lowercase pattern) }
  | .renameProperty _ property name =>
    { o with names := o.names.insert (Text.lowercase property) name }
  | .implementProperty _ property =>
    { o with implemented := o.implemented.add (Text.lowercase property) }
  | _ => o

theorem settles_declare : Settles declare := by
  refine fun ds o => PropertyOptions.ext ?_ ?_ ?_
  · refine Keyed.settles_insert.part_eq (fun d => ?_) ds o
    cases d with
    | ignoreProperty _ pattern => exact .inr ⟨(Text.lowercase pattern, ()), fun _ => rfl⟩
    | _ => exact .inl fun _ => rfl
  · refine Keyed.settles_insert.part_eq (fun d => ?_) ds o
    cases d with
    | renameProperty _ property name =>
      exact .inr ⟨(Text.lowercase property, name), fun _ => rfl⟩
    | _ => exact .inl fun _ => rfl
  · refine Keyed.settles_insert.part_eq (fun d => ?_) ds o
    cases d with
    | implementProperty _ property => exact .inr ⟨(Text.lowercase property, ()), fun _ => rfl⟩
    | _ => exact .inl fun _ => rfl

end PropertyOptions

namespace ContentTypeOptions

/-- The content type about whose properties a declaration says something. -/
def propertyKey? : Declaration → Option TypeKey
  | .ignoreProperty key _ | .renameProperty key _ _ | .implementProperty key _ => some key
  | _ => none

/-- What is said about properties changes the options that are filed under the key. -/
theorem declare_of_propertyKey?
    {d : Declaration} {key : TypeKey} (h : propertyKey? d = some key) (o : ContentTypeOptions) :
    o.declare d = o.updateProperties key fun p => p.declare d := by
  cases d <;> cases h <;> rfl

theorem declare_of_propertyKey?_eq_none
    {d : Declaration} (h : propertyKey? d = none) (o : ContentTypeOptions) :
    (o.declare d).byAlias = o.byAlias ∧ (o.declare d).byClass = o.byClass := by
  cases d with
  | ignoreProperty | renameProperty | implementProperty => cases h
  | _ => exact ⟨rfl, rfl⟩

theorem settles_byAlias
    (ds : List Declaration) (o : ContentTypeOptions) :
    (ds.foldl declare (ds.foldl declare o)).byAlias = (ds.foldl declare o).byAlias := by
  refine (Keyed.settles_update PropertyOptions.settles_declare .empty).part_eq (fun d => ?_) ds o
  cases hkey : propertyKey? d with
  | none => exact .inl fun o => (declare_of_propertyKey?_eq_none hkey o).1
  | some key =>
    cases key with
    | typeAlias aliasName =>
      exact .inr ⟨(Text.lowercase aliasName, d), fun o =>
        congrArg byAlias (declare_of_propertyKey? hkey o)⟩
    | className name =>
      exact .inl fun o => (congrArg byAlias (declare_of_propertyKey? hkey o)).trans rfl

theorem settles_byClass
    (ds : List Declaration) (o : ContentTypeOptions) :
    (ds.foldl declare (ds.foldl declare o)).byClass = (ds.foldl declare o).byClass := by
  refine (Keyed.settles_update PropertyOptions.settles_declare .empty).part_eq (fun d => ?_) ds o
  cases hkey : propertyKey? d with
  | none => exact .inl fun o => (declare_of_propertyKey?_eq_none hkey o).2
  | some key =>
    cases key with
    | typeAlias aliasName =>
      exact .inl fun o => (congrArg byClass (declare_of_propertyKey? hkey o)).trans rfl
    | className name =>
      exact .inr ⟨(Text.lowercase name, d), fun o =>
        congrArg byClass (declare_of_propertyKey? hkey o)⟩

theorem settles_declare : Settles declare := by
  refine fun ds o => ContentTypeOptions.ext ?_ ?_ (settles_byAlias ds o) (settles_byClass ds o)
    ?_ ?_ ?_ ?_
  · refine Keyed.settles_insert.part_eq (fun d => ?_) ds o
    cases d with
    | ignoreType pattern => exact .inr ⟨(Text.lowercase pattern, ()), fun _ => rfl⟩
    | ignoreProperty key | renameProperty key | implementProperty key =>
      cases key <;> exact .inl fun _ => rfl
    | _ => exact .inl fun _ => rfl
  · refine Keyed.settles_insert.part_eq (fun d => ?_) ds o
    cases d with
    | renameType aliasName name => exact .inr ⟨(Text.lowercase aliasName, name), fun _ => rfl⟩
    | ignoreProperty key | renameProperty key | implementProperty key =>
      cases key <;> exact .inl fun _ => rfl
    | _ => exact .inl fun _ => rfl
  · refine Keyed.settles_insert.part_eq (fun d => ?_) ds o
    cases d with
    | baseClass className base => exact .inr ⟨(Text.lowercase className, base), fun _ => rfl⟩
    | ignoreProperty key | renameProperty key | implementProperty key =>
      cases key <;> exact .inl fun _ => rfl
    | _ => exact .inl fun _ => rfl
  · refine (Keyed.settles_update settles_addOnce []).part_eq (fun d => ?_) ds o
    cases d with
    | interface className interface =>
      exact .inr ⟨(Text.lowercase className, interface), fun _ => rfl⟩
    | ignoreProperty key | renameProperty key | implementProperty key =>
      cases key <;> exact .inl fun _ => rfl
    | _ => exact .inl fun _ => rfl
  · refine Keyed.settles_insert.part_eq (fun d => ?_) ds o
    cases d with
    | constructor className => exact .inr ⟨(Text.lowercase className, ()), fun _ => rfl⟩
    | ignoreProperty key | renameProperty key | implementProperty key =>
      cases key <;> exact .inl fun _ => rfl
    | _ => exact .inl fun _ => rfl
  · rw [mapped_foldl_declare]

end ContentTypeOptions

namespace CodeOptions

theorem settles_declare : Settles declare := by
  refine fun ds o => CodeOptions.ext ?_ ?_ ?_ ?_
  · refine settles_replace.part_eq (fun d => ?_) ds o
    cases d with
    | modelsNamespace name => exact .inr ⟨name, fun _ => rfl⟩
    | _ => exact .inl fun _ => rfl
  · refine settles_addOnce.part_eq (fun d => ?_) ds o
    cases d with
    | useNamespace name => exact .inr ⟨name, fun _ => rfl⟩
    | _ => exact .inl fun _ => rfl
  · refine settles_replace.part_eq (fun d => ?_) ds o
    cases d with
    | modelsBaseClass name => exact .inr ⟨name, fun _ => rfl⟩
    | _ => exact .inl fun _ => rfl
  · refine ContentTypeOptions.settles_declare.part_eq (fun d => ?_) ds o
    exact .inr ⟨d, fun o => contentTypes_declare d⟩

/-- Declarations that are applied once more change nothing. -/
theorem declareAll_declareAll
    (o : CodeOptions) (ds : List Declaration) :
    (o.declareAll ds).declareAll ds = o.declareAll ds :=
  settles_declare ds o

/-- The last of two names stays, and interfaces in the order in which they were declared first. -/
example :
    let ds := [Declaration.renameType "page" "A", .interface "Page" "IB", .renameType "Page" "B",
      .interface "PAGE" "IA", .interface "Page" "IB"]
    let o := (CodeOptions.ofDeclarations ds).declareAll ds
    o.contentTypes.className? "page" = some "B" ∧
      o.contentTypes.interfacesOf "page" = ["IB", "IA"] := by
  decide +kernel

end CodeOptions
end ContentModels

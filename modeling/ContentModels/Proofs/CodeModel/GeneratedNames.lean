import ContentModels.Proofs.CodeModel.Build

/-!
# Names of generated types

The classes of a code model, the interfaces of its mixins and its classes of extension methods
have names that differ by more than letter case, whatever options rename.  So a name belongs to
one generated type, and to one model.
-/

namespace ContentModels

namespace CodeModel

variable {settings : Settings} {strategies : Strategies} {schema : List ContentType}
  {options : CodeOptions} {m : CodeModel} {t u : Model}

/-- All generated types have names that differ by more than letter case. -/
theorem nodup_lowercase_generated
    (h : build settings strategies schema options = .ok m) :
    ((m.models.flatMap fun t =>
      TypeNames.generated settings.propertyStyle t.toNamedType).map Text.lowercase).Nodup := by
  obtain ⟨linked, named, mapped, propertied, hbuilt⟩ := exists_built h
  have hnodup := (TypeNames.assignAll_eq_ok_iff.1 hbuilt.names).2.2
  rwa [← hbuilt.models_toNamedType, List.flatMap_map] at hnodup

/-- All generated types have different names. -/
theorem nodup_generated
    (h : build settings strategies schema options = .ok m) :
    (m.models.flatMap fun t => TypeNames.generated settings.propertyStyle t.toNamedType).Nodup :=
  (nodup_lowercase_generated h).of_map

theorem sublist_generated
    (style : PropertyStyle) (models : List Model) :
    (models.map (·.name)).Sublist
      (models.flatMap fun t => TypeNames.generated style t.toNamedType) := by
  have hclass : ∀ t : Model, [t.name].Sublist (TypeNames.generated style t.toNamedType) := by
    intro t
    unfold TypeNames.generated
    rw [List.append_assoc]
    exact List.sublist_append_left _ _
  induction models with
  | nil => exact .slnil
  | cons t models ih =>
    rw [List.map_cons, List.flatMap_cons]
    exact (hclass t).append ih

/-- No two models have the same name. -/
theorem nodup_names
    (h : build settings strategies schema options = .ok m) :
    (m.models.map (·.name)).Nodup :=
  (nodup_generated h).sublist (sublist_generated _ _)

/-- A name belongs to the types of one model. -/
theorem eq_of_mem_generated
    (h : build settings strategies schema options = .ok m) (ht : t ∈ m.models) (hu : u ∈ m.models)
    {name : String} (hname : name ∈ TypeNames.generated settings.propertyStyle t.toNamedType)
    (hname' : name ∈ TypeNames.generated settings.propertyStyle u.toNamedType) :
    t = u := by
  obtain ⟨-, hdisjoint⟩ := List.nodup_flatMap.1 (nodup_generated h)
  by_contra hne
  have hsymm : Std.Symm (Function.onFun List.Disjoint fun t : Model =>
      TypeNames.generated settings.propertyStyle t.toNamedType) := ⟨fun _ _ hd => hd.symm⟩
  exact hdisjoint.forall ht hu hne hname hname'

theorem nodup_generated_of_mem
    (h : build settings strategies schema options = .ok m) (ht : t ∈ m.models) :
    (TypeNames.generated settings.propertyStyle t.toNamedType).Nodup :=
  (List.nodup_flatMap.1 (nodup_generated h)).1 t ht

end CodeModel
end ContentModels

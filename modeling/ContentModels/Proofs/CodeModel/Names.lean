import ContentModels.Proofs.CodeModel.Build

/-!
# What models are made of

The models of a code model are content types of the schema, with their properties.  Their
classes have names that are usable, and so have all properties that are not left out.  By the
standard choice a class is derived from the class of its parent or from a base class that is
configured or declared for all models.
-/

namespace ContentModels

open Outcome

namespace Hierarchy

/-- A type that takes part is one of those that were linked. -/
theorem exists_of_mem_participants
    {isIgnored : String → Bool} {types : List Schema.LinkedType} {p : Participant}
    (h : p ∈ participants isIgnored types) :
    ∃ t ∈ types, p.type = t.type := by
  obtain ⟨k, hk⟩ := List.mem_iff_getElem?.1 h
  rw [getElem?_participants, getElem?_placed, Option.map_eq_some_iff] at hk
  obtain ⟨q, hq, rfl⟩ := hk
  obtain ⟨i, -, hq⟩ := Option.bind_eq_some_iff.1 hq
  obtain ⟨t, ht, rfl⟩ := Option.map_eq_some_iff.1 hq
  exact ⟨t, List.mem_of_getElem? ht, rfl⟩

end Hierarchy

namespace Schema

/-- Linking keeps the content types. -/
theorem map_type_of_link
    {schema : List ContentType} {linked : List LinkedType}
    (h : link schema = .ok linked) :
    linked.map (·.type) = schema := by
  obtain ⟨linked', hmap, h⟩ := bind_eq_ok.1 h
  split at h
  · cases h
  · cases h
    have hkeep : ∀ t u, linkType schema t = .ok u → u.type = t := by
      intro t u hu
      obtain ⟨_, -, hu⟩ := bind_eq_ok.1 hu
      obtain ⟨_, -, hu⟩ := bind_eq_ok.1 hu
      cases hu
      rfl
    rw [map_of_mapM hkeep hmap, List.map_id']

end Schema

/-- A type that takes part is one of the schema. -/
theorem Hierarchy.type_mem_of_participant
    {isIgnored : String → Bool} {schema : List ContentType} {linked : List Schema.LinkedType}
    {p : Participant} (h : Schema.link schema = .ok linked)
    (hp : p ∈ participants isIgnored linked) :
    p.type ∈ schema := by
  obtain ⟨u, hu, htype⟩ := exists_of_mem_participants hp
  rw [htype, ← Schema.map_type_of_link h]
  exact List.mem_map_of_mem hu

namespace Properties

/-- What is planned for a property. -/
theorem property_eq_ok
    {plan : Plan} {options : List PropertyOptions} {t : ContentType} {p : PropertyType}
    {q : ModelProperty}
    (h : property plan options t p = .ok q) :
    q.type = p ∧ q.state = state options p.aliasName (!plan.strategies.includes t p) ∧
      (q.state ≠ .ignored → Naming.isValid q.name = true) := by
  simp only [property] at h
  split at h
  · obtain ⟨hvalid, h⟩ := then_eq_ok.1 h
    cases h
    exact ⟨rfl, rfl, fun _ => Naming.validate_eq_ok_iff.1 hvalid⟩
  · rename_i hstate
    cases h
    exact ⟨rfl, rfl, fun h => absurd h (by simpa using hstate)⟩

end Properties

namespace CodeModel

variable {settings : Settings} {strategies : Strategies} {schema : List ContentType}
  {options : CodeOptions} {m : CodeModel} {linked : List Schema.LinkedType}
  {named : List NamedType} {mapped : ContentTypeOptions} {propertied : List PropertiedType}
  {models : List Model} {t : Model} {p : ModelProperty}

/-- A type that has a name is one of the schema. -/
theorem Named.type_mem
    {u : NamedType} (h : Named settings strategies schema options linked named) (hu : u ∈ named) :
    u.type ∈ schema := by
  rw [h.named_eq] at hu
  obtain ⟨p, hp, rfl⟩ := List.mem_map.1 hu
  exact Hierarchy.type_mem_of_participant h.link hp

namespace Planned

theorem type_mem
    (h : Planned settings strategies schema options linked named mapped propertied models)
    (ht : t ∈ models) :
    t.type ∈ schema := by
  have hmem : t.toNamedType ∈ models.map (·.toNamedType) := List.mem_map_of_mem ht
  rw [h.models_toNamedType] at hmem
  exact h.toNamed.type_mem hmem

theorem exists_withName
    (h : Planned settings strategies schema options linked named mapped propertied models)
    (ht : t ∈ models) :
    ∃ p ∈ Hierarchy.participants options.contentTypes.isIgnored linked,
      t.toNamedType = TypeNames.withName strategies options.contentTypes p := by
  have hmem : t.toNamedType ∈ models.map (·.toNamedType) := List.mem_map_of_mem ht
  rw [h.models_toNamedType, h.named_eq] at hmem
  obtain ⟨p, hp, heq⟩ := List.mem_map.1 hmem
  exact ⟨p, hp, heq.symm⟩

/-- The name of a class comes from its content type. -/
theorem name_eq
    (h : Planned settings strategies schema options linked named mapped propertied models)
    (ht : t ∈ models) :
    t.name = TypeNames.nameOf strategies options.contentTypes t.type := by
  obtain ⟨p, -, heq⟩ := h.exists_withName ht
  rw [show t.type = p.type from congrArg (·.type) heq]
  exact congrArg (·.name) heq

theorem isValid_name
    (h : Planned settings strategies schema options linked named mapped propertied models)
    (ht : t ∈ models) :
    Naming.isValid t.name = true := by
  obtain ⟨p, hp, heq⟩ := h.exists_withName ht
  rw [show t.name = TypeNames.nameOf strategies options.contentTypes p.type from
    congrArg (·.name) heq]
  exact (TypeNames.assignAll_eq_ok_iff.1 h.names).2.1 p hp

/-- The properties of a model are those of its content type, as they are planned. -/
theorem mapM_property
    (h : Planned settings strategies schema options linked named mapped propertied models)
    (ht : t ∈ models) :
    t.type.properties.mapM (Properties.property
      (planOf settings strategies options.contentTypes.isIgnored linked named mapped)
      (mapped.ofClass t.name) t.type) = .ok t.properties := by
  have hmem : t.toPropertiedType ∈ propertied := by
    rw [← h.models_toPropertiedType]
    exact List.mem_map_of_mem ht
  obtain ⟨i, hi⟩ := List.mem_iff_getElem?.1 hmem
  obtain ⟨u, -, hown⟩ := exists_of_mapM h.properties hi
  obtain ⟨rfl, hproperties⟩ := own_eq_ok hown
  exact hproperties

end Planned

namespace Built

theorem property_type_mem
    (h : Built settings strategies schema options linked named mapped propertied m)
    (ht : t ∈ m.models) (hp : p ∈ t.properties) :
    p.type ∈ t.type.properties := by
  obtain ⟨i, hi⟩ := List.mem_iff_getElem?.1 hp
  obtain ⟨q, hq, hproperty⟩ := exists_of_mapM (h.mapM_property ht) hi
  rw [(Properties.property_eq_ok hproperty).1]
  exact List.mem_of_getElem? hq

theorem isValid_property
    (h : Built settings strategies schema options linked named mapped propertied m)
    (ht : t ∈ m.models) (hp : p ∈ t.ownProperties) :
    Naming.isValid p.name = true := by
  obtain ⟨hp, hstate⟩ := List.mem_filter.1 hp
  obtain ⟨i, hi⟩ := List.mem_iff_getElem?.1 hp
  obtain ⟨q, -, hproperty⟩ := exists_of_mapM (h.mapM_property ht) hi
  exact (Properties.property_eq_ok hproperty).2.2 (by simpa using hstate)

/-- By the standard choice the base class of a model is generated, configured or declared for all. -/
theorem of_baseClass
    (h : Built settings strategies schema options linked named mapped propertied m)
    (hstrategies : strategies.baseClass = BaseClassQuery.standard) (ht : t ∈ m.models)
    {base : String} (hbase : t.baseClass = some base) :
    (∃ u ∈ m.models, u.name = base) ∨ base = settings.elementBaseClass ∨
      base = options.modelsBaseClass.getD settings.contentBaseClass := by
  obtain ⟨i, hi⟩ := List.mem_iff_getElem?.1 ht
  have heq := congrArg Model.baseClass (h.model_eq hi).2
  rw [hbase] at heq
  simp only [Inheritance.complete, planOf, hstrategies, BaseClassQuery.standard] at heq
  split at heq
  · cases heq
  · rename_i parent _ hparent
    obtain rfl := Option.some.inj heq
    obtain ⟨j, -, hj⟩ := Option.bind_eq_some_iff.1 hparent
    obtain ⟨u, hu, rfl⟩ := Option.map_eq_some_iff.1 hj
    rw [← h.models_toPropertiedType, List.getElem?_map, Option.map_eq_some_iff] at hu
    obtain ⟨v, hv, rfl⟩ := hu
    exact .inl ⟨v, List.mem_of_getElem? hv, rfl⟩
  · split at heq
    · exact .inr (.inl (Option.some.inj heq))
    · exact .inr (.inr (Option.some.inj heq))

end Built
end CodeModel
end ContentModels

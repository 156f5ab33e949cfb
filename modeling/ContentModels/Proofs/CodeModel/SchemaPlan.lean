import ContentModels.Proofs.CodeModel.Outline
import Mathlib.Order.Bounds.Defs

/-!
# Plans of schemas

A code model has a model for each content type that takes part, in the order of the schema.  The
positions that a model keeps are those of the models of its parent and of what it mixes in, so
what a model descends from is all that its content type descends from.  The mixins are no more
than what is mixed in and what that descends from (`plansSchema`).
-/

namespace ContentModels

open Relation Walk

namespace CodeModel

variable {settings : Settings} {strategies : Strategies} {schema : List ContentType}
  {options : CodeOptions} {m : CodeModel}

/-- The content type of the model at a position. -/
def typeAt (m : CodeModel) (i : Nat) : Option ContentType :=
  m.models[i]?.map (·.type)

theorem isSome_typeAt
    {i : Nat} (h : i < m.models.length) :
    (m.typeAt i).isSome = true := by
  simp [typeAt, h]

/-- Positions of models that hold all that is mixed in, and with a type what it descends from. -/
def MixinsClosed (m : CodeModel) (positions : Set Nat) : Prop :=
  (∀ t ∈ m.models, ∀ i ∈ t.mixins, i ∈ positions) ∧
    ∀ i ∈ positions, ∀ j, IsChild m.models i j → j ∈ positions

/-- A code model is what a schema asks for when some aliases are ignored. -/
structure PlansSchema (isIgnored : String → Bool) (schema : List ContentType) (m : CodeModel) :
    Prop where
  types : m.models.map (·.type) = Schema.takingPart isIgnored schema
  /-- The position of a parent is that of the model of the content type's parent. -/
  parent : ∀ t ∈ m.models, t.parent.map m.typeAt = (Schema.parentOf schema t.type).map some
  ancestors : ∀ i t, m.typeAt i = some t → ∀ u, TransGen (Follows (Schema.parentOf schema)) t u ↔
    ∃ j, TransGen (IsChild m.models) i j ∧ m.typeAt j = some u
  mixins : ∀ t ∈ m.models,
    t.mixins.map m.typeAt = (Schema.mixinsOf isIgnored schema t.type).map some
  isMixin : IsLeast {positions | m.MixinsClosed positions}
    {i | ∃ t, m.models[i]? = some t ∧ t.isMixin = true}

namespace Built

variable {linked : List Schema.LinkedType} {named : List NamedType} {mapped : ContentTypeOptions}
  {propertied : List PropertiedType}

/-- The models descend from each other as their content types do. -/
theorem standsFor_isChild
    (h : Built settings strategies schema options linked named mapped propertied m) :
    StandsFor m.typeAt (IsChild m.models) (Follows (Schema.parentOf schema)) := by
  have hparents := h.reflects.standsFor_parent
  rw [follows_parentAt] at hparents
  have htype : (fun i => (Schema.takingPart options.contentTypes.isIgnored schema)[i]?) =
      m.typeAt := funext h.getElem?_takingPart
  rwa [htype] at hparents

/-- The mixins are the smallest set that what is mixed in calls for. -/
theorem isLeast_mixins
    (h : Built settings strategies schema options linked named mapped propertied m) :
    IsLeast {positions | m.MixinsClosed positions}
      {i | ∃ t, m.models[i]? = some t ∧ t.isMixin = true} := by
  have hwell := h.wellFormed
  refine ⟨⟨fun t ht i hi => ?_, fun i hi j hchild => ?_⟩, fun positions hclosed i hi => ?_⟩
  · exact isMixinAt_iff.1 (hwell.isMixinAt_of_mixin (p := t.toParticipant) (List.mem_map_of_mem ht) hi)
  · rw [← follows_parentAt] at hchild
    exact isMixinAt_iff.1 (hwell.isMixinAt_of_parent (isMixinAt_iff.2 hi) hchild)
  · obtain ⟨p, hp, hmixin⟩ := isMixinAt_iff.2 hi
    obtain ⟨u, hu, k, hk, hpath⟩ := (hwell.isMixin_iff hp).1 hmixin
    obtain ⟨t, ht, rfl⟩ := List.mem_map.1 hu
    rw [follows_parentAt] at hpath
    clear hp hmixin hi
    induction hpath with
    | refl => exact hclosed.1 t ht k hk
    | tail _ hchild ih => exact hclosed.2 _ ih _ hchild

end Built

/-- What a code model is built from is what its schema asks for. -/
theorem plansSchema
    (h : build settings strategies schema options = .ok m) :
    m.PlansSchema options.contentTypes.isIgnored schema := by
  obtain ⟨linked, named, mapped, propertied, hbuilt⟩ := exists_built h
  have htype : (fun i => (Schema.takingPart options.contentTypes.isIgnored schema)[i]?) =
      m.typeAt := funext hbuilt.getElem?_takingPart
  have hstands := hbuilt.standsFor_isChild
  refine ⟨hbuilt.map_type, fun t ht => ?_, fun i t hi u => ⟨fun hu => ?_, ?_⟩, fun t ht => ?_,
    hbuilt.isLeast_mixins⟩
  · have hparent := hbuilt.bind_parent ht
    rw [htype] at hparent
    rw [← hparent]
    cases hp : t.parent with
    | none => rfl
    | some p =>
      obtain ⟨i, hi⟩ := List.mem_iff_getElem?.1 ht
      have hlt : p < (m.models.map (·.toParticipant)).length := by
        refine hbuilt.wellFormed.parent_lt (i := i) ?_
        rw [Hierarchy.parentAt, List.getElem?_map, hi]
        exact hp
      rw [List.length_map] at hlt
      obtain ⟨u, hu⟩ := Option.isSome_iff_exists.1 (isSome_typeAt hlt)
      simp [hu]
  · obtain ⟨j, hj, -⟩ := hstands.exists_backward hi hu.to_reflTransGen
    exact ⟨j, (hstands.transGen_iff hi hj).2 hu, hj⟩
  · rintro ⟨j, hj, hu⟩
    exact (hstands.transGen_iff hi hu).1 hj
  · have hmixins := hbuilt.filterMap_mixins ht
    rw [htype] at hmixins
    refine map_eq_of_filterMap (fun k hk => isSome_typeAt ?_) hmixins
    have hlt := hbuilt.wellFormed.mixin_lt t.toParticipant (List.mem_map_of_mem ht) k hk
    rwa [List.length_map] at hlt

/-- Pages are ignored here, and news with them; what is left is mixed into each other. -/
theorem plansSchema_news :
    ∃ m, build .standard (.standard .standard) newsSchema
        (.ofDeclarations [.ignoreType "PAG*"]) = .ok m ∧
      m.models.map (fun t : Model => (t.type.aliasName, t.mixins, t.isMixin)) =
        [("seo", [1], true), ("meta", [0], true)] ∧
      m.PlansSchema (CodeOptions.ofDeclarations [.ignoreType "PAG*"]).contentTypes.isIgnored
        newsSchema := by
  obtain ⟨m, hm, hmodels⟩ := @Outcome.exists_of_toOption_map _ _ _
    (build .standard (.standard .standard) newsSchema (.ofDeclarations [.ignoreType "PAG*"]))
    (fun m => m.models.map fun t : Model => (t.type.aliasName, t.mixins, t.isMixin))
    [("seo", [1], true), ("meta", [0], true)] (by decide +kernel)
  exact ⟨m, hm, hmodels, plansSchema hm⟩

end CodeModel
end ContentModels

import ContentModels.Proofs.CodeModel.References
import ContentModels.Proofs.CodeModel.TakingPart

/-!
# Outlines of models

Models refer to each other by their positions.  The outline of a model says the same without
positions: what the model is, and of which content types its parent and its mixins are the
models.  An outline depends on the relatives of the content type in the schema and on nothing
else of the schema (`outline_eq`), and the properties that a class has from mixins are those of
the content types that its own one introduces, in their order (`mixedViews_eq`).
-/

namespace ContentModels

/-- A model, without positions and without the properties of mixins. -/
structure Outline where
  type : ContentType
  name : String
  isMixin : Bool
  properties : List ModelProperty
  /-- The content type of the parent. -/
  parent : Option ContentType
  /-- The content types of the mixins. -/
  mixins : List ContentType
  baseClass : Option String
  declaredBase : Option String
  interfaces : List String
  interfaceBases : List String
  omitsConstructor : Bool
deriving DecidableEq, Repr

/-- A property that a class has from a mixin, without positions. -/
structure MixedView where
  /-- The content type of the mixin. -/
  mixin : ContentType
  /-- The class of the mixin. -/
  className : String
  /-- The property as the mixin has it. -/
  property : ModelProperty
  state : PropertyState
deriving DecidableEq, Repr

namespace Model

/-- What a model is among other models. -/
def outline (models : List Model) (t : Model) : Outline where
  type := t.type
  name := t.name
  isMixin := t.isMixin
  properties := t.properties
  parent := t.parent.bind fun p => models[p]?.map (·.type)
  mixins := t.mixins.filterMap fun m => models[m]?.map (·.type)
  baseClass := t.baseClass
  declaredBase := t.declaredBase
  interfaces := t.interfaces
  interfaceBases := t.interfaceBases
  omitsConstructor := t.omitsConstructor

/-- The properties that a model has from its mixins. -/
def mixedViews (models : List Model) (t : Model) : List MixedView :=
  t.mixedProperties.filterMap fun x =>
    models[x.mixin]?.bind fun u =>
      u.properties[x.property]?.map fun p => ⟨u.type, u.name, p, x.state⟩

end Model

/-- What a type is related to is the same in two schemas. -/
structure Schema.SameRelatives (isIgnored : String → Bool) (types types' : List ContentType)
    (t : ContentType) : Prop where
  parent : parentOf types' t = parentOf types t
  mixins : mixinsOf isIgnored types' t = mixinsOf isIgnored types t
  isMixedIn : IsMixedIn isIgnored types' t ↔ IsMixedIn isIgnored types t
  introduces : ∀ u, Introduces isIgnored types' t u ↔ Introduces isIgnored types t u

namespace CodeModel.Planned

open Hierarchy Inheritance Outcome Schema

variable {settings : Settings} {strategies : Strategies} {schema : List ContentType}
  {options : CodeOptions} {linked : List LinkedType} {named : List NamedType}
  {mapped : ContentTypeOptions} {propertied : List PropertiedType} {models : List Model}
  {t : Model} {i : Nat}

section

variable (h : Planned settings strategies schema options linked named mapped propertied models)
include h

/-- The models are in the places of the content types that take part. -/
theorem reflects :
    Hierarchy.Reflects options.contentTypes.isIgnored schema (models.map (·.toParticipant)) := by
  rw [h.models_toParticipant]
  exact reflects_participants (reflects_of_link h.valid h.link)

theorem map_type :
    models.map (·.type) = takingPart options.contentTypes.isIgnored schema := by
  rw [← h.reflects.map_type, List.map_map]
  rfl

theorem getElem?_takingPart
    (i : Nat) :
    (takingPart options.contentTypes.isIgnored schema)[i]? = models[i]?.map (·.type) := by
  rw [← h.map_type, List.getElem?_map]

/-- A class that stands at a position has the name for the content type there. -/
theorem getElem?_name
    (i : Nat) :
    propertied[i]?.map (·.name) =
      (takingPart options.contentTypes.isIgnored schema)[i]?.map
        (TypeNames.nameOf strategies options.contentTypes) := by
  rw [h.getElem?_takingPart, ← h.models_toPropertiedType, List.getElem?_map, Option.map_map,
    Option.map_map]
  cases hu : models[i]? with
  | none => rfl
  | some u => exact congrArg some (h.name_eq (List.mem_of_getElem? hu))

theorem bind_parent
    (ht : t ∈ models) :
    t.parent.bind ((takingPart options.contentTypes.isIgnored schema)[·]?) =
      parentOf schema t.type :=
  h.reflects.parent t.toParticipant (List.mem_map_of_mem ht)

theorem filterMap_mixins
    (ht : t ∈ models) :
    t.mixins.filterMap ((takingPart options.contentTypes.isIgnored schema)[·]?) =
      mixinsOf options.contentTypes.isIgnored schema t.type :=
  h.reflects.mixins t.toParticipant (List.mem_map_of_mem ht)

theorem isMixin_iff
    (ht : t ∈ models) :
    t.isMixin = true ↔ IsMixedIn options.contentTypes.isIgnored schema t.type := by
  obtain ⟨i, hi⟩ := List.mem_iff_getElem?.1 ht
  refine h.reflects.isMixin_iff (i := i) (p := t.toParticipant) ?_
  rw [List.getElem?_map, hi]
  rfl

theorem parentName_eq
    (ht : t ∈ models) :
    (t.parent.bind fun p => propertied[p]?.map (·.name)) =
      (parentOf schema t.type).map (TypeNames.nameOf strategies options.contentTypes) := by
  rw [← h.bind_parent ht, Option.map_bind]
  congr 1
  funext p
  exact h.getElem?_name p

theorem mixinInterfaces_eq
    (ht : t ∈ models) :
    mixinInterfaces propertied t.toPropertiedType =
      (mixinsOf options.contentTypes.isIgnored schema t.type).map fun u =>
        "I" ++ TypeNames.nameOf strategies options.contentTypes u := by
  rw [← h.filterMap_mixins ht, List.map_filterMap]
  refine List.filterMap_congr fun m _ => ?_
  have hname := congrArg (Option.map ("I" ++ ·)) (h.getElem?_name m)
  rwa [Option.map_map, Option.map_map] at hname

theorem parentInterface_eq
    (ht : t ∈ models) :
    parentInterface propertied t.toPropertiedType =
      (parentOf schema t.type).map fun u =>
        "I" ++ TypeNames.nameOf strategies options.contentTypes u := by
  have hname := congrArg (Option.map ("I" ++ ·)) (h.parentName_eq ht)
  rw [Option.map_map, Option.map_bind] at hname
  rw [show (fun u => "I" ++ TypeNames.nameOf strategies options.contentTypes u) =
    (("I" ++ ·) ∘ TypeNames.nameOf strategies options.contentTypes) from rfl, ← hname]
  unfold parentInterface
  congr 1
  funext p
  simp only [Function.comp_apply, Option.map_map]
  rfl

/-- The properties of the mixin at a position, as a class has them. -/
theorem filterMap_properties
    {P : ContentType → List ModelProperty} (hP : ∀ u ∈ models, u.properties = P u.type)
    {m : Nat} {u : Model} (hu : models[m]? = some u) (state : ModelProperty → PropertyState) :
    ((((propertied[m]?.map (·.properties)).getD []).zipIdx.map fun x : ModelProperty × Nat =>
        (⟨m, x.2, state x.1⟩ : MixedProperty)).filterMap fun x =>
          models[x.mixin]?.bind fun u =>
            u.properties[x.property]?.map fun p => (⟨u.type, u.name, p, x.state⟩ : MixedView)) =
      (P u.type).map fun p => {
        mixin := u.type
        className := TypeNames.nameOf strategies options.contentTypes u.type
        property := p
        state := state p } := by
  have hmem := List.mem_of_getElem? hu
  have hproperties : (propertied[m]?.map (·.properties)).getD [] = u.properties := by
    rw [(h.model_eq hu).1]
    rfl
  rw [hproperties, List.filterMap_map, ← hP u hmem, ← h.name_eq hmem]
  simp only [Function.comp_def, hu, Option.bind_some]
  exact filterMap_zipIdx_getElem? _ fun p q => (⟨u.type, u.name, q, state p⟩ : MixedView)

/-- What a class has from its mixins comes from what its content type introduces. -/
theorem mixedViews_eq
    {P : ContentType → List ModelProperty} (hP : ∀ u ∈ models, u.properties = P u.type)
    (ht : t ∈ models) :
    t.mixedViews models =
      (introducedBy options.contentTypes.isIgnored schema t.type).flatMap fun u =>
        (P u).map fun p => {
          mixin := u
          className := TypeNames.nameOf strategies options.contentTypes u
          property := p
          state := Properties.state (mapped.ofClass t.name) p.type.aliasName
            (p.state == .ignored) } := by
  obtain ⟨i, hi⟩ := List.mem_iff_getElem?.1 ht
  have hp : (models.map (·.toParticipant))[i]? = some t.toParticipant := by
    rw [List.getElem?_map, hi]
    rfl
  have hmixed : t.mixedProperties = Properties.mixed
      (planOf settings strategies options.contentTypes.isIgnored linked named mapped)
      propertied i t.toPropertiedType :=
    congrArg Model.mixedProperties (h.model_eq hi).2
  rw [show t.type = t.toParticipant.type from rfl, ← h.reflects.filterMap_introduced hp,
    flatMap_filterMap]
  unfold Model.mixedViews
  rw [hmixed]
  unfold Properties.mixed
  rw [List.filterMap_flatMap, h.propertied_toParticipant]
  refine flatMap_congr fun m hm => ?_
  have hlt := (Hierarchy.mem_introduced_iff.1 hm).1
  rw [List.length_map] at hlt
  have hu := List.getElem?_eq_getElem hlt
  rw [h.getElem?_takingPart, hu]
  exact h.filterMap_properties hP hu fun p =>
    Properties.state (mapped.ofClass t.name) p.type.aliasName (p.state == .ignored)

/-- The content types of the parent and the mixins of a model are those of its content type. -/
theorem outline_relatives
    (ht : t ∈ models) :
    (t.outline models).parent = parentOf schema t.type ∧
      (t.outline models).mixins =
        mixinsOf options.contentTypes.isIgnored schema t.type := by
  rw [← h.bind_parent ht, ← h.filterMap_mixins ht]
  unfold Model.outline
  exact ⟨Option.bind_congr fun p _ => (h.getElem?_takingPart p).symm,
    List.filterMap_congr fun m _ => (h.getElem?_takingPart m).symm⟩

/-- What a model is completed with. -/
theorem completed
    (ht : t ∈ models) :
    t.declaredBase = mapped.baseClass? t.name ∧
      t.baseClass = strategies.baseClass {
        type := t.type
        parentName := (parentOf schema t.type).map
          (TypeNames.nameOf strategies options.contentTypes)
        declaredBase := mapped.baseClass? t.name
        modelsBaseClass := options.modelsBaseClass
        settings } ∧
      t.interfaces =
        Inheritance.interfaces (mapped.interfacesOf t.name) propertied t.toPropertiedType ∧
      t.interfaceBases = (if t.isMixin then
        Inheritance.interfaceBases settings propertied t.toPropertiedType else []) ∧
      t.omitsConstructor = mapped.hasConstructor t.name := by
  obtain ⟨i, hi⟩ := List.mem_iff_getElem?.1 ht
  have hcomplete := (h.model_eq hi).2
  rw [← h.parentName_eq ht]
  exact ⟨congrArg Model.declaredBase hcomplete, congrArg Model.baseClass hcomplete,
    congrArg Model.interfaces hcomplete, congrArg Model.interfaceBases hcomplete,
    congrArg Model.omitsConstructor hcomplete⟩

end

/-- Where a content type has the same relatives, its model has the same outline. -/
theorem outline_eq
    {schema' : List ContentType} {linked' : List LinkedType} {named' : List NamedType}
    {propertied' : List PropertiedType} {models' : List Model} {t' : Model}
    (h : Planned settings strategies schema options linked named mapped propertied models)
    (h' : Planned settings strategies schema' options linked' named' mapped propertied' models')
    (ht : t ∈ models) (ht' : t' ∈ models') (htype : t'.type = t.type)
    (hsame : SameRelatives options.contentTypes.isIgnored schema schema' t.type)
    (hproperties : t'.properties = t.properties) :
    t'.outline models' = t.outline models := by
  obtain ⟨hparent, hmixins⟩ := h.outline_relatives ht
  obtain ⟨hparent', hmixins'⟩ := h'.outline_relatives ht'
  have hname : t'.name = t.name := by rw [h.name_eq ht, h'.name_eq ht', htype]
  have hmixin : t'.isMixin = t.isMixin := by
    rw [Bool.eq_iff_iff, h.isMixin_iff ht, h'.isMixin_iff ht', htype, hsame.isMixedIn]
  have hinterfaces : mixinInterfaces propertied' t'.toPropertiedType =
      mixinInterfaces propertied t.toPropertiedType := by
    rw [h.mixinInterfaces_eq ht, h'.mixinInterfaces_eq ht', htype, hsame.mixins]
  have hparentInterface : parentInterface propertied' t'.toPropertiedType =
      parentInterface propertied t.toPropertiedType := by
    rw [h.parentInterface_eq ht, h'.parentInterface_eq ht', htype, hsame.parent]
  obtain ⟨hdeclared, hbase, himplements, hextends, hconstructor⟩ := h.completed ht
  obtain ⟨hdeclared', hbase', himplements', hextends', hconstructor'⟩ := h'.completed ht'
  have hinterfaces' : t'.interfaces = t.interfaces := by
    rw [himplements, himplements']
    unfold Inheritance.interfaces NamedType.interfaceName
    rw [hinterfaces, hname, hmixin]
  have hextends'' : t'.interfaceBases = t.interfaceBases := by
    rw [hextends, hextends', Inheritance.interfaceBases_eq, Inheritance.interfaceBases_eq,
      hinterfaces, hparentInterface, hmixin, htype]
  rw [hname, ← hdeclared] at hdeclared'
  rw [htype, hname, hsame.parent, ← hbase] at hbase'
  rw [hname, ← hconstructor] at hconstructor'
  rw [htype, hsame.parent, ← hparent] at hparent'
  rw [htype, hsame.mixins, ← hmixins] at hmixins'
  unfold Model.outline at hparent hparent' hmixins hmixins' ⊢
  simp only [Outline.mk.injEq]
  exact ⟨htype, hname, hmixin, hproperties, hparent', hmixins', hbase', hdeclared', hinterfaces',
    hextends'', hconstructor'⟩

end CodeModel.Planned
end ContentModels

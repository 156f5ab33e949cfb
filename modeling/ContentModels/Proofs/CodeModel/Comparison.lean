import ContentModels.Proofs.CodeModel.MemberNames
import ContentModels.Proofs.CodeModel.NameTables
import ContentModels.Proofs.CodeModel.SchemaParts

/-!
# Models of a part of a schema

A schema and one that it is a part of have models for the content types of the part.  If values
have the same types in both, the model of a content type has the same outline in both
(`outline_of_isPart`), and it has the same properties from mixins as far as the content type
introduces the same mixins in the same order (`exists_mixedViews`).  What the names of members are
checked for depends on no more than that (`checkMembers_congr`).
-/

namespace ContentModels

open Outcome

/-! ### What types of values depend on -/

namespace ValueType

variable {names names' : Keyed String} {fallback : String}

/-- The aliases in the placeholders of a list of characters. -/
def mentioned : List Char → List String
  | [] => []
  | c :: cs =>
    match placeholder? (c :: cs) with
    | some (aliasName, n) =>
      String.ofList (Text.trimChars aliasName) :: mentioned (cs.drop (n - 1))
    | none => mentioned cs
termination_by cs => cs.length
decreasing_by
  all_goals
    simp only [List.length_drop, List.length_cons]
    omega

/-- The aliases that the type of a property's values names. -/
def aliases (valueType : Option String) : List String :=
  mentioned (Text.trimChars (valueType.getD "").toList)

/-- Only the names for aliases that are mentioned count. -/
theorem replace_congr
    {cs : List Char}
    (h : ∀ a ∈ mentioned cs, names'.get? (Text.lowercase a) = names.get? (Text.lowercase a)) :
    replace names' fallback cs = replace names fallback cs := by
  fun_induction mentioned cs with
  | case1 => rw [replace, replace]
  | case2 c cs aliasName n hplaceholder ih =>
    obtain ⟨ha, hrest⟩ := List.forall_mem_cons.1 h
    rw [replace, replace, hplaceholder]
    simp only [nameOf, ha, ih hrest]
  | case3 c cs hplaceholder ih =>
    rw [replace, replace, hplaceholder]
    simp only [ih h]

theorem resolve_congr
    {valueType : Option String}
    (h : ∀ a ∈ aliases valueType,
      names'.get? (Text.lowercase a) = names.get? (Text.lowercase a)) :
    resolve names' fallback valueType = resolve names fallback valueType := by
  unfold resolve
  dsimp only
  rw [replace_congr h]

end ValueType

/-! ### What members depend on -/

namespace Model

variable {settings : Settings} {models models' : List Model} {t t' : Model}

/-- What is made of the properties from mixins is made of their views. -/
theorem map_filter_mixedViews
    {α : Type} (p : PropertyState → Bool) (g : MixedView → α) :
    ((t.mixedViews models).filter (p ·.state)).map g =
      (t.mixedProperties.filter (p ·.state)).filterMap fun x =>
        models[x.mixin]?.bind fun u =>
          u.properties[x.property]?.map fun q => g ⟨u.type, u.name, q, x.state⟩ := by
  unfold mixedViews
  rw [List.filter_filterMap, List.map_filterMap, List.filterMap_filter]
  refine List.filterMap_congr fun x _ => ?_
  cases models[x.mixin]? with
  | none => exact (ite_self none).symm
  | some u =>
    simp only [Option.bind_some]
    cases u.properties[x.property]? with
    | none => exact (ite_self none).symm
    | some q => cases hstate : p x.state <;> simp [Option.filter, hstate]

theorem mixedIn_eq :
    t.mixedIn models =
      ((t.mixedViews models).filter (·.state != .ignored)).map (·.property) := by
  rw [map_filter_mixedViews (· != .ignored)]
  unfold mixedIn
  simp only [Option.map_id']

/-- Views of the same model in two code models. -/
structure SamePlan (models models' : List Model) (t t' : Model) : Prop where
  outline : t'.outline models' = t.outline models
  mixedViews : (t'.mixedViews models').Perm (t.mixedViews models)

namespace SamePlan

variable (h : SamePlan models models' t t')
include h

theorem type_eq :
    t'.type = t.type :=
  congrArg Outline.type h.outline

theorem name_eq :
    t'.name = t.name :=
  congrArg Outline.name h.outline

theorem isMixin_eq :
    t'.isMixin = t.isMixin :=
  congrArg Outline.isMixin h.outline

theorem ownProperties_eq :
    t'.ownProperties = t.ownProperties := by
  have hproperties : t'.properties = t.properties := congrArg Outline.properties h.outline
  unfold ownProperties
  rw [hproperties]

theorem mixedIn_perm :
    (t'.mixedIn models').Perm (t.mixedIn models) := by
  rw [mixedIn_eq, mixedIn_eq]
  exact (h.mixedViews.filter _).map _

theorem checkedMembers_perm :
    (t'.checkedMembers settings models').Perm (t.checkedMembers settings models) := by
  unfold checkedMembers NamedType.interfaceName
  rw [h.ownProperties_eq, h.isMixin_eq, h.name_eq]
  split
  · exact ((h.mixedIn_perm.append_right _).map _).append_right _
  · exact .nil

/-- Members of models with the same plan pass the check together. -/
theorem checkMembers_iff :
    t'.checkMembers settings models' = .ok () ↔ t.checkMembers settings models = .ok () := by
  have hnames := (h.mixedIn_perm.append_left t.ownProperties).map (·.name)
  have hclass : MemberName.check t.type.aliasName t.name [] (t'.classMembers settings models') =
      .ok () ↔
      MemberName.check t.type.aliasName t.name [] (t.classMembers settings models) = .ok () := by
    rw [classMembers_eq, classMembers_eq]
    exact MemberName.check_helpers_perm h.checkedMembers_perm fun _ => property_checkedMembers
  rw [checkMembers_eq_ok_iff, checkMembers_eq_ok_iff]
  unfold interfaceMembers extensionMembers extended NamedType.interfaceName
    NamedType.extensionsName
  rw [h.ownProperties_eq, h.type_eq, h.name_eq, h.isMixin_eq, hnames.nodup_iff, hclass]

end SamePlan
end Model

/-! ### Models of both schemas -/

theorem Properties.property_congr
    {plan plan' : Plan} {placeholders : Keyed String} {options : List PropertyOptions}
    {t : ContentType} {p : PropertyType}
    (hplan : plan' = { plan with placeholders })
    (h : ValueType.resolve plan'.placeholders plan.settings.contentBaseInterface p.valueType =
      ValueType.resolve plan.placeholders plan.settings.contentBaseInterface p.valueType) :
    property plan' options t p = property plan options t p := by
  subst hplan
  unfold property
  dsimp only at h ⊢
  rw [h]

namespace CodeModel.Planned

open Hierarchy Schema

variable {settings : Settings} {strategies : Strategies} {schema schema' : List ContentType}
  {options : CodeOptions} {linked linked' : List LinkedType} {named named' : List NamedType}
  {mapped : ContentTypeOptions} {propertied propertied' : List PropertiedType}
  {models models' : List Model} {t t' : Model}

/-- The types of the values of a schema are the same with the placeholders of another one. -/
def SameValues (settings : Settings) (schema : List ContentType) (names names' : Keyed String) :
    Prop :=
  ∀ u ∈ schema, ∀ p ∈ u.properties,
    ValueType.resolve names' settings.contentBaseInterface p.valueType =
      ValueType.resolve names settings.contentBaseInterface p.valueType

theorem mem_models_iff
    (h : Planned settings strategies schema options linked named mapped propertied models)
    (u : ContentType) :
    (∃ t ∈ models, t.type = u) ↔ u ∈ takingPart options.contentTypes.isIgnored schema := by
  rw [← h.map_type, List.mem_map]

/-- The properties of models come from their content types. -/
theorem exists_properties
    (h : Planned settings strategies schema options linked named mapped propertied models) :
    ∃ P : ContentType → List ModelProperty, ∀ u ∈ models, u.properties = P u.type := by
  refine ⟨fun u => ((u.properties.mapM (Properties.property
    (planOf settings strategies options.contentTypes.isIgnored linked named mapped)
    (mapped.ofClass (TypeNames.nameOf strategies options.contentTypes u)) u)).toOption).getD [],
    fun u hu => ?_⟩
  dsimp only
  rw [← h.name_eq hu, h.mapM_property hu]
  rfl

section

variable (h : Planned settings strategies schema options linked named mapped propertied models)
  (h' : Planned settings strategies schema' options linked' named' mapped propertied' models')
  (hvalues : SameValues settings schema
    (TypeNames.placeholders settings (dropped options.contentTypes.isIgnored linked) named)
    (TypeNames.placeholders settings (dropped options.contentTypes.isIgnored linked') named'))
include h h' hvalues

theorem properties_eq
    (ht : t ∈ models) (ht' : t' ∈ models') (htype : t'.type = t.type) :
    t'.properties = t.properties := by
  have hproperties := h'.mapM_property ht'
  rw [h'.name_eq ht', htype, ← h.name_eq ht] at hproperties
  refine Except.ok.inj (hproperties.symm.trans (Eq.trans ?_ (h.mapM_property ht)))
  exact mapM_congr fun p hp =>
    Properties.property_congr rfl (hvalues t.type (h.type_mem ht) p hp)

/-- A content type of the part has the same outline in both code models. -/
theorem outline_of_isPart
    (hpart : IsPart schema schema') (ht : t ∈ models) (ht' : t' ∈ models') (htype : t'.type = t.type) :
    t'.outline models' = t.outline models :=
  outline_eq h h' ht ht' htype (hpart.sameRelatives (h.type_mem ht))
    (properties_eq h h' hvalues ht ht' htype)

/-- In both code models a class has the same from each content type that its own one introduces. -/
theorem exists_mixedViews
    (hpart : IsPart schema schema') (ht : t ∈ models) (ht' : t' ∈ models') (htype : t'.type = t.type) :
    ∃ views : ContentType → List MixedView,
      t.mixedViews models =
        (introducedBy options.contentTypes.isIgnored schema t.type).flatMap views ∧
      t'.mixedViews models' =
        (introducedBy options.contentTypes.isIgnored schema' t.type).flatMap views := by
  obtain ⟨P, hP'⟩ := h'.exists_properties
  have hP : ∀ u ∈ models, u.properties = P u.type := by
    intro u hu
    have hmem := (h.mem_models_iff u.type).1 ⟨u, hu, rfl⟩
    rw [← hpart.mem_takingPart_iff (h.type_mem hu)] at hmem
    obtain ⟨u', hu', hsame⟩ := (h'.mem_models_iff u.type).2 hmem
    rw [← properties_eq h h' hvalues hu hu' hsame, hP' u' hu', hsame]
  have hname : t'.name = t.name := by rw [h.name_eq ht, h'.name_eq ht', htype]
  refine ⟨_, h.mixedViews_eq hP ht, ?_⟩
  rw [h'.mixedViews_eq hP' ht', htype, hname]

end
end CodeModel.Planned
end ContentModels

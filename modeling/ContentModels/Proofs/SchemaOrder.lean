import ContentModels.Proofs.CodeModel.Comparison
import ContentModels.Proofs.LetterCase

/-!
# The order of a schema

A code model does not depend on the order in which a schema lists its content types
(`build_perm`): each stage succeeds in one order exactly if it does in any other, for all that a
stage asks of content types is asked of each one or of any two, and content types name each other
by id.  The model of a content type then says the same in every order, positions aside.  Only the
properties of mixins are in the order of the schema.
-/

namespace ContentModels

open Outcome

namespace Schema

variable {isIgnored : String → Bool} {types types' : List ContentType} {t : ContentType}

section

variable (hvalid : validate types = .ok ()) (hperm : types.Perm types')
include hvalid hperm

/-! ### Relatives in any order -/

theorem withId?_perm :
    withId? types' = withId? types := by
  funext id
  refine (find?_eq_of_mem_iff (fun _ => hperm.mem_iff) fun s hs t ht hsid htid => ?_).symm
  exact eq_of_id hvalid hs ht ((eq_of_beq hsid).trans (eq_of_beq htid).symm)

theorem parentOf_perm :
    parentOf types' = parentOf types := by
  unfold parentOf
  rw [withId?_perm hvalid hperm]

theorem isPart_of_perm :
    IsPart types types' where
  mem _ ht := hperm.mem_iff.1 ht
  parent t _ := by rw [parentOf_perm hvalid hperm]
  composed t _ := by
    unfold composedOf
    rw [withId?_perm hvalid hperm]
  apart _ ht hnot := absurd (hperm.mem_iff.2 ht) hnot

theorem exists_link_perm
    (h : ∃ linked, link types = .ok linked) :
    ∃ linked, link types' = .ok linked := by
  rw [exists_link_iff (nodup_of_validate hvalid)] at h
  rw [exists_link_iff (nodup_of_validate (validate_perm hperm hvalid)), parentOf_perm hvalid hperm]
  refine ⟨fun t ht => ?_, fun t ht => h.2 t (hperm.mem_iff.2 ht)⟩
  obtain ⟨hparent, hcompositions⟩ := h.1 t (hperm.mem_iff.2 ht)
  rw [← withId?_perm hvalid hperm] at hparent hcompositions
  exact ⟨hparent, hcompositions⟩

theorem takingPart_perm :
    (takingPart isIgnored types').Perm (takingPart isIgnored types) := by
  rw [(isPart_of_perm hvalid hperm).takingPart_eq]
  exact hperm.symm.filter _

/-- A content type introduces the same in every order. -/
theorem introducedBy_perm
    (ht : t ∈ types) :
    (introducedBy isIgnored types' t).Perm (introducedBy isIgnored types t) := by
  rw [(isPart_of_perm hvalid hperm).introducedBy_eq ht]
  exact (takingPart_perm hvalid hperm).filter _

end
end Schema

namespace CodeModel

open Hierarchy Schema

variable {settings : Settings} {strategies : Strategies} {schema schema' : List ContentType}
  {options : CodeOptions} {linked : List LinkedType} {named : List NamedType}
  {mapped : ContentTypeOptions} {propertied : List PropertiedType} {models : List Model}
  {m : CodeModel}

/-! ### Names in any order -/

open Classical in
/-- A content type with the name of its class and the mark of a mixin, without links. -/
noncomputable def unlinked
    (strategies : Strategies) (options : ContentTypeOptions) (types : List ContentType)
    (t : ContentType) :
    NamedType where
  type := t
  parent := none
  mixins := []
  isMixin := decide (IsMixedIn options.isIgnored types t)
  name := TypeNames.nameOf strategies options t

theorem unlinked_congr
    {typeOptions : ContentTypeOptions} {types types' : List ContentType} {t : ContentType}
    (h : IsMixedIn typeOptions.isIgnored types' t ↔ IsMixedIn typeOptions.isIgnored types t) :
    unlinked strategies typeOptions types' t = unlinked strategies typeOptions types t := by
  unfold unlinked
  congr 2
  exact decide_eq_decide.2 h

/-- The generated types are those for the content types that take part. -/
theorem flatMap_generated
    {typeOptions : ContentTypeOptions} {types : List ContentType} {ps : List Participant}
    (h : Hierarchy.Reflects typeOptions.isIgnored types ps) (style : PropertyStyle) :
    (ps.map (TypeNames.withName strategies typeOptions)).flatMap (TypeNames.generated style) =
      (takingPart typeOptions.isIgnored types).flatMap fun u =>
        TypeNames.generated style (unlinked strategies typeOptions types u) := by
  classical
  rw [← h.map_type, List.flatMap_map, List.flatMap_map]
  refine flatMap_congr fun p hp => ?_
  obtain ⟨i, hi⟩ := List.mem_iff_getElem?.1 hp
  have hmark : p.isMixin = decide (IsMixedIn typeOptions.isIgnored types p.type) := by
    rw [Bool.eq_iff_iff, decide_eq_true_iff, h.isMixin_iff hi]
  show TypeNames.generated style { p with name := _ } = _
  unfold TypeNames.generated unlinked
  simp only [hmark]
  rfl

/-- The types of a schema get names in every order. -/
theorem exists_named_perm
    (h : Named settings strategies schema options linked named) (hperm : schema.Perm schema') :
    ∃ linked' named', Named settings strategies schema' options linked' named' := by
  have hvalid := validate_perm hperm h.valid
  obtain ⟨linked', hlink⟩ := exists_link_perm h.valid hperm ⟨linked, h.link⟩
  have hreflects : Hierarchy.Reflects options.contentTypes.isIgnored schema'
      (participants options.contentTypes.isIgnored linked') :=
    reflects_participants (reflects_of_link hvalid hlink)
  have hpart := isPart_of_perm h.valid hperm
  have htaking : (takingPart options.contentTypes.isIgnored schema').Perm
      (takingPart options.contentTypes.isIgnored schema) := takingPart_perm h.valid hperm
  obtain ⟨hnamed, hnames, hnodup⟩ := TypeNames.assignAll_eq_ok_iff.1 h.names
  refine ⟨linked', _, hvalid, hlink, TypeNames.assignAll_eq_ok_iff.2 ⟨rfl, fun p hp => ?_, ?_⟩⟩
  · have hmem : p.type ∈ takingPart options.contentTypes.isIgnored schema := by
      rw [← htaking.mem_iff, ← hreflects.map_type]
      exact List.mem_map_of_mem hp
    rw [← h.reflects.map_type] at hmem
    obtain ⟨q, hq, htype⟩ := List.mem_map.1 hmem
    rw [← htype]
    exact hnames q hq
  · rw [hnamed, flatMap_generated h.reflects] at hnodup
    rw [flatMap_generated hreflects]
    refine ((List.Perm.map _ ?_).nodup_iff).2 hnodup
    refine (htaking.flatMap_right _).trans (.of_eq (flatMap_congr fun u hu => ?_))
    rw [unlinked_congr (hpart.isMixedIn_iff (mem_takingPart.1 hu).1)]

/-- Names for aliases are the same in every order. -/
theorem foldedNames_perm
    {linked' : List LinkedType} {named' : List NamedType}
    (h : Named settings strategies schema options linked named)
    (h' : Named settings strategies schema' options linked' named')
    (hperm : schema.Perm schema') :
    ContentTypeOptions.foldedNames (TypeNames.byAlias named') =
      ContentTypeOptions.foldedNames (TypeNames.byAlias named) := by
  rw [h.foldedNames_eq, h'.foldedNames_eq]
  refine Keyed.ofList_perm ?_ ((takingPart_perm h.valid hperm).map _)
  rw [List.map_map]
  exact h'.nodup_takingPart

/-- Placeholders stand for the same in every order. -/
theorem placeholders_perm
    {linked' : List LinkedType} {named' : List NamedType}
    (h : Named settings strategies schema options linked named)
    (h' : Named settings strategies schema' options linked' named')
    (hperm : schema.Perm schema') :
    TypeNames.placeholders settings (dropped options.contentTypes.isIgnored linked') named' =
      TypeNames.placeholders settings (dropped options.contentTypes.isIgnored linked) named := by
  have hstand : ∀ u ∈ schema,
      standIn settings strategies options.contentTypes schema' u =
        standIn settings strategies options.contentTypes schema u :=
    fun u hu => standIn_congr ((isPart_of_perm h.valid hperm).isLeftOut_iff hu)
  refine Keyed.ext_get? fun k => Option.ext fun n => ?_
  rw [h.get?_placeholders_eq_some_iff, h'.get?_placeholders_eq_some_iff]
  simp only [← hperm.mem_iff]
  refine exists_congr fun u => and_congr_right fun hu => ?_
  rw [hstand u hu]

/-! ### Models in any order -/

/-- A schema becomes models in every order. -/
theorem exists_planned_perm
    (h : Planned settings strategies schema options linked named mapped propertied models)
    (hperm : schema.Perm schema') :
    ∃ linked' named' propertied' models',
      Planned settings strategies schema' options linked' named' mapped propertied' models' := by
  obtain ⟨linked', named', hnamed⟩ := exists_named_perm h.toNamed hperm
  have hmap : options.contentTypes.mapAliases (TypeNames.byAlias named') = .ok mapped := by
    rw [← h.map]
    exact ContentTypeOptions.mapAliases_congr fun e _ => by
      rw [foldedNames_perm h.toNamed hnamed hperm]
  have hplan : planOf settings strategies options.contentTypes.isIgnored linked' named' mapped =
      planOf settings strategies options.contentTypes.isIgnored linked named mapped := by
    unfold planOf
    rw [placeholders_perm h.toNamed hnamed hperm]
  have hown : ∀ t ∈ named', ∃ u, Properties.own
      (planOf settings strategies options.contentTypes.isIgnored linked' named' mapped) t = .ok u := by
    intro t ht
    rw [hnamed.named_eq] at ht
    obtain ⟨p, hp, rfl⟩ := List.mem_map.1 ht
    have hmem := List.mem_map_of_mem (f := (·.type)) hp
    rw [hnamed.reflects.map_type, (takingPart_perm h.valid hperm).mem_iff, ← h.mem_models_iff]
      at hmem
    obtain ⟨t, ht, htype⟩ := hmem
    have hproperties := h.mapM_property ht
    rw [h.name_eq ht, htype] at hproperties
    rw [hplan]
    exact ⟨_, bind_eq_ok.2 ⟨_, hproperties, rfl⟩⟩
  obtain ⟨propertied', hproperties⟩ := exists_mapM hown
  exact ⟨linked', named', propertied', _, hnamed, hmap, hproperties, rfl⟩

/-- The models of a content type say the same in every order. -/
theorem samePlan_perm
    {linked' : List LinkedType} {named' : List NamedType} {propertied' : List PropertiedType}
    {models' : List Model}
    (h : Planned settings strategies schema options linked named mapped propertied models)
    (h' : Planned settings strategies schema' options linked' named' mapped propertied' models')
    (hperm : schema.Perm schema') {t t' : Model} (ht : t ∈ models) (ht' : t' ∈ models')
    (htype : t'.type = t.type) :
    Model.SamePlan models models' t t' := by
  have hpart := isPart_of_perm h.valid hperm
  have hvalues : Planned.SameValues settings schema
      (TypeNames.placeholders settings (dropped options.contentTypes.isIgnored linked) named)
      (TypeNames.placeholders settings (dropped options.contentTypes.isIgnored linked') named') := by
    rw [placeholders_perm h.toNamed h'.toNamed hperm]
    exact fun _ _ _ _ => rfl
  refine ⟨h.outline_of_isPart h' hvalues hpart ht ht' htype, ?_⟩
  obtain ⟨views, hviews, hviews'⟩ := h.exists_mixedViews h' hvalues hpart ht ht' htype
  rw [hviews, hviews']
  exact (introducedBy_perm h.valid hperm (h.type_mem ht)).flatMap_right _

/-- Code models that have the same model for every alias, wherever the models stand. -/
structure SameModels (m m' : CodeModel) : Prop where
  modelsNamespace : m'.modelsNamespace = m.modelsNamespace
  usingNamespaces : m'.usingNamespaces = m.usingNamespaces
  models : ∀ aliasName, Option.Rel (Model.SamePlan m.models m'.models)
    (m.modelOf? aliasName) (m'.modelOf? aliasName)

/-- The content type of the model of an alias is found by the alias. -/
theorem map_modelOf?
    (m : CodeModel) (aliasName : String) :
    (m.modelOf? aliasName).map (·.type) = (m.models.map (·.type)).find? fun t =>
      t.aliasName.toList.map Char.toLower == aliasName.toList.map Char.toLower := by
  rw [List.find?_map]
  rfl

/-- A schema that has a code model has one in every order, with the same models. -/
theorem exists_build_perm
    (h : build settings strategies schema options = .ok m) (hperm : schema.Perm schema') :
    ∃ m', build settings strategies schema' options = .ok m' ∧ m.SameModels m' := by
  obtain ⟨linked, named, mapped, propertied, hbuilt⟩ := exists_built h
  have hplanned := hbuilt.toPlanned
  obtain ⟨linked', named', propertied', models', hplanned'⟩ := exists_planned_perm hplanned hperm
  have htaking : (takingPart options.contentTypes.isIgnored schema').Perm
      (takingPart options.contentTypes.isIgnored schema) := takingPart_perm hbuilt.valid hperm
  have hsame : ∀ t ∈ m.models, ∀ t' ∈ models', t'.type = t.type →
      Model.SamePlan m.models models' t t' := fun t ht t' ht' =>
    samePlan_perm hplanned hplanned' hperm ht ht'
  have hmembers : models'.forM (Model.checkMembers settings models') = .ok () := by
    refine forM_eq_ok_iff.2 fun t' ht' => ?_
    have hmem := (hplanned'.mem_models_iff t'.type).1 ⟨t', ht', rfl⟩
    rw [htaking.mem_iff, ← hplanned.mem_models_iff] at hmem
    obtain ⟨t, ht, htype⟩ := hmem
    exact (hsame t ht t' ht' htype.symm).checkMembers_iff.2
      (forM_eq_ok_iff.1 hbuilt.members t ht)
  refine ⟨_, hplanned'.build_eq_ok hmembers, hbuilt.modelsNamespace.symm,
    hbuilt.usingNamespaces.symm, fun aliasName => ?_⟩
  have hfound : (m.modelOf? aliasName).map (·.type) = (CodeModel.modelOf?
      { modelsNamespace := options.modelsNamespace.getD settings.modelsNamespace
        usingNamespaces := usings settings options
        models := models' } aliasName).map (·.type) := by
    rw [map_modelOf?, map_modelOf?, hplanned.map_type, hplanned'.map_type]
    refine find?_eq_of_mem_iff (fun _ => htaking.symm.mem_iff) fun s hs t ht hsalias htalias => ?_
    have hfold := (eq_of_beq hsalias).trans (eq_of_beq htalias).symm
    exact eq_of_lowercase hbuilt.valid (mem_takingPart.1 hs).1 (mem_takingPart.1 ht).1
      (Text.lowercase_of_fold hfold)
  revert hfound
  cases ht : m.modelOf? aliasName with
  | none =>
    cases ht' : CodeModel.modelOf? _ aliasName with
    | none => exact fun _ => .none
    | some t' => exact nofun
  | some t =>
    cases ht' : CodeModel.modelOf? _ aliasName with
    | none => exact nofun
    | some t' =>
      intro hfound
      exact .some (hsame t (List.mem_of_find?_eq_some ht) t' (List.mem_of_find?_eq_some ht')
        (Option.some.inj hfound).symm)

/--
A schema has a code model in one order exactly if it has one in another order, and then the
models of every alias are the same: in what they are called and inherit, in their properties, in
what their parents and their mixins are, and in the properties that they have from mixins.
-/
theorem build_perm
    (settings : Settings) (strategies : Strategies) (options : CodeOptions)
    (hperm : schema.Perm schema') :
    ((∃ m, build settings strategies schema options = .ok m) ↔
      ∃ m', build settings strategies schema' options = .ok m') ∧
      ∀ m m', build settings strategies schema options = .ok m →
        build settings strategies schema' options = .ok m' → m.SameModels m' := by
  refine ⟨⟨?_, ?_⟩, fun m m' h h' => ?_⟩
  · rintro ⟨m, h⟩
    exact (exists_build_perm h hperm).imp fun _ => And.left
  · rintro ⟨m, h⟩
    exact (exists_build_perm h hperm.symm).imp fun _ => And.left
  · obtain ⟨m'', h'', hsame⟩ := exists_build_perm h hperm
    obtain rfl := Except.ok.inj (h'.symm.trans h'')
    exact hsame

/-- News before what they are derived from, and compositions the other way round. -/
theorem build_perm_news :
    ∃ m m', build .standard (.standard .standard) newsSchema .empty = .ok m ∧
      build .standard (.standard .standard) newsSchema.reverse .empty = .ok m' ∧
      m.models.map (fun t : Model => (t.parent, t.mixins)) =
        [(none, [1]), (none, [2]), (none, [1]), (some 0, [])] ∧
      m'.models.map (fun t : Model => (t.parent, t.mixins)) =
        [(some 3, []), (none, [2]), (none, [1]), (none, [2])] ∧
      m.SameModels m' := by
  obtain ⟨m, h, hlinks⟩ := Outcome.exists_of_toOption_map
    (x := build .standard (.standard .standard) newsSchema .empty)
    (f := fun m => m.models.map fun t : Model => (t.parent, t.mixins))
    (b := [(none, [1]), (none, [2]), (none, [1]), (some 0, [])]) (by decide +kernel)
  obtain ⟨m', h', hlinks'⟩ := Outcome.exists_of_toOption_map
    (x := build .standard (.standard .standard) newsSchema.reverse .empty)
    (f := fun m => m.models.map fun t : Model => (t.parent, t.mixins))
    (b := [(some 3, []), (none, [2]), (none, [1]), (none, [2])]) (by decide +kernel)
  exact ⟨m, m', h, h', hlinks, hlinks',
    (build_perm _ _ _ (List.reverse_perm _).symm).2 m m' h h'⟩

end CodeModel
end ContentModels

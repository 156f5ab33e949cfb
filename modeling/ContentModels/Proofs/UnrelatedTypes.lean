import ContentModels.Proofs.CodeModel.Comparison
import ContentModels.Proofs.CombinedFiles

/-!
# Unrelated content types

Content types that are added to a schema leave the generated files of the others as they are, if
nothing links them to the others and nothing names them: neither the types of values nor options
under their aliases (`generate_unrelated`).  Where the types are added does not matter, though it
moves all models behind them.  The text for a model does not say where models stand, and what it
says comes from the relatives of its content type, none of which is new.
-/

namespace ContentModels

open Outcome

/-! ### What the text for a model depends on -/

namespace Generated

variable {l : Layout} {models models' : List Model} {t t' : Model}

/-- Accessors of properties from mixins, by the views of these properties. -/
theorem map_mixedAccessors :
    (mixedAccessors models t).map (l.classMember t) =
      ((t.mixedViews models).filter (·.state == .generate)).map fun v =>
        l.accessor v.property (v.className ++ "." ++ l.getter v.property ++ "(this)") := by
  rw [Model.map_filter_mixedViews (· == .generate)]
  unfold mixedAccessors
  rw [List.map_filterMap]
  refine List.filterMap_congr fun x _ => ?_
  rw [Option.map_bind]
  refine Option.bind_congr fun u _ => ?_
  rw [Function.comp_apply, Option.map_map]
  rfl

section

variable (h : Model.SamePlan models models' t t')
  (hviews : t'.mixedViews models' = t.mixedViews models)
include h

theorem Layout.interface_eq :
    l.interface t' = l.interface t := by
  have hbases : t'.interfaceBases = t.interfaceBases := congrArg Outline.interfaceBases h.outline
  unfold Layout.interface NamedType.interfaceName
  rw [h.type_eq, h.name_eq, hbases, h.ownProperties_eq]

theorem Layout.extensions_eq :
    l.extensions t' = l.extensions t := by
  have hmethod : l.extensionMethod t' = l.extensionMethod t := by
    funext p
    unfold Layout.extensionMethod Model.extended NamedType.interfaceName
    rw [h.name_eq, h.isMixin_eq]
  unfold Layout.extensions extensionProperties NamedType.extensionsName
  rw [hmethod, h.name_eq, h.ownProperties_eq]

include hviews

theorem Layout.map_classMember_eq
    (style : PropertyStyle) :
    (propertyMembers style models' t').map (l.classMember t') =
      (propertyMembers style models t).map (l.classMember t) := by
  have hmember : l.classMember t' = l.classMember t := by
    funext x
    cases x <;> unfold Layout.classMember NamedType.interfaceName <;>
      simp only [h.name_eq, h.isMixin_eq]
  unfold propertyMembers
  split
  · rw [List.map_append, List.map_append, map_mixedAccessors, map_mixedAccessors, hviews, hmember,
      h.ownProperties_eq, h.isMixin_eq]
  · rw [List.map_nil, List.map_nil]

theorem Layout.classType_eq :
    l.classType models' t' = l.classType models t := by
  have hclass : ∀ (models : List Model) (t : Model), l.classType models t =
      summary "\t" t.type.name t.type.description ++
        ["\t[PublishedModel(" ++ literal t.type.aliasName ++ ")]",
          l.head ("public partial class " ++ t.name) (t.baseClass.toList ++ t.interfaces),
          "\t\x7b"] ++
        l.helpers t ++ (if t.omitsConstructor then [] else l.constructor t) ++
        (if ((propertyMembers l.settings.propertyStyle models t).map (l.classMember t)).isEmpty
          then [] else ["", "\t\t// properties"]) ++
        ((propertyMembers l.settings.propertyStyle models t).map (l.classMember t)).flatMap
          ("" :: ·) ++
        ["\t\x7d"] := by
    intro models t
    rw [List.isEmpty_map, List.flatMap_map]
    rfl
  have hbase : t'.baseClass = t.baseClass := congrArg Outline.baseClass h.outline
  have hinterfaces : t'.interfaces = t.interfaces := congrArg Outline.interfaces h.outline
  have homits : t'.omitsConstructor = t.omitsConstructor :=
    congrArg Outline.omitsConstructor h.outline
  rw [hclass, hclass, Layout.map_classMember_eq h hviews]
  unfold Layout.helpers Layout.constructor
  rw [h.type_eq, h.name_eq, hbase, hinterfaces, homits]

/-- Models that have the same outline and the same properties from mixins have the same text. -/
theorem Layout.types_of_samePlan :
    l.types models' t' = l.types models t := by
  unfold Layout.types
  rw [h.isMixin_eq, Layout.interface_eq h, Layout.extensions_eq h, Layout.classType_eq h hviews]

end
end Generated

/-! ### Types that are added to a schema -/

namespace Schema

variable {isIgnored : String → Bool} {schema larger : List ContentType} {t u : ContentType}

/-- A schema with content types added that are not linked to the others, and whose aliases the
types of their values do not name. -/
structure Unrelated (schema larger : List ContentType) : Prop where
  sublist : schema.Sublist larger
  links : ∀ t ∈ larger, t ∉ schema →
    ∀ u ∈ schema, t.parent? ≠ some u.id ∧ u.id ∉ t.compositionIds
  values : ∀ t ∈ schema, ∀ p ∈ t.properties, ∀ a ∈ ValueType.aliases p.valueType,
    ∀ u ∈ larger, u ∉ schema → Text.lowercase u.aliasName ≠ Text.lowercase a

namespace Unrelated

section

variable (h : Unrelated schema larger) (hvalid : validate larger = .ok ())
include h hvalid

theorem withId?_eq
    {id : Int} (hid : withId? schema id = some u) :
    withId? larger id = some u := by
  have hu := h.sublist.subset (mem_of_withId? hid)
  have hsome : (withId? larger id).isSome = true :=
    List.find?_isSome.2 ⟨u, hu, beq_iff_eq.2 (id_of_withId? hid)⟩
  obtain ⟨v, hv⟩ := Option.isSome_iff_exists.1 hsome
  have hsame : v.id = u.id := (id_of_withId? hv).trans (id_of_withId? hid).symm
  rw [hv, eq_of_id hvalid (mem_of_withId? hv) hu hsame]

/-- A schema whose links are all known is a part of the larger one. -/
theorem isPart
    (hknows : ∀ t ∈ schema, KnowsLinks schema t) :
    IsPart schema larger where
  mem _ ht := h.sublist.subset ht
  parent t ht := by
    unfold parentOf
    refine Option.bind_congr fun id hid => ?_
    obtain ⟨u, hu⟩ := (hknows t ht).parent id hid
    rw [hu, h.withId?_eq hvalid hu]
  composed t ht := by
    unfold composedOf
    congr 1
    refine List.filterMap_congr fun id hid => ?_
    obtain ⟨hmem, hne⟩ := List.mem_filter.1 hid
    obtain ⟨u, hu⟩ := (hknows t ht).compositions id hmem (by simpa using hne)
    rw [hu, h.withId?_eq hvalid hu]
  apart t ht hnot := by
    refine ⟨fun p hp hmem => ?_, fun u hu hmem => ?_⟩
    · obtain ⟨id, hid, hp⟩ := Option.bind_eq_some_iff.1 hp
      refine (h.links t ht hnot p hmem).1 ?_
      rw [hid, id_of_withId? hp]
    · obtain ⟨id, hid, hu⟩ := List.mem_filterMap.1 (List.mem_eraseDups.1 hu)
      refine (h.links t ht hnot u hmem).2 ?_
      rw [id_of_withId? hu]
      exact (List.mem_filter.1 hid).1

end

theorem sublist_takingPart
    (h : Unrelated schema larger) (hpart : IsPart schema larger) :
    (takingPart isIgnored schema).Sublist (takingPart isIgnored larger) := by
  rw [hpart.takingPart_eq]
  exact h.sublist.filter _

/-- What a content type introduces is not new. -/
theorem introducedBy_eq
    (h : Unrelated schema larger) (hvalid : validate larger = .ok ())
    (hpart : IsPart schema larger) (ht : t ∈ schema) :
    introducedBy isIgnored larger t = introducedBy isIgnored schema t := by
  classical
  rw [hpart.introducedBy_eq ht]
  refine filter_eq_of_sublist (h.sublist_takingPart hpart)
    ((nodup_of_validate hvalid).filter _) fun u hu hintroduces => ?_
  have hmem := mem_of_introduces ht ((hpart.introduces_iff ht u).1 (of_decide_eq_true hintroduces))
  exact (hpart.mem_takingPart_iff hmem).1 hu

end Unrelated
end Schema

/-! ### Code models with unrelated types -/

namespace CodeModel

open Hierarchy Schema

variable {settings : Settings} {strategies : Strategies} {schema larger : List ContentType}
  {options : CodeOptions} {linked linked' : List LinkedType} {named named' : List NamedType}
  {mapped mapped' : ContentTypeOptions} {propertied propertied' : List PropertiedType}
  {models models' : List Model} {t t' : Model}

/-- No options of properties are filed under the aliases of added types. -/
def LeavesAliases (options : CodeOptions) (schema larger : List ContentType) : Prop :=
  ∀ u ∈ larger, u ∉ schema →
    options.contentTypes.byAlias.get? (Text.lowercase u.aliasName) = none

instance (options : CodeOptions) (schema larger : List ContentType) :
    Decidable (LeavesAliases options schema larger) :=
  inferInstanceAs (Decidable (∀ u ∈ larger, u ∉ schema →
    options.contentTypes.byAlias.get? (Text.lowercase u.aliasName) = none))

theorem Named.isPart
    (h : Named settings strategies schema options linked named)
    (h' : Named settings strategies larger options linked' named')
    (hunrelated : Unrelated schema larger) :
    IsPart schema larger :=
  hunrelated.isPart h'.valid
    ((exists_link_iff (nodup_of_validate h.valid)).1 ⟨linked, h.link⟩).1

/-- Options of properties are filed under the names of the same classes. -/
theorem mapAliases_unrelated
    (h : Named settings strategies schema options linked named)
    (h' : Named settings strategies larger options linked' named')
    (hunrelated : Unrelated schema larger) (hoptions : LeavesAliases options schema larger) :
    options.contentTypes.mapAliases (TypeNames.byAlias named') =
      options.contentTypes.mapAliases (TypeNames.byAlias named) := by
  have hpart := h.isPart h' hunrelated
  refine ContentTypeOptions.mapAliases_congr fun e he => Option.ext fun n => ?_
  rw [h.get?_foldedNames_eq_some_iff, h'.get?_foldedNames_eq_some_iff]
  refine exists_congr fun u => ?_
  constructor
  · rintro ⟨hu, hkey, hname⟩
    have hmem : u ∈ schema := by
      by_contra hnot
      have hnone := hoptions u (mem_takingPart.1 hu).1 hnot
      rw [hkey, Keyed.mem_entries_iff.1 (show (e.1, e.2) ∈ _ from he)] at hnone
      cases hnone
    exact ⟨(hpart.mem_takingPart_iff hmem).1 hu, hkey, hname⟩
  · rintro ⟨hu, hkey, hname⟩
    exact ⟨(hpart.mem_takingPart_iff (mem_takingPart.1 hu).1).2 hu, hkey, hname⟩

/-- The types of the values of the schema name none of the added types. -/
theorem sameValues_unrelated
    (h : Named settings strategies schema options linked named)
    (h' : Named settings strategies larger options linked' named')
    (hunrelated : Unrelated schema larger) :
    Planned.SameValues settings schema
      (TypeNames.placeholders settings (dropped options.contentTypes.isIgnored linked) named)
      (TypeNames.placeholders settings (dropped options.contentTypes.isIgnored linked') named') := by
  have hpart := h.isPart h' hunrelated
  intro t ht p hp
  refine ValueType.resolve_congr fun a ha => Option.ext fun n => ?_
  rw [h.get?_placeholders_eq_some_iff, h'.get?_placeholders_eq_some_iff]
  refine exists_congr fun u => ?_
  constructor
  · rintro ⟨hu, hkey, hname⟩
    have hmem : u ∈ schema := by
      by_contra hnot
      exact hunrelated.values t ht p hp a ha u hu hnot hkey
    rw [standIn_congr (hpart.isLeftOut_iff hmem)] at hname
    exact ⟨hmem, hkey, hname⟩
  · rintro ⟨hu, hkey, hname⟩
    rw [← standIn_congr (hpart.isLeftOut_iff hu)] at hname
    exact ⟨hpart.mem u hu, hkey, hname⟩

/-- The models of a content type have the same text with and without the added types. -/
theorem types_unrelated
    (h : Planned settings strategies schema options linked named mapped propertied models)
    (h' : Planned settings strategies larger options linked' named' mapped' propertied' models')
    (hunrelated : Unrelated schema larger) (hoptions : LeavesAliases options schema larger)
    (ht : t ∈ models) (ht' : t' ∈ models') (htype : t'.type = t.type)
    (l : Generated.Layout) :
    t'.name = t.name ∧ l.types models' t' = l.types models t := by
  obtain rfl : mapped = mapped' := Except.ok.inj <| by
    rw [← h.map, ← h'.map, mapAliases_unrelated h.toNamed h'.toNamed hunrelated hoptions]
  have hpart := h.toNamed.isPart h'.toNamed hunrelated
  have hvalues := sameValues_unrelated h.toNamed h'.toNamed hunrelated
  obtain ⟨views, hviews, hviews'⟩ := h.exists_mixedViews h' hvalues hpart ht ht' htype
  rw [hunrelated.introducedBy_eq h'.valid hpart (h.type_mem ht), ← hviews] at hviews'
  have hsame : Model.SamePlan models models' t t' :=
    ⟨h.outline_of_isPart h' hvalues hpart ht ht' htype, .of_eq hviews'⟩
  exact ⟨hsame.name_eq, Generated.Layout.types_of_samePlan hsame hviews'⟩

end CodeModel

/-! ### Generated files -/

namespace Generator

open CodeModel Generated Schema

variable {g : Generator} {schema larger : List ContentType} {sources : SourceFiles}
  {options : CodeOptions} {out out' : GeneratedModels}

/--
Content types that are added to a schema, wherever they are put, leave the generated texts as they
are, if they are not linked to the other types and neither the types of values nor options by
alias name them.
-/
theorem generate_unrelated
    (hunrelated : Unrelated schema larger) (hcollect : g.collect sources = .ok options)
    (hoptions : LeavesAliases options schema larger)
    (hout : g.generate schema sources = .ok out) (hout' : g.generate larger sources = .ok out') :
    out.texts.Sublist out'.texts ∧ ∀ x ∈ out.texts, out'.text? x.1 = some x.2 := by
  obtain ⟨_, m, _, _, hpass⟩ := exists_pass hout
  obtain ⟨_, m', _, _, hpass'⟩ := exists_pass hout'
  obtain rfl := Except.ok.inj (hcollect.symm.trans hpass.collect)
  obtain rfl := Except.ok.inj (hcollect.symm.trans hpass'.collect)
  obtain ⟨linked, named, mapped, propertied, h⟩ := exists_built hpass.build
  obtain ⟨linked', named', mapped', propertied', h'⟩ := exists_built hpass'.build
  obtain ⟨l, hl, htexts⟩ := hpass.exists_layout
  obtain ⟨l', hl', htexts'⟩ := hpass'.exists_layout
  rw [h'.usingNamespaces, ← h.usingNamespaces] at hl'
  obtain rfl : l = l' := Except.ok.inj (hl.symm.trans hl')
  have hnamespace : m'.modelsNamespace = m.modelsNamespace := by
    rw [h.modelsNamespace, h'.modelsNamespace]
  have hpart := h.toNamed.isPart h'.toNamed hunrelated
  -- With the added types the text of a model belongs to its content type, and so it does without.
  have hnodup : (m'.models.map (·.type)).Nodup := by
    rw [h'.map_type]
    exact (nodup_of_validate h'.valid).filter _
  obtain ⟨text, htext'⟩ := exists_of_nodup_map hnodup fun t =>
    (t.name, l.file m'.modelsNamespace (l.types m'.models t))
  have htext : ∀ t ∈ m.models,
      (t.name, l.file m.modelsNamespace (l.types m.models t)) = text t.type := by
    intro t ht
    have hmem := (h.mem_models_iff t.type).1 ⟨t, ht, rfl⟩
    rw [← hpart.mem_takingPart_iff (h.type_mem ht), ← h'.mem_models_iff] at hmem
    obtain ⟨t', ht', htype⟩ := hmem
    obtain ⟨hname, htypes⟩ :=
      types_unrelated h.toPlanned h'.toPlanned hunrelated hoptions ht ht' htype l
    rw [← htype, ← htext' t' ht', hname, htypes, hnamespace]
  have hsublist : out.texts.Sublist out'.texts := by
    have hof : ∀ models : List Model,
        models.map (fun t => text t.type) = (models.map (·.type)).map text := fun _ =>
      List.map_map.symm
    rw [htexts, htexts', List.map_congr_left htext, List.map_congr_left htext', hof, hof,
      h.map_type, h'.map_type]
    exact (hunrelated.sublist_takingPart hpart).map text
  have hkeys : (out'.texts.map (·.1)).Nodup := by
    rw [htexts', List.map_map]
    exact nodup_names hpass'.build
  exact ⟨hsublist, fun x hx => lookup_eq_some_of_mem hkeys (hsublist.subset hx)⟩

/-- A page that is composed of texts for search engines and refers to other pages. -/
def siteSchema : List ContentType :=
  [typeWith 1 "seo" none [],
    { typeWith 2 "page" none [1] with
      properties := [⟨"related", "", "", none, .nothing, some "IEnumerable<\x7bmodel:page\x7d>"⟩] }]

/-- The same between a blog, what it is composed of, and its posts. -/
def blogSchema : List ContentType :=
  [typeWith 3 "blog" none [4]] ++ siteSchema ++
    [typeWith 4 "tags" none [], typeWith 5 "post" (some 3) []]

/-- Code that names a property of pages. -/
def renamingSources : SourceFiles :=
  .ofList [("Names.cs", "[assembly: RenamePropertyType(\"page\", \"related\", \"Others\")]")]

/-- A blog leaves the files for pages as they are. -/
theorem generate_unrelated_blog :
    ∃ g options out out', ofSettings .standard = .ok g ∧
      g.collect renamingSources = .ok options ∧ LeavesAliases options siteSchema blogSchema ∧
      Unrelated siteSchema blogSchema ∧
      g.generate siteSchema renamingSources = .ok out ∧
      g.generate blogSchema renamingSources = .ok out' ∧
      out.texts.map (·.1) = ["Seo", "Page"] ∧
      out.texts.Sublist out'.texts ∧ ∀ x ∈ out.texts, out'.text? x.1 = some x.2 := by
  have hunrelated : Unrelated siteSchema blogSchema :=
    ⟨by decide +kernel, by decide +kernel, by decide +kernel⟩
  obtain ⟨g, options, m, _, _, h, hshape⟩ := @exists_prepared siteSchema renamingSources
    (fun _ options m _ _ => decide (LeavesAliases options siteSchema blogSchema ∧
      m.models.map (·.name) = ["Seo", "Page"])) (by decide +kernel)
  obtain ⟨hoptions, hnames⟩ := of_decide_eq_true hshape
  obtain ⟨g', _, _, _, _, h', -⟩ := @exists_prepared blogSchema renamingSources
    (fun _ _ _ _ _ => true) (by decide +kernel)
  obtain rfl := Except.ok.inj (h.settings.symm.trans h'.settings)
  obtain ⟨out, _, hout, hpass⟩ := h.exists_pass (by decide +kernel)
  obtain ⟨out', hout'⟩ := h'.exists_generate (by decide +kernel)
  obtain ⟨l, -, htexts⟩ := hpass.exists_layout
  have hkeys : out.texts.map (·.1) = ["Seo", "Page"] := by
    rw [htexts, List.map_map, ← hnames]
    rfl
  exact ⟨g, options, out, out', h.settings, h.collect, hoptions, hunrelated, hout, hout', hkeys,
    generate_unrelated hunrelated h.collect hoptions hout hout'⟩

end Generator
end ContentModels

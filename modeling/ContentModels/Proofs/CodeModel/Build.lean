import ContentModels.CodeModel.Build
import ContentModels.Proofs.CodeModel.Hierarchy
import ContentModels.Proofs.CodeModel.TypeNames

/-!
# The stages of a code model

A code model that is built comes from a linked schema by way of names and properties, and
each stage keeps what the stage before it settled.  So the links between models are those
of the types that take part.
-/

namespace ContentModels
namespace CodeModel

open Hierarchy Outcome Relation Walk

/-- What properties are planned with once types have names. -/
def planOf
    (settings : Settings) (strategies : Strategies) (isIgnored : String → Bool)
    (linked : List Schema.LinkedType) (named : List NamedType) (mapped : ContentTypeOptions) :
    Properties.Plan where
  settings
  strategies
  options := mapped
  placeholders := TypeNames.placeholders settings (dropped isIgnored linked) named

/-- The stages by which the types of a schema get names. -/
structure Named
    (settings : Settings) (strategies : Strategies) (schema : List ContentType)
    (options : CodeOptions) (linked : List Schema.LinkedType) (named : List NamedType) :
    Prop where
  valid : Schema.validate schema = .ok ()
  link : Schema.link schema = .ok linked
  names : TypeNames.assignAll settings strategies options.contentTypes
    (participants options.contentTypes.isIgnored linked) = .ok named

/-- The stages by which a schema becomes models, before the names of their members are checked. -/
structure Planned
    (settings : Settings) (strategies : Strategies) (schema : List ContentType)
    (options : CodeOptions) (linked : List Schema.LinkedType) (named : List NamedType)
    (mapped : ContentTypeOptions) (propertied : List PropertiedType) (planned : List Model) :
    Prop extends Named settings strategies schema options linked named where
  map : options.contentTypes.mapAliases (TypeNames.byAlias named) = .ok mapped
  properties : named.mapM (Properties.own
    (planOf settings strategies options.contentTypes.isIgnored linked named mapped)) =
      .ok propertied
  models : planned = propertied.zipIdx.map fun x => Inheritance.complete
    (planOf settings strategies options.contentTypes.isIgnored linked named mapped)
    options.modelsBaseClass propertied x.2 x.1

/-- The stages by which a schema becomes a code model. -/
structure Built
    (settings : Settings) (strategies : Strategies) (schema : List ContentType)
    (options : CodeOptions) (linked : List Schema.LinkedType) (named : List NamedType)
    (mapped : ContentTypeOptions) (propertied : List PropertiedType) (m : CodeModel) : Prop
    extends Planned settings strategies schema options linked named mapped propertied m.models where
  members : m.models.forM (Model.checkMembers settings m.models) = .ok ()
  modelsNamespace : m.modelsNamespace = options.modelsNamespace.getD settings.modelsNamespace
  usingNamespaces : m.usingNamespaces = usings settings options

variable {settings : Settings} {strategies : Strategies} {schema : List ContentType}
  {options : CodeOptions} {m : CodeModel}

theorem exists_built
    (h : build settings strategies schema options = .ok m) :
    ∃ linked named mapped propertied,
      Built settings strategies schema options linked named mapped propertied m := by
  obtain ⟨_, hvalid, h⟩ := bind_eq_ok.1 h
  obtain ⟨linked, hlink, h⟩ := bind_eq_ok.1 h
  obtain ⟨named, hnames, h⟩ := bind_eq_ok.1 h
  obtain ⟨mapped, hmap, h⟩ := bind_eq_ok.1 h
  obtain ⟨propertied, hproperties, h⟩ := bind_eq_ok.1 h
  obtain ⟨_, hmembers, h⟩ := bind_eq_ok.1 h
  cases h
  exact ⟨linked, named, mapped, propertied,
    ⟨⟨hvalid, hlink, hnames⟩, hmap, hproperties, rfl⟩, hmembers, rfl, rfl⟩

/-- Models whose members pass the check make a code model. -/
theorem Planned.build_eq_ok
    {linked : List Schema.LinkedType} {named : List NamedType} {mapped : ContentTypeOptions}
    {propertied : List PropertiedType} {models : List Model}
    (h : Planned settings strategies schema options linked named mapped propertied models)
    (hmembers : models.forM (Model.checkMembers settings models) = .ok ()) :
    build settings strategies schema options = .ok {
      modelsNamespace := options.modelsNamespace.getD settings.modelsNamespace
      usingNamespaces := usings settings options
      models } := by
  obtain ⟨⟨hvalid, hlink, hnames⟩, hmap, hproperties, rfl⟩ := h
  refine bind_eq_ok.2 ⟨(), hvalid, bind_eq_ok.2 ⟨linked, hlink, bind_eq_ok.2 ⟨named, hnames,
    bind_eq_ok.2 ⟨mapped, hmap, bind_eq_ok.2 ⟨propertied, hproperties,
      bind_eq_ok.2 ⟨(), hmembers, rfl⟩⟩⟩⟩⟩⟩

/-! ### What later stages keep -/

theorem Named.named_eq
    {linked : List Schema.LinkedType} {named : List NamedType}
    (h : Named settings strategies schema options linked named) :
    named = (participants options.contentTypes.isIgnored linked).map
      (TypeNames.withName strategies options.contentTypes) :=
  (TypeNames.assignAll_eq_ok_iff.1 h.names).1

theorem own_eq_ok
    {plan : Properties.Plan} {t : NamedType} {u : PropertiedType}
    (h : Properties.own plan t = .ok u) :
    u.toNamedType = t ∧
      t.type.properties.mapM (Properties.property plan (plan.options.ofClass t.name) t.type) =
        .ok u.properties := by
  obtain ⟨properties, hproperties, h⟩ := bind_eq_ok.1 h
  cases h
  exact ⟨rfl, hproperties⟩

namespace Planned

variable {linked : List Schema.LinkedType} {named : List NamedType} {mapped : ContentTypeOptions}
  {propertied : List PropertiedType} {models : List Model}

theorem map_toNamedType
    (h : Planned settings strategies schema options linked named mapped propertied models) :
    propertied.map (·.toNamedType) = named := by
  rw [map_of_mapM (fun _ _ hown => (own_eq_ok hown).1) h.properties, List.map_id']

theorem map_toParticipant
    (h : Planned settings strategies schema options linked named mapped propertied models) :
    propertied.map (·.toParticipant) =
      participants options.contentTypes.isIgnored linked := by
  have hnamed : named.map (·.toParticipant) =
      participants options.contentTypes.isIgnored linked := by
    rw [h.named_eq, List.map_map]
    exact List.map_id' _
  rw [← hnamed, ← h.map_toNamedType, List.map_map]
  rfl

/-- The types that the models of a code model complete. -/
theorem models_toPropertiedType
    (h : Planned settings strategies schema options linked named mapped propertied models) :
    models.map (·.toPropertiedType) = propertied := by
  rw [h.models, List.map_map]
  exact List.zipIdx_map_fst 0 propertied

/-- The types that have names are those of the models. -/
theorem models_toNamedType
    (h : Planned settings strategies schema options linked named mapped propertied models) :
    models.map (·.toNamedType) = named := by
  rw [← h.map_toNamedType, ← h.models_toPropertiedType, List.map_map]
  rfl

theorem propertied_toParticipant
    (h : Planned settings strategies schema options linked named mapped propertied models) :
    propertied.map (·.toParticipant) = models.map (·.toParticipant) := by
  rw [← h.models_toPropertiedType, List.map_map]
  rfl

theorem models_toParticipant
    (h : Planned settings strategies schema options linked named mapped propertied models) :
    models.map (·.toParticipant) = participants options.contentTypes.isIgnored linked := by
  rw [← h.map_toParticipant, h.propertied_toParticipant]

theorem wellFormed
    (h : Planned settings strategies schema options linked named mapped propertied models) :
    WellFormed (models.map (·.toParticipant)) := by
  rw [h.models_toParticipant]
  exact wellFormed_participants (Schema.wellLinked_of_link h.link)

/-- Each model completes the type at its position. -/
theorem model_eq
    (h : Planned settings strategies schema options linked named mapped propertied models) {i : Nat}
    {t : Model} (ht : models[i]? = some t) :
    propertied[i]? = some t.toPropertiedType ∧ t = Inheritance.complete
      (planOf settings strategies options.contentTypes.isIgnored linked named mapped)
      options.modelsBaseClass propertied i t.toPropertiedType := by
  rw [h.models, List.getElem?_map, List.getElem?_zipIdx, Option.map_map] at ht
  obtain ⟨u, hu, rfl⟩ := Option.map_eq_some_iff.1 ht
  simp only [Function.comp_apply, Nat.zero_add]
  exact ⟨hu, rfl⟩

end Planned

/-! ### Links between models -/

/-- The model at a position is derived from the one at another position. -/
def IsChild (models : List Model) (i j : Nat) : Prop :=
  ∃ t, models[i]? = some t ∧ t.parent = some j

/-- The model at a position has the one at another position as its parent or as a mixin. -/
def IsLinked (models : List Model) (i j : Nat) : Prop :=
  ∃ t, models[i]? = some t ∧ (t.parent = some j ∨ j ∈ t.mixins)

theorem follows_parentAt (models : List Model) :
    Follows (parentAt (models.map (·.toParticipant))) = IsChild models := by
  funext i j
  unfold Follows parentAt IsChild
  rw [List.getElem?_map]
  cases models[i]? <;> simp

theorem leads_links (models : List Model) :
    Leads (links (models.map (·.toParticipant))) = IsLinked models := by
  funext i j
  unfold IsLinked
  rw [leads_iff, follows_parentAt, List.getElem?_map]
  unfold IsChild
  cases models[i]? <;> simp

/-! ### An example -/

/-- A content type with one property. -/
def typeWith (id : Int) (aliasName : String) (parentId : Option Int) (compositionIds : List Int) :
    ContentType where
  id
  aliasName
  parentId
  kind := .content
  name := ""
  description := none
  variations := .nothing
  compositionIds
  properties := [⟨aliasName ++ "Text", "", "", none, .nothing, none⟩]

/-- A page and news derived from it, with compositions that are composed of each other. -/
def newsSchema : List ContentType :=
  [typeWith 1 "page" none [2], typeWith 2 "seo" none [3], typeWith 3 "meta" none [2],
    typeWith 4 "news" (some 1) []]

/-- What links the models for pages and news, and how many properties they have. -/
theorem exists_build_newsSchema :
    ∃ m, build .standard (.standard .standard) newsSchema .empty = .ok m ∧
      m.models.map (fun t : Model => (t.parent, t.mixins, t.properties.length)) =
        [(none, [1], 1), (none, [2], 1), (none, [1], 1), (some 0, [], 1)] :=
  Outcome.exists_of_toOption_map (by decide +kernel)

end CodeModel
end ContentModels

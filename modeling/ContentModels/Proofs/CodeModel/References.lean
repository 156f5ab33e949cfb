import ContentModels.Proofs.CodeModel.Build

/-!
# References between models

All that a model refers to is there: its parent and its mixins, the interfaces that it
names, and the properties that it has from mixins (`refersToGenerated`).  What a property
is read through is a mixin as well, and the class is an instance of its interface: the
interface is one that the class is generated or declared with, or one that such an interface
extends, directly or not.

An interface counts as declared by its simple name, without namespace and type arguments.
-/

namespace ContentModels

open Relation

/-! ### Interfaces -/

namespace Inheritance

variable {settings : Settings} {ts : List PropertiedType} {t : PropertiedType} {name : String}

theorem mem_mixinInterfaces :
    name ∈ mixinInterfaces ts t ↔ ∃ m ∈ t.mixins, ∃ u, ts[m]? = some u ∧ u.interfaceName = name := by
  simp [mixinInterfaces, List.mem_filterMap, Option.map_eq_some_iff]

/-- A class gets the interfaces of its mixins, and its own if it is one, unless they are declared. -/
theorem mem_interfaces
    {declared : List String} :
    name ∈ interfaces declared ts t ↔
      (name ∈ mixinInterfaces ts t ∨ t.isMixin = true ∧ name = t.interfaceName) ∧
        ∀ d ∈ declared, simpleName d ≠ name := by
  unfold interfaces
  rw [mem_foldl_addOnce]
  cases t.isMixin <;> simp [or_and_right]

/-- The interface of the parent of a type. -/
def parentInterface (ts : List PropertiedType) (t : PropertiedType) : Option String :=
  t.parent.bind fun p => ts[p]?.map (·.interfaceName)

/-- The interface of a mixin extends that of the parent and those of the mixins, if there are any. -/
theorem interfaceBases_eq :
    interfaceBases settings ts t =
      if (mixinInterfaces ts t).foldl addOnce (parentInterface ts t).toList = [] then
        [settings.baseInterface t.type.kind]
      else (mixinInterfaces ts t).foldl addOnce (parentInterface ts t).toList := by
  unfold interfaceBases parentInterface
  dsimp only
  cases (mixinInterfaces ts t).foldl addOnce
      (t.parent.bind fun p => ts[p]?.map (·.interfaceName)).toList with
  | nil => rfl
  | cons base bases => rfl

theorem mem_interfaceBases_of_link
    (h : parentInterface ts t = some name ∨ name ∈ mixinInterfaces ts t) :
    name ∈ interfaceBases settings ts t := by
  have hmem : name ∈ (mixinInterfaces ts t).foldl addOnce (parentInterface ts t).toList := by
    rw [mem_foldl_addOnce, Option.mem_toList]
    exact h
  rwa [interfaceBases_eq, if_neg (List.ne_nil_of_mem hmem)]

theorem of_mem_interfaceBases
    (h : name ∈ interfaceBases settings ts t) :
    (parentInterface ts t = some name ∨ name ∈ mixinInterfaces ts t) ∨
      name = settings.baseInterface t.type.kind := by
  rw [interfaceBases_eq] at h
  split at h
  · exact .inr (List.mem_singleton.1 h)
  · rw [mem_foldl_addOnce, Option.mem_toList] at h
    exact .inl h

end Inheritance

theorem ContentTypeOptions.interfaces_mapAliases
    {o mapped : ContentTypeOptions} {map : Keyed String}
    (h : o.mapAliases map = .ok mapped) :
    mapped.interfaces = o.interfaces := by
  unfold mapAliases at h
  split at h
  · cases h
  · cases h
    rfl

namespace Properties

theorem ne_ignored_of_state
    {options : List PropertyOptions} {aliasName : String} {s : PropertyState}
    (h : state options aliasName (s == .ignored) = .generate) :
    s ≠ .ignored := by
  rintro rfl
  cases h

/-- A property that a type has from a mixin is a property of a type that it introduces. -/
theorem mem_mixed
    {plan : Plan} {ts : List PropertiedType} {i : Nat} {t : PropertiedType} {x : MixedProperty}
    (h : x ∈ mixed plan ts i t) :
    x.mixin ∈ Hierarchy.introduced (ts.map (·.toParticipant)) i ∧
      ∃ u, ts[x.mixin]? = some u ∧ ∃ p, u.properties[x.property]? = some p ∧
        x.state = state (plan.options.ofClass t.name) p.type.aliasName (p.state == .ignored) := by
  obtain ⟨m, hm, hx⟩ := List.mem_flatMap.1 h
  obtain ⟨y, hy, rfl⟩ := List.mem_map.1 hx
  cases hu : ts[m]? with
  | none => simp [hu] at hy
  | some u =>
    rw [hu] at hy
    obtain ⟨k, hk⟩ := List.mem_iff_getElem?.1 hy
    rw [List.getElem?_zipIdx] at hk
    obtain ⟨p, hp, rfl⟩ := Option.map_eq_some_iff.1 hk
    exact ⟨hm, u, rfl, p, by simpa using hp, rfl⟩

end Properties

/-! ### What models refer to -/

/-- An interface is that of a mixin, so it is generated. -/
def IsMixinInterface (models : List Model) (name : String) : Prop :=
  ∃ t ∈ models, t.isMixin = true ∧ t.interfaceName = name

/-- The generated interface of a mixin extends another one. -/
def ExtendsInterface (models : List Model) (name base : String) : Prop :=
  ∃ t ∈ models, t.isMixin = true ∧ t.interfaceName = name ∧ base ∈ t.interfaceBases

/-- A class is generated or declared with an interface. -/
def Model.HasInterface (t : Model) (declared : List String) (name : String) : Prop :=
  name ∈ t.interfaces ∨ ∃ d ∈ declared, Inheritance.simpleName d = name

/-- All that a model refers to is generated, when code declares some interfaces for its class. -/
structure Model.RefersToGenerated
    (settings : Settings) (declared : List String) (models : List Model) (t : Model) : Prop where
  parent_lt : ∀ p, t.parent = some p → p < models.length
  parent_isMixin : t.isMixin = true → ∀ p, t.parent = some p →
    ∃ u, models[p]? = some u ∧ u.isMixin = true
  mixins : ∀ i ∈ t.mixins, ∃ u, models[i]? = some u ∧ u.isMixin = true
  interfaces : ∀ name ∈ t.interfaces, IsMixinInterface models name
  interfaceBases : ∀ name ∈ t.interfaceBases,
    IsMixinInterface models name ∨ name = settings.baseInterface t.type.kind
  mixed : ∀ x ∈ t.mixedProperties, ∃ u p, models[x.mixin]? = some u ∧ u.isMixin = true ∧
    u.properties[x.property]? = some p ∧
    (x.state = .generate → p.state ≠ .ignored ∧ ∃ name, t.HasInterface declared name ∧
      ReflTransGen (ExtendsInterface models) name u.interfaceName)

namespace CodeModel

open Hierarchy Inheritance Walk

variable {settings : Settings} {strategies : Strategies} {schema : List ContentType}
  {options : CodeOptions} {m : CodeModel} {linked : List Schema.LinkedType}
  {named : List NamedType} {mapped : ContentTypeOptions} {propertied : List PropertiedType}

theorem isMixinAt_iff
    {models : List Model} {i : Nat} :
    IsMixinAt (models.map (·.toParticipant)) i ↔ ∃ t, models[i]? = some t ∧ t.isMixin = true := by
  unfold IsMixinAt
  rw [List.getElem?_map]
  cases models[i]? <;> simp

namespace Built

variable {i j : Nat} {t u : Model} {name : String}

/-- The interfaces on a class, by those that code declares. -/
theorem interfaces_eq
    (h : Built settings strategies schema options linked named mapped propertied m)
    (ht : m.models[i]? = some t) :
    t.interfaces =
      interfaces (options.contentTypes.interfacesOf t.name) propertied t.toPropertiedType := by
  have hmapped : mapped.interfaces = options.contentTypes.interfaces :=
    ContentTypeOptions.interfaces_mapAliases h.map
  have heq := congrArg Model.interfaces (h.model_eq ht).2
  rw [heq]
  unfold ContentTypeOptions.interfacesOf
  rw [← hmapped]
  rfl

/-- The interface that a model with another one as parent or mixin extends. -/
theorem interface_of_link
    (h : Built settings strategies schema options linked named mapped propertied m)
    (ht : m.models[i]? = some t) (hu : m.models[j]? = some u) (hlink : IsLinked m.models i j) :
    parentInterface propertied t.toPropertiedType = some u.interfaceName ∨
      u.interfaceName ∈ mixinInterfaces propertied t.toPropertiedType := by
  obtain ⟨s, hs, hlink⟩ := hlink
  obtain rfl : t = s := Option.some.inj (ht.symm.trans hs)
  have hget := (h.model_eq hu).1
  rcases hlink with hparent | hmixin
  · refine .inl ?_
    unfold parentInterface
    rw [hparent, Option.bind_some, hget]
    rfl
  · exact .inr (mem_mixinInterfaces.2 ⟨j, hmixin, _, hget, rfl⟩)

/-- The link that an interface of a parent or mixin comes from. -/
theorem link_of_interface
    (h : Built settings strategies schema options linked named mapped propertied m)
    (ht : m.models[i]? = some t)
    (hname : parentInterface propertied t.toPropertiedType = some name ∨
      name ∈ mixinInterfaces propertied t.toPropertiedType) :
    ∃ (j : Nat) (u : Model),
      IsLinked m.models i j ∧ m.models[j]? = some u ∧ u.interfaceName = name := by
  have hmodel : ∀ {j : Nat} {v : PropertiedType}, propertied[j]? = some v →
      ∃ u : Model, m.models[j]? = some u ∧ u.toPropertiedType = v := by
    intro j v hv
    rw [← h.models_toPropertiedType, List.getElem?_map] at hv
    exact Option.map_eq_some_iff.1 hv
  rcases hname with hparent | hmixin
  · obtain ⟨j, hj, hparent⟩ := Option.bind_eq_some_iff.1 hparent
    obtain ⟨v, hv, rfl⟩ := Option.map_eq_some_iff.1 hparent
    obtain ⟨u, hu, rfl⟩ := hmodel hv
    exact ⟨j, u, ⟨t, ht, .inl hj⟩, hu, rfl⟩
  · obtain ⟨j, hj, v, hv, rfl⟩ := mem_mixinInterfaces.1 hmixin
    obtain ⟨u, hu, rfl⟩ := hmodel hv
    exact ⟨j, u, ⟨t, ht, .inr hj⟩, hu, rfl⟩

/-- What a mixin is linked to is a mixin, and its interface extends that of the other. -/
theorem extendsInterface
    (h : Built settings strategies schema options linked named mapped propertied m)
    (ht : m.models[i]? = some t) (hmixin : t.isMixin = true) (hlink : IsLinked m.models i j) :
    ∃ u, m.models[j]? = some u ∧ u.isMixin = true ∧
      ExtendsInterface m.models t.interfaceName u.interfaceName := by
  have hj := h.wellFormed.isMixinAt_of_leads (isMixinAt_iff.2 ⟨t, ht, hmixin⟩)
    (by rw [leads_links]; exact hlink)
  obtain ⟨u, hu, humixin⟩ := isMixinAt_iff.1 hj
  refine ⟨u, hu, humixin, t, List.mem_of_getElem? ht, hmixin, rfl, ?_⟩
  have hbases := congrArg Model.interfaceBases (h.model_eq ht).2
  simp only [complete, hmixin, if_true] at hbases
  rw [hbases]
  exact mem_interfaceBases_of_link (h.interface_of_link ht hu hlink)

/-- The interface of a mixin leads to the interfaces of all that the mixin reaches. -/
theorem extendsInterface_of_reaches
    (h : Built settings strategies schema options linked named mapped propertied m)
    (ht : m.models[i]? = some t) (hmixin : t.isMixin = true)
    (hreach : ReflTransGen (IsLinked m.models) i j) :
    ∃ u, m.models[j]? = some u ∧ u.isMixin = true ∧
      ReflTransGen (ExtendsInterface m.models) t.interfaceName u.interfaceName := by
  induction hreach with
  | refl => exact ⟨t, ht, hmixin, .refl⟩
  | tail _ hlink ih =>
    obtain ⟨v, hv, hvmixin, hpath⟩ := ih
    obtain ⟨u, hu, humixin, hext⟩ := h.extendsInterface hv hvmixin hlink
    exact ⟨u, hu, humixin, hpath.tail hext⟩

/-- A class is generated or declared with the interface of each of its mixins. -/
theorem hasInterface_of_mixin
    (h : Built settings strategies schema options linked named mapped propertied m)
    (ht : m.models[i]? = some t) (hj : j ∈ t.mixins) (hu : m.models[j]? = some u) :
    t.HasInterface (options.contentTypes.interfacesOf t.name) u.interfaceName := by
  unfold Model.HasInterface
  by_cases hdeclared : ∃ d ∈ options.contentTypes.interfacesOf t.name,
      simpleName d = u.interfaceName
  · exact .inr hdeclared
  · refine .inl ?_
    rw [h.interfaces_eq ht, mem_interfaces]
    refine ⟨.inl (mem_mixinInterfaces.2 ⟨j, hj, _, (h.model_eq hu).1, rfl⟩), fun d hd heq => ?_⟩
    exact hdeclared ⟨d, hd, heq⟩

/-- A property that a class has from a mixin, and how the class is an instance of the mixin's interface. -/
theorem mixed_refers
    (h : Built settings strategies schema options linked named mapped propertied m)
    (ht : m.models[i]? = some t) {x : MixedProperty} (hx : x ∈ t.mixedProperties) :
    ∃ u p, m.models[x.mixin]? = some u ∧ u.isMixin = true ∧
      u.properties[x.property]? = some p ∧
      (x.state = .generate → p.state ≠ .ignored ∧
        ∃ name, t.HasInterface (options.contentTypes.interfacesOf t.name) name ∧
          ReflTransGen (ExtendsInterface m.models) name u.interfaceName) := by
  have hmixed := congrArg Model.mixedProperties (h.model_eq ht).2
  rw [hmixed] at hx
  obtain ⟨hj, v, hv, p, hp, hstate⟩ := Properties.mem_mixed hx
  rw [h.propertied_toParticipant] at hj
  obtain ⟨s, k, hs, hk, hreach⟩ := exists_mixin_of_introduced hj
  obtain rfl : t.toParticipant = s := by
    rw [List.getElem?_map, ht] at hs
    exact Option.some.inj hs
  obtain ⟨w, hw, hwmixin⟩ := isMixinAt_iff.1
    (h.wellFormed.isMixinAt_of_mixin (List.mem_of_getElem? hs) hk)
  rw [leads_links] at hreach
  obtain ⟨u, hu, humixin, hpath⟩ := h.extendsInterface_of_reaches hw hwmixin hreach
  have huv : u.toPropertiedType = v := Option.some.inj ((h.model_eq hu).1.symm.trans hv)
  subst huv
  refine ⟨u, p, hu, humixin, hp, fun hgenerate => ⟨?_, w.interfaceName, ?_, hpath⟩⟩
  · rw [hgenerate] at hstate
    exact Properties.ne_ignored_of_state hstate.symm
  · exact h.hasInterface_of_mixin ht hk hw

/-- The interface of something that a model is linked to is generated if the other is a mixin. -/
theorem isMixinInterface_of_link
    (h : Built settings strategies schema options linked named mapped propertied m)
    (ht : m.models[i]? = some t)
    (hmixin : ∀ j, IsLinked m.models i j → IsMixinAt (m.models.map (·.toParticipant)) j)
    (hname : parentInterface propertied t.toPropertiedType = some name ∨
      name ∈ mixinInterfaces propertied t.toPropertiedType) :
    IsMixinInterface m.models name := by
  obtain ⟨j, u, hlink, hu, rfl⟩ := h.link_of_interface ht hname
  obtain ⟨v, hv, hvmixin⟩ := isMixinAt_iff.1 (hmixin j hlink)
  obtain rfl : u = v := Option.some.inj (hu.symm.trans hv)
  exact ⟨u, List.mem_of_getElem? hu, hvmixin, rfl⟩

end Built

/-- All that the models of a code model refer to is generated. -/
theorem refersToGenerated
    (h : build settings strategies schema options = .ok m) :
    ∀ t ∈ m.models,
      t.RefersToGenerated settings (options.contentTypes.interfacesOf t.name) m.models := by
  obtain ⟨linked, named, mapped, propertied, hbuilt⟩ := exists_built h
  intro t ht
  obtain ⟨i, hi⟩ := List.mem_iff_getElem?.1 ht
  have hp : (m.models.map (·.toParticipant))[i]? = some t.toParticipant := by
    rw [List.getElem?_map, hi]
    rfl
  have hwell := hbuilt.wellFormed
  have hmixins : ∀ j ∈ t.mixins, IsMixinAt (m.models.map (·.toParticipant)) j := fun j hj =>
    hwell.isMixinAt_of_mixin (List.mem_of_getElem? hp) hj
  have hparent : ∀ p, t.parent = some p →
      parentAt (m.models.map (·.toParticipant)) i = some p := fun p htp =>
    Option.bind_eq_some_iff.2 ⟨_, hp, htp⟩
  have hlinks : t.isMixin = true → ∀ j, IsLinked m.models i j →
      IsMixinAt (m.models.map (·.toParticipant)) j := fun hmixin j hlink =>
    hwell.isMixinAt_of_leads ⟨_, hp, hmixin⟩ (by rw [leads_links]; exact hlink)
  refine ⟨fun p htp => ?_, fun hmixin p htp => ?_, fun j hj => ?_, fun name hname => ?_,
    fun name hname => ?_, fun x hx => hbuilt.mixed_refers hi hx⟩
  · simpa using hwell.parent_lt (hparent p htp)
  · exact isMixinAt_iff.1 (hlinks hmixin p ⟨t, hi, .inl htp⟩)
  · exact isMixinAt_iff.1 (hmixins j hj)
  · rw [hbuilt.interfaces_eq hi, mem_interfaces] at hname
    rcases hname.1 with hname | ⟨hmixin, rfl⟩
    · obtain ⟨j, hj, u, hu, rfl⟩ := mem_mixinInterfaces.1 hname
      obtain ⟨v, hv, hvmixin⟩ := isMixinAt_iff.1 (hmixins j hj)
      have huv : v.toPropertiedType = u := Option.some.inj ((hbuilt.model_eq hv).1.symm.trans hu)
      exact ⟨v, List.mem_of_getElem? hv, hvmixin, huv ▸ rfl⟩
    · exact ⟨t, ht, hmixin, rfl⟩
  · have hbases := congrArg Model.interfaceBases (hbuilt.model_eq hi).2
    by_cases hmixin : t.isMixin = true
    · simp only [complete, hmixin, if_true] at hbases
      rw [hbases] at hname
      exact (of_mem_interfaceBases hname).imp_left
        (hbuilt.isMixinInterface_of_link hi (hlinks hmixin))
    · simp only [complete, hmixin] at hbases
      rw [hbases] at hname
      cases hname

/-- Pages and news refer to interfaces that are generated. -/
theorem refersToGenerated_news :
    ∃ m, build .standard (.standard .standard) newsSchema .empty = .ok m ∧ m.models ≠ [] ∧
      ∀ t ∈ m.models,
        t.RefersToGenerated .standard (CodeOptions.empty.contentTypes.interfacesOf t.name)
          m.models := by
  obtain ⟨m, hbuild, hshape⟩ := exists_build_newsSchema
  refine ⟨m, hbuild, fun hnil => ?_, refersToGenerated hbuild⟩
  rw [hnil] at hshape
  cases hshape

end CodeModel
end ContentModels

import ContentModels.Proofs.CodeModel.Aliases
import ContentModels.Proofs.CombinedFiles
import ContentModels.Proofs.Generated.MemberNames

/-!
# Properties that code implements

A marker on a property or a method in the code of users says that a property of a model is
implemented: of the class that the member stands in, or of the class for an alias.  What is
generated leaves the property to the code then (`leavesToCode`): the class has no accessor for
it, be it an own property or one of a mixin, and there is no extension method for it.  The
interface of a mixin asks for all properties of the mixin all the same, since it is other
classes that implement it.
-/

namespace ContentModels

open CSharp Generated Outcome

/-! ## Markers -/

/-- What the arguments of a marker say to be implemented, on a member of a class. -/
def Marker.implementedBy (className : String) : List AttributeValue → Option (TypeKey × String)
  | [.str property] => some (.className className, property)
  | [.str aliasName, .str property] => some (.typeAlias aliasName, property)
  | _ => none

/-- Whether a member can implement a property of a model. -/
def CSharp.Member.canImplement (x : Member) : Bool :=
  match x.kind with
  | .property _ | .method _ _ => true
  | _ => false

/-- A type in code says that a property of a content type is implemented, whatever the letter case. -/
def CSharp.TypeDeclaration.Implements
    (d : TypeDeclaration) (c : Compilation) (t : NamedType) (property : String) : Prop :=
  ∃ x ∈ d.members, x.canImplement = true ∧ ∃ a ∈ x.attributes,
    Marker.identify? a c (.ofType d) = some .implementProperty ∧
      ∃ y ∈ Marker.implementedBy d.name a.positional, y.1.names t = true ∧
        Text.agreeIgnoringCase y.2 property = true

instance (d : TypeDeclaration) (c : Compilation) (t : NamedType) (property : String) :
    Decidable (d.Implements c t property) :=
  inferInstanceAs (Decidable (∃ x ∈ d.members, _))

/-- The code of users says that a property of a content type is implemented. -/
def CSharp.Compilation.Implements (c : Compilation) (t : NamedType) (property : String) : Prop :=
  ∃ d ∈ FactReader.modelParts c, d.Implements c t property

instance (c : Compilation) (t : NamedType) (property : String) :
    Decidable (c.Implements t property) :=
  inferInstanceAs (Decidable (∃ d ∈ FactReader.modelParts c, d.Implements c t property))

namespace FactReader

variable {r : FactReader} {c : Compilation} {d : TypeDeclaration} {key : TypeKey}
  {property : String}

/-- The texts of a marker, by what they say to be implemented. -/
theorem textArguments_of_implementedBy
    (file : String) {a : AttributeUse}
    (h : Marker.implementedBy d.name a.positional = some (key, property)) :
    (key = .className d.name ∧
        Marker.implementProperty.textArguments a file [1, 2] = .ok [property]) ∨
      ∃ aliasName, key = .typeAlias aliasName ∧
        Marker.implementProperty.textArguments a file [1, 2] = .ok [aliasName, property] := by
  unfold Marker.textArguments
  unfold Marker.implementedBy at h
  split at h
  · rename_i hvalues
    cases h
    rw [hvalues]
    exact .inl ⟨rfl, rfl⟩
  · rename_i hvalues
    cases h
    rw [hvalues]
    exact .inr ⟨_, rfl, rfl⟩
  · cases h

theorem memberFact_of_implementedBy
    {file : String} {x : Member} {a : AttributeUse} (hx : x.canImplement = true)
    (hmarker : Marker.identify? a c (.ofType d) = some .implementProperty)
    (hargs : Marker.implementedBy d.name a.positional = some (key, property)) :
    memberFact c d file x a = [.ok (.implementProperty key property)] := by
  have hkind : (∃ accessors, x.kind = .property accessors) ∨
      ∃ parameters result, x.kind = .method parameters result := by
    unfold Member.canImplement at hx
    split at hx
    · rename_i hkind
      exact .inl ⟨_, hkind⟩
    · rename_i hkind
      exact .inr ⟨_, _, hkind⟩
    · cases hx
  have htexts := textArguments_of_implementedBy file hargs
  unfold memberFact
  rw [if_pos hmarker]
  rcases hkind with ⟨_, hkind⟩ | ⟨_, _, hkind⟩ <;> rw [hkind] <;>
    rcases htexts with ⟨rfl, htexts⟩ | ⟨aliasName, rfl, htexts⟩ <;> simp only [htexts]

/-- What a type says to be implemented is found. -/
theorem mem_findings_of_implements
    {t : NamedType} (hd : d ∈ modelParts c) (h : d.Implements c t property) :
    ∃ key written, .ok (.implementProperty key written) ∈ r.findings c ∧
      key.names t = true ∧ Text.agreeIgnoringCase written property = true := by
  obtain ⟨x, hx, hkind, a, ha, hmarker, ⟨key, written⟩, hargs, hkey, hproperty⟩ := h
  refine ⟨key, written, ?_, hkey, hproperty⟩
  unfold modelParts at hd
  obtain ⟨u, hu, hd⟩ := List.mem_flatMap.1 hd
  obtain ⟨hu, hgenerated⟩ := List.mem_filter.1 hu
  refine List.mem_flatMap.2 ⟨u, hu, ?_⟩
  unfold unitFacts
  rw [if_neg (by simpa using hgenerated)]
  refine List.mem_append_right _ (List.mem_flatMap.2 ⟨d, hd, ?_⟩)
  unfold typeFacts
  refine List.mem_append_right _ (List.mem_flatMap.2 ⟨x, hx, ?_⟩)
  unfold memberFacts
  refine List.mem_append_right _ (List.mem_flatMap.2 ⟨a, ha, ?_⟩)
  rw [memberFact_of_implementedBy hkind hmarker hargs]
  exact List.mem_cons_self

end FactReader

/-! ## Decisions -/

namespace Properties

/-- What is implemented is not generated. -/
theorem state_ne_generate
    {options : List PropertyOptions} {aliasName : String}
    (h : options.any (·.isImplemented aliasName) = true) (excluded : Bool) :
    state options aliasName excluded ≠ .generate := by
  unfold state
  rw [if_pos h]
  split <;> decide

end Properties

namespace CodeModel.Built

open ContentTypeOptions PropertyOptions

variable {settings : Settings} {strategies : Strategies} {schema : List ContentType}
  {options : CodeOptions} {m : CodeModel} {linked : List Schema.LinkedType}
  {named : List NamedType} {mapped : ContentTypeOptions} {propertied : List PropertiedType}
  {t mixin : Model} {p : ModelProperty} {x : MixedProperty}

/-- A class decides on its own properties by its options. -/
theorem state_own
    (h : Built settings strategies schema options linked named mapped propertied m)
    (ht : t ∈ m.models) (hp : p ∈ t.properties) :
    ∃ excluded, p.state = Properties.state (mapped.ofClass t.name) p.type.aliasName excluded := by
  obtain ⟨i, hi⟩ := List.mem_iff_getElem?.1 hp
  obtain ⟨q, -, hproperty⟩ := exists_of_mapM (h.mapM_property ht) hi
  obtain ⟨rfl, hstate, -⟩ := Properties.property_eq_ok hproperty
  exact ⟨_, hstate⟩

/-- A class decides by its options on the properties that it has from mixins. -/
theorem state_mixed
    (h : Built settings strategies schema options linked named mapped propertied m)
    (ht : t ∈ m.models) (hx : x ∈ t.mixedProperties) (hmixin : m.models[x.mixin]? = some mixin)
    (hp : mixin.properties[x.property]? = some p) :
    ∃ excluded, x.state = Properties.state (mapped.ofClass t.name) p.type.aliasName excluded := by
  obtain ⟨i, hi⟩ := List.mem_iff_getElem?.1 ht
  rw [congrArg Model.mixedProperties (h.model_eq hi).2] at hx
  obtain ⟨-, u, hu, q, hq, hstate⟩ := Properties.mem_mixed hx
  obtain rfl : mixin.toPropertiedType = u := Option.some.inj ((h.model_eq hmixin).1.symm.trans hu)
  obtain rfl : p = q := Option.some.inj (hp.symm.trans hq)
  exact ⟨_, hstate⟩

end CodeModel.Built

/-! ## What is written -/

namespace Generated.Layout

variable {l : Layout} {models : List Model} {t : Model} {w : WrittenMember}

/-- The members of a class: those that every class has, and getters and accessors of properties. -/
theorem of_mem_members_writtenClass
    (h : w ∈ (l.writtenClass models t).members) :
    w ∈ writtenHelpers t ∨ w.isConstructor = true ∨ "static" ∈ w.modifiers ∨
      ∃ p value, w = l.writtenAccessor p value ∧
        ((p ∈ t.properties ∧ p.state = .generate) ∨
          ∃ x ∈ t.mixedProperties, x.state = .generate ∧ ∃ mixin, models[x.mixin]? = some mixin ∧
            mixin.properties[x.property]? = some p) := by
  rw [members_writtenClass, List.mem_append, List.mem_append] at h
  rcases h with (h | h) | h
  · exact .inl h
  · split at h
    · cases h
    · obtain rfl := List.mem_singleton.1 h
      exact .inr (.inl rfl)
  · obtain ⟨x, hx, rfl⟩ := List.mem_map.1 h
    unfold propertyMembers at hx
    split at hx
    · rcases List.mem_append.1 hx with hx | hx
      · obtain ⟨y, hy, hx⟩ := List.mem_filterMap.1 hx
        obtain ⟨mixin, hmixin, hx⟩ := Option.bind_eq_some_iff.1 hx
        obtain ⟨p, hp, rfl⟩ := Option.map_eq_some_iff.1 hx
        obtain ⟨hy, hstate⟩ := List.mem_filter.1 hy
        exact .inr (.inr (.inr
          ⟨p, _, rfl, .inr ⟨y, hy, by simpa using hstate, mixin, hmixin, hp⟩⟩))
      · obtain ⟨p, hp, hx⟩ := List.mem_flatMap.1 hx
        rcases List.mem_append.1 hx with hx | hx
        · split at hx
          · rename_i hstate
            obtain rfl := List.mem_singleton.1 hx
            exact .inr (.inr (.inr
              ⟨p, _, rfl, .inl ⟨(List.mem_filter.1 hp).1, by simpa using hstate⟩⟩))
          · cases hx
        · split at hx
          · obtain rfl := List.mem_singleton.1 hx
            exact .inr (.inr (.inl (by simp [writtenClassMember, writtenGetter])))
          · cases hx
    · cases hx

/-- What is written leaves a property of a model to the code of users. -/
structure LeavesToCode (l : Layout) (models : List Model) (t : Model) (property : String) :
    Prop where
  /-- The accessors of the class, which are its members without `static`, are for other properties. -/
  accessors : ∀ w ∈ (l.writtenClass models t).members,
    w ∈ writtenHelpers t ∨ w.isConstructor = true ∨ "static" ∈ w.modifiers ∨
      ∃ p value, w = l.writtenAccessor p value ∧
        Text.agreeIgnoringCase p.type.aliasName property = false
  /-- So are the extension methods. -/
  extensions : ∀ w ∈ (l.writtenExtensions t).members,
    ∃ p ∈ t.properties, Text.agreeIgnoringCase p.type.aliasName property = false ∧
      w = l.writtenGetter (summary "\t\t" p.type.name p.type.description) true t.extended p
  /-- The interfaces of mixins still ask for the property, unless the mixin leaves it out. -/
  interfaces : l.settings.propertyStyle.hasMembers = true →
    ∀ mixin ∈ models, mixin.isMixin = true → ∀ p ∈ mixin.properties, p.state ≠ .ignored →
      Text.agreeIgnoringCase p.type.aliasName property = true →
        l.writtenInterface mixin ∈ l.writtenTypes models mixin ∧
          l.writtenInterfaceProperty p ∈ (l.writtenInterface mixin).members

/-- The interface of a mixin asks for all that the mixin does not leave out. -/
theorem mem_members_writtenInterface
    {mixin : Model} {p : ModelProperty} (hstyle : l.settings.propertyStyle.hasMembers = true)
    (hp : p ∈ mixin.properties) (hstate : p.state ≠ .ignored) :
    l.writtenInterfaceProperty p ∈ (l.writtenInterface mixin).members := by
  rw [members_writtenInterface, if_pos hstyle]
  exact List.mem_map_of_mem (List.mem_filter.2 ⟨hp, by simpa using hstate⟩)

/-- What is not generated for a model, nor mixed in, is left to code. -/
theorem leavesToCode_of_state
    {property : String}
    (hown : ∀ p ∈ t.properties, p.state = .generate →
      Text.agreeIgnoringCase p.type.aliasName property = false)
    (hmixed : ∀ x ∈ t.mixedProperties, x.state = .generate → ∀ mixin,
      models[x.mixin]? = some mixin → ∀ p, mixin.properties[x.property]? = some p →
        Text.agreeIgnoringCase p.type.aliasName property = false) :
    l.LeavesToCode models t property where
  accessors w hw := by
    rcases of_mem_members_writtenClass hw with h | h | h | ⟨p, value, rfl, hp⟩
    · exact .inl h
    · exact .inr (.inl h)
    · exact .inr (.inr (.inl h))
    · refine .inr (.inr (.inr ⟨p, value, rfl, ?_⟩))
      rcases hp with ⟨hp, hstate⟩ | ⟨x, hx, hstate, mixin, hmixin, hp⟩
      · exact hown p hp hstate
      · exact hmixed x hx hstate mixin hmixin p hp
  extensions w hw := by
    rw [members_writtenExtensions] at hw
    obtain ⟨p, hp, rfl⟩ := List.mem_map.1 hw
    obtain ⟨hp, hstate⟩ := List.mem_filter.1 hp
    have hp := (List.mem_filter.1 hp).1
    exact ⟨p, hp, hown p hp (by simpa using hstate), rfl⟩
  interfaces hstyle mixin _ hisMixin p hp hstate _ := by
    refine ⟨?_, mem_members_writtenInterface hstyle hp hstate⟩
    unfold writtenTypes
    rw [if_pos hisMixin]
    simp

end Generated.Layout

/-! ## Passes -/

namespace Generator

variable {g : Generator} {schema : List ContentType} {sources : SourceFiles} {options : CodeOptions}
  {m : CodeModel} {out : GeneratedModels} {before after : Compilation} {t : Model}
  {property : String}

open ContentTypeOptions in
/-- What the code of users says to be implemented counts for the class. -/
theorem Pass.isImplemented_ofClass
    (h : g.Pass schema sources options m out before after) {linked : List Schema.LinkedType}
    {named : List NamedType} {mapped : ContentTypeOptions} {propertied : List PropertiedType}
    (hbuilt : CodeModel.Built g.settings g.strategies schema options linked named mapped propertied m)
    (ht : t ∈ m.models) (himplements : before.Implements t.toNamedType property)
    {aliasName : String} (halias : Text.agreeIgnoringCase aliasName property = true) :
    (mapped.ofClass t.name).any (·.isImplemented aliasName) = true := by
  obtain ⟨d, hd, himplements⟩ := himplements
  obtain ⟨key, written, hfound, hkey, hproperty⟩ :=
    g.reader.mem_findings_of_implements hd himplements
  obtain ⟨c, ds, hc, hoptions, hmem⟩ := collect_eq_ok h.collect
  obtain rfl : before = c := Except.ok.inj (h.before.symm.trans hc)
  have hdeclared : .implementProperty key written ∈ ds :=
    (hmem _).2 (.inl (.inr hfound))
  have hlower := (Text.agreeIgnoringCase_iff.1 hproperty).trans
    (Text.agreeIgnoringCase_iff.1 halias).symm
  refine hbuilt.isImplemented_ofClass ht hkey ?_
  rw [hoptions]
  exact CodeOptions.implementsAt_ofDeclarations.2
    ⟨_, hdeclared, key, written, rfl, rfl, rfl, hlower⟩

/-- What the code of users says to be implemented is left to it. -/
theorem Pass.leavesToCode_of_implements
    (h : g.Pass schema sources options m out before after) (l : Layout) (ht : t ∈ m.models)
    (himplements : before.Implements t.toNamedType property) :
    l.LeavesToCode m.models t property := by
  obtain ⟨linked, named, mapped, propertied, hbuilt⟩ := CodeModel.exists_built h.build
  refine Layout.leavesToCode_of_state (fun p hp hstate => ?_) fun x hx hstate mixin hmixin p hp => ?_
  · obtain ⟨excluded, heq⟩ := hbuilt.state_own ht hp
    refine Bool.eq_false_iff.2 fun halias => ?_
    exact Properties.state_ne_generate
      (h.isImplemented_ofClass hbuilt ht himplements halias) excluded (heq.symm.trans hstate)
  · obtain ⟨excluded, heq⟩ := hbuilt.state_mixed ht hx hmixin hp
    refine Bool.eq_false_iff.2 fun halias => ?_
    exact Properties.state_ne_generate
      (h.isImplemented_ofClass hbuilt ht himplements halias) excluded (heq.symm.trans hstate)

/--
What is generated for a model leaves to the code of users each property that the code says to
implement.
-/
theorem leavesToCode
    (h : g.generate schema sources = .ok out) :
    ∃ m before l, g.model schema sources = .ok m ∧ g.reader.compile sources = .ok before ∧
      Layout.ofSettings g.settings m.usingNamespaces = .ok l ∧
      out.texts = (m.models.map fun t =>
        (t.name, l.file m.modelsNamespace (blocks ((l.writtenTypes m.models t).map (·.lines l))))) ∧
      ∀ t ∈ m.models, ∀ property, before.Implements t.toNamedType property →
        l.LeavesToCode m.models t property := by
  obtain ⟨options, m, before, after, hpass⟩ := exists_pass h
  obtain ⟨l, hl, htexts⟩ := hpass.exists_layout
  refine ⟨m, before, l, bind_eq_ok.2 ⟨options, hpass.collect, hpass.build⟩, hpass.before, hl, ?_,
    fun t ht property himplements => hpass.leavesToCode_of_implements l ht himplements⟩
  simp only [← Layout.types_eq]
  exact htexts

/-- Code by which pages implement a property of their own and one of a mixin. -/
def implementedSources : SourceFiles :=
  .ofList [("Page.cs", "namespace Umbraco.Web.PublishedModels \x7b public partial class Page \x7b " ++
    "[ImplementPropertyType(\"pageText\")] public string Text => null; " ++
    "[ImplementPropertyType(\"PAGE\", \"seoText\")] public string Seo() => null; \x7d \x7d")]

/-- Pages have neither property generated that their code implements. -/
theorem leavesToCode_page :
    ∃ (g : Generator) (out : GeneratedModels) (m : CodeModel) (l : Layout) (t : Model),
      ofSettings .standard = .ok g ∧ g.generate pageSchema implementedSources = .ok out ∧
        t ∈ m.models ∧ t.name = "Page" ∧ l.LeavesToCode m.models t "pageText" ∧
          l.LeavesToCode m.models t "SEOTEXT" := by
  obtain ⟨g, options, m, before, _, h, hshape⟩ := @exists_prepared pageSchema implementedSources
    (fun _ _ m before _ => decide (∃ t ∈ m.models, t.name = "Page" ∧
      before.Implements t.toNamedType "pageText" ∧ before.Implements t.toNamedType "SEOTEXT"))
    (by decide +kernel)
  obtain ⟨t, ht, hname, hown, hmixed⟩ := of_decide_eq_true hshape
  obtain ⟨out, hout⟩ := h.exists_generate isOneLine_pageSchema
  obtain ⟨m', before', l, hm, hbefore, -, -, hleaves⟩ := leavesToCode hout
  obtain rfl : m = m' := Except.ok.inj (h.model.symm.trans hm)
  obtain rfl : before = before' := Except.ok.inj (h.before.symm.trans hbefore)
  exact ⟨g, out, m, l, t, h.settings, hout, ht, hname, hleaves t ht _ hown, hleaves t ht _ hmixed⟩

end Generator
end ContentModels

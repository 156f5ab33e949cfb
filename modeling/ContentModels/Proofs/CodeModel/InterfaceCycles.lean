import ContentModels.Proofs.CodeModel.GeneratedNames
import ContentModels.Proofs.CodeModel.References

/-!
# Cycles of interfaces

No type may be its own ancestor, but compositions are not looked at: types may be composed of
each other, or of types that descend from them.  Such types are mixins, and the interface that
is generated for one of them then extends itself by way of the others.

So the interfaces of a code model have a cycle exactly if the types that take part have one,
through parents and compositions together, or if a generated interface goes by the name of the
one that all types of a kind have (`extendsInterface_acyclic_iff`).
-/

namespace ContentModels

open Relation Walk

namespace Hierarchy

open Schema (LinkedType)

variable {isIgnored : String → Bool} {types : List LinkedType} {i j k l : Nat}

/-- A type that takes part has another such type as its parent or as a composition. -/
def Uses (isIgnored : String → Bool) (types : List LinkedType) (i j : Nat) : Prop :=
  i ∈ kept isIgnored types ∧ j ∈ kept isIgnored types ∧
    ∃ t, types[i]? = some t ∧ (t.parent = some j ∨ j ∈ t.compositions)

/-! ### Positions -/

theorem nodup_kept :
    (kept isIgnored types).Nodup :=
  List.nodup_range.filter _

theorem idxOf?_kept_iff :
    (kept isIgnored types).idxOf? i = some k ↔ (kept isIgnored types)[k]? = some i := by
  rw [List.idxOf?_eq_some_iff, List.getElem?_eq_some_iff]
  constructor
  · rintro ⟨hlt, hget, -⟩
    exact ⟨hlt, hget⟩
  · rintro ⟨hlt, hget⟩
    refine ⟨hlt, hget, fun j hj heq => ?_⟩
    have hsame := nodup_kept.getElem_inj_iff.1 (heq.trans hget.symm)
    exact absurd hsame (Nat.ne_of_lt hj)

/-- The position of a type among those that take part. -/
theorem getElem?_idxOf_kept
    (hi : i ∈ kept isIgnored types) :
    (kept isIgnored types)[(kept isIgnored types).idxOf i]? = some i := by
  rw [List.getElem?_eq_some_iff]
  exact ⟨List.idxOf_lt_length_of_mem hi, List.getElem_idxOf _⟩

theorem placed_eq_some_iff
    {p : Participant} :
    (placed isIgnored types)[k]? = some p ↔
      ∃ i t, (kept isIgnored types)[k]? = some i ∧ types[i]? = some t ∧
        place types (kept isIgnored types) i t = p := by
  rw [getElem?_placed]
  simp only [Option.bind_eq_some_iff, Option.map_eq_some_iff]
  constructor
  · rintro ⟨i, hi, t, ht, hp⟩
    exact ⟨i, t, hi, ht, hp⟩
  · rintro ⟨i, t, hi, ht, hp⟩
    exact ⟨i, hi, t, ht, hp⟩

/-- A type leads to its parent and to its compositions, ancestors aside, if these take part. -/
theorem leads_participants_iff :
    Leads (links (participants isIgnored types)) k l ↔
      ∃ i j t, (kept isIgnored types)[k]? = some i ∧ (kept isIgnored types)[l]? = some j ∧
        types[i]? = some t ∧
          (t.parent = some j ∨ j ∈ t.compositions ∧ j ∉ Schema.ancestors types i) := by
  have hmixins : (∃ p, (participants isIgnored types)[k]? = some p ∧ l ∈ p.mixins) ↔
      ∃ p, (placed isIgnored types)[k]? = some p ∧ l ∈ p.mixins := by
    rw [getElem?_participants]
    simp
  rw [leads_iff, parentAt_participants, hmixins]
  unfold Follows parentAt
  simp only [Option.bind_eq_some_iff, placed_eq_some_iff]
  constructor
  · rintro (⟨_, ⟨i, t, hi, ht, rfl⟩, hl⟩ | ⟨_, ⟨i, t, hi, ht, rfl⟩, hl⟩)
    · obtain ⟨j, hj, hl⟩ := Option.bind_eq_some_iff.1 hl
      exact ⟨i, j, t, hi, idxOf?_kept_iff.1 hl, ht, .inl hj⟩
    · obtain ⟨j, hj, hl⟩ := List.mem_filterMap.1 hl
      refine ⟨i, j, t, hi, idxOf?_kept_iff.1 hl, ht, .inr ?_⟩
      simpa using hj
  · rintro ⟨i, j, t, hi, hj, ht, hparent | ⟨hcomposition, hderived⟩⟩
    · exact .inl ⟨_, ⟨i, t, hi, ht, rfl⟩,
        Option.bind_eq_some_iff.2 ⟨j, hparent, idxOf?_kept_iff.2 hj⟩⟩
    · exact .inr ⟨_, ⟨i, t, hi, ht, rfl⟩, List.mem_filterMap.2
        ⟨j, List.mem_filter.2 ⟨hcomposition, by simpa using hderived⟩, idxOf?_kept_iff.2 hj⟩⟩

/-! ### Cycles of types -/

theorem uses_of_leads
    (h : Leads (links (participants isIgnored types)) k l) :
    Uses isIgnored types ((kept isIgnored types).getD k 0) ((kept isIgnored types).getD l 0) := by
  obtain ⟨i, j, t, hi, hj, ht, hlink⟩ := leads_participants_iff.1 h
  simp only [List.getD_eq_getElem?_getD, hi, hj, Option.getD_some]
  exact ⟨List.mem_of_getElem? hi, List.mem_of_getElem? hj, t, ht, hlink.imp_right And.left⟩

/-- From a type that takes part its ancestors are reached by parents that take part. -/
theorem transGen_leads_of_derived
    (h : Schema.WellLinked types) (hi : i ∈ kept isIgnored types)
    (hderived : TransGen (Follows (Schema.parentAt types)) i j) :
    j ∈ kept isIgnored types ∧
      TransGen (Leads (links (participants isIgnored types)))
        ((kept isIgnored types).idxOf i) ((kept isIgnored types).idxOf j) := by
  have hstep : ∀ {i j}, i ∈ kept isIgnored types → Schema.parentAt types i = some j →
      j ∈ kept isIgnored types ∧ Leads (links (participants isIgnored types))
        ((kept isIgnored types).idxOf i) ((kept isIgnored types).idxOf j) := by
    intro i j hi hparent
    have hj := mem_kept_of_parent h hi hparent
    obtain ⟨t, ht, hparent⟩ := Option.bind_eq_some_iff.1 hparent
    exact ⟨hj, leads_participants_iff.2
      ⟨i, j, t, getElem?_idxOf_kept hi, getElem?_idxOf_kept hj, ht, .inl hparent⟩⟩
  induction hderived with
  | single hparent =>
    obtain ⟨hj, hlink⟩ := hstep hi hparent
    exact ⟨hj, .single hlink⟩
  | tail _ hparent ih =>
    obtain ⟨hj, hlink⟩ := hstep ih.1 hparent
    exact ⟨hj, ih.2.tail hlink⟩

/-- What a type uses it reaches, an ancestor that it is composed of by way of its parents. -/
theorem transGen_leads_of_uses
    (h : Schema.WellLinked types) (huses : Uses isIgnored types i j) :
    TransGen (Leads (links (participants isIgnored types)))
      ((kept isIgnored types).idxOf i) ((kept isIgnored types).idxOf j) := by
  obtain ⟨hi, hj, t, ht, hlink⟩ := huses
  by_cases hancestor : j ∈ Schema.ancestors types i
  · have hderived := (h.mem_ancestors_iff (mem_kept.1 hi).1).1 hancestor
    exact (transGen_leads_of_derived h hi hderived).2
  · exact .single (leads_participants_iff.2 ⟨i, j, t, getElem?_idxOf_kept hi,
      getElem?_idxOf_kept hj, ht, hlink.imp_right fun hcomposition => ⟨hcomposition, hancestor⟩⟩)

/-- The participants have a cycle exactly if the types that take part have one. -/
theorem acyclic_participants_iff
    (h : Schema.WellLinked types) :
    (∀ k, ¬ TransGen (Leads (links (participants isIgnored types))) k k) ↔
      ∀ i, ¬ TransGen (Uses isIgnored types) i i := by
  constructor
  · intro hacyclic i hcycle
    exact hacyclic _ (hcycle.lift' _ fun _ _ huses => transGen_leads_of_uses h huses)
  · intro hacyclic k hcycle
    exact hacyclic _ (hcycle.lift _ fun _ _ hlink => uses_of_leads hlink)

/-! ### Mixins on cycles -/

/-- What a type reaches and is no mixin, it is derived from. -/
theorem WellFormed.derived_of_not_isMixinAt
    {ps : List Participant} (h : WellFormed ps) (hreach : TransGen (Leads (links ps)) i j)
    (hj : ¬ IsMixinAt ps j) :
    TransGen (Follows (parentAt ps)) i j := by
  induction hreach with
  | single hlink =>
    rcases leads_iff.1 hlink with hparent | ⟨p, hp, hm⟩
    · exact .single hparent
    · exact absurd (h.isMixinAt_of_mixin (List.mem_of_getElem? hp) hm) hj
  | tail _ hlink ih =>
    rcases leads_iff.1 hlink with hparent | ⟨p, hp, hm⟩
    · exact (ih fun hmixin => hj (h.isMixinAt_of_leads hmixin hlink)).tail hparent
    · exact absurd (h.isMixinAt_of_mixin (List.mem_of_getElem? hp) hm) hj

/-- A cycle has a composition in it, so all on it are mixins. -/
theorem WellFormed.isMixinAt_of_cycle
    {ps : List Participant} (h : WellFormed ps) (hcycle : TransGen (Leads (links ps)) i i) :
    IsMixinAt ps i := by
  by_contra hmixin
  exact h.acyclic i (h.derived_of_not_isMixinAt hcycle hmixin)

end Hierarchy

namespace CodeModel

open Hierarchy Inheritance

variable {settings : Settings} {strategies : Strategies} {schema : List ContentType}
  {options : CodeOptions} {m : CodeModel} {linked : List Schema.LinkedType}
  {named : List NamedType} {mapped : ContentTypeOptions} {propertied : List PropertiedType}
  {i j : Nat} {t u : Model} {name base : String}

/-! ### Cycles of interfaces -/

/-- Mixins are told apart by their interfaces. -/
theorem eq_of_interfaceName
    (h : build settings strategies schema options = .ok m) (ht : t ∈ m.models)
    (hu : u ∈ m.models) (htmixin : t.isMixin = true) (humixin : u.isMixin = true)
    (hname : t.interfaceName = u.interfaceName) :
    t = u := by
  have hmem : ∀ {v : Model}, v.isMixin = true →
      v.interfaceName ∈ TypeNames.generated settings.propertyStyle v.toNamedType := by
    intro v hv
    simp [TypeNames.generated, hv]
  exact eq_of_mem_generated h ht hu (hmem htmixin) (hname ▸ hmem humixin)

theorem position_inj
    (h : build settings strategies schema options = .ok m) (hi : m.models[i]? = some t)
    (hj : m.models[j]? = some t) :
    i = j := by
  obtain ⟨hlti, hgeti⟩ := List.getElem?_eq_some_iff.1 hi
  obtain ⟨hltj, hgetj⟩ := List.getElem?_eq_some_iff.1 hj
  exact (nodup_names h).of_map.getElem_inj_iff.1 (hgeti.trans hgetj.symm)

namespace Built

/-- The interfaces of mixins lead on as the mixins do. -/
theorem transGen_extendsInterface
    (h : Built settings strategies schema options linked named mapped propertied m)
    (ht : m.models[i]? = some t) (hmixin : t.isMixin = true)
    (hreach : TransGen (IsLinked m.models) i j) :
    ∃ u, m.models[j]? = some u ∧ u.isMixin = true ∧
      TransGen (ExtendsInterface m.models) t.interfaceName u.interfaceName := by
  obtain ⟨k, hlink, hreach⟩ := TransGen.head'_iff.1 hreach
  obtain ⟨v, hv, hvmixin, hext⟩ := h.extendsInterface ht hmixin hlink
  obtain ⟨u, hu, humixin, hpath⟩ := h.extendsInterface_of_reaches hv hvmixin hreach
  exact ⟨u, hu, humixin, .head' hext hpath⟩

/-- What an interface extends is that of a type that its mixin leads to, or that of all types. -/
theorem link_of_extendsInterface
    (h : Built settings strategies schema options linked named mapped propertied m)
    (hbuild : build settings strategies schema options = .ok m)
    (ht : m.models[i]? = some t) (hmixin : t.isMixin = true)
    (hext : ExtendsInterface m.models t.interfaceName base) :
    (∃ j u, IsLinked m.models i j ∧ m.models[j]? = some u ∧ u.isMixin = true ∧
      u.interfaceName = base) ∨ base = settings.baseInterface t.type.kind := by
  obtain ⟨s, hs, hsmixin, hname, hbase⟩ := hext
  obtain rfl := eq_of_interfaceName hbuild hs (List.mem_of_getElem? ht) hsmixin hmixin hname
  have hbases := congrArg Model.interfaceBases (h.model_eq ht).2
  simp only [complete, hmixin, if_true] at hbases
  rw [hbases] at hbase
  refine (Inheritance.of_mem_interfaceBases hbase).imp_left fun hlinked => ?_
  obtain ⟨j, u, hlink, hu, hname⟩ := h.link_of_interface ht hlinked
  obtain ⟨v, hv, hvmixin, -⟩ := h.extendsInterface ht hmixin hlink
  obtain rfl : u = v := Option.some.inj (hu.symm.trans hv)
  exact ⟨j, u, hlink, hu, hvmixin, hname⟩

/--
A path of interfaces that leads back to its start, and not by way of the interface that all
types of a kind have, goes along links of mixins.
-/
theorem transGen_isLinked
    (h : Built settings strategies schema options linked named mapped propertied m)
    (hbuild : build settings strategies schema options = .ok m)
    (hbase : ∀ kind, ¬ TransGen (ExtendsInterface m.models)
      (settings.baseInterface kind) (settings.baseInterface kind))
    (ht : m.models[i]? = some t) (hmixin : t.isMixin = true)
    (hpath : TransGen (ExtendsInterface m.models) t.interfaceName name)
    (hback : ReflTransGen (ExtendsInterface m.models) name t.interfaceName) :
    ∃ j u, TransGen (IsLinked m.models) i j ∧ m.models[j]? = some u ∧ u.isMixin = true ∧
      u.interfaceName = name := by
  induction hpath with
  | @single b hext =>
    rcases h.link_of_extendsInterface hbuild ht hmixin hext with ⟨j, u, hlink, hu⟩ | rfl
    · exact ⟨j, u, .single hlink, hu⟩
    · exact absurd (.tail' hback hext) (hbase _)
  | @tail b c hfront hext ih =>
    obtain ⟨j, u, hreach, hu, humixin, rfl⟩ := ih (.head hext hback)
    rcases h.link_of_extendsInterface hbuild hu humixin hext with ⟨k, v, hlink, hv⟩ | rfl
    · exact ⟨k, v, hreach.tail hlink, hv⟩
    · exact absurd (.tail' (hback.trans hfront.to_reflTransGen) hext) (hbase _)

end Built

/--
Parents have no cycles.  The generated interfaces have none exactly if parents and compositions
together have none, and none leads by way of the interface that all types of a kind have.
-/
theorem extendsInterface_acyclic_iff
    (h : build settings strategies schema options = .ok m) :
    ∃ linked, Schema.link schema = .ok linked ∧
      (∀ i, ¬ TransGen (Follows (Schema.parentAt linked)) i i) ∧
      ((∀ name, ¬ TransGen (ExtendsInterface m.models) name name) ↔
        (∀ i, ¬ TransGen (Uses options.contentTypes.isIgnored linked) i i) ∧
          ∀ kind, ¬ TransGen (ExtendsInterface m.models)
            (settings.baseInterface kind) (settings.baseInterface kind)) := by
  obtain ⟨linked, named, mapped, propertied, hbuilt⟩ := exists_built h
  have hlinked := Schema.wellLinked_of_link hbuilt.link
  refine ⟨linked, hbuilt.link, hlinked.acyclic, ?_⟩
  rw [← acyclic_participants_iff hlinked, ← hbuilt.models_toParticipant, leads_links]
  constructor
  · refine fun hacyclic => ⟨fun i hcycle => ?_, fun kind => hacyclic _⟩
    obtain ⟨t, ht, hmixin⟩ := isMixinAt_iff.1
      (hbuilt.wellFormed.isMixinAt_of_cycle (by rw [leads_links]; exact hcycle))
    obtain ⟨u, hu, -, hpath⟩ := hbuilt.transGen_extendsInterface ht hmixin hcycle
    obtain rfl : t = u := Option.some.inj (ht.symm.trans hu)
    exact hacyclic _ hpath
  · rintro ⟨hacyclic, hbase⟩ name hcycle
    obtain ⟨_, ⟨t, htmem, hmixin, rfl, -⟩, -⟩ := TransGen.head'_iff.1 hcycle
    obtain ⟨i, ht⟩ := List.mem_iff_getElem?.1 htmem
    obtain ⟨j, u, hreach, hu, humixin, hname⟩ :=
      hbuilt.transGen_isLinked h hbase ht hmixin hcycle .refl
    obtain rfl := eq_of_interfaceName h (List.mem_of_getElem? hu) htmem humixin hmixin hname
    obtain rfl := position_inj h ht hu
    exact hacyclic i hreach

/-- Types that are composed of each other are built, and their interfaces extend each other. -/
theorem extendsInterface_acyclic_iff_news :
    ∃ m, build .standard (.standard .standard) newsSchema .empty = .ok m ∧
      TransGen (ExtendsInterface m.models) "ISeo" "ISeo" ∧
      ∃ linked, Schema.link newsSchema = .ok linked ∧
        (∀ i, ¬ TransGen (Follows (Schema.parentAt linked)) i i) ∧
        ((∀ name, ¬ TransGen (ExtendsInterface m.models) name name) ↔
          (∀ i, ¬ TransGen (Uses CodeOptions.empty.contentTypes.isIgnored linked) i i) ∧
            ∀ kind, ¬ TransGen (ExtendsInterface m.models)
              (Settings.standard.baseInterface kind) (Settings.standard.baseInterface kind)) := by
  obtain ⟨m, hbuild, hshape⟩ :
      ∃ m, build .standard (.standard .standard) newsSchema .empty = .ok m ∧
        m.models.map (fun t : Model => (t.interfaceName, t.isMixin, t.interfaceBases)) =
          [("IPage", false, []), ("ISeo", true, ["IMeta"]), ("IMeta", true, ["ISeo"]),
            ("INews", false, [])] :=
    Outcome.exists_of_toOption_map (by decide +kernel)
  have hextends : ∀ {name base : String}, (name, true, [base]) ∈ m.models.map
      (fun t : Model => (t.interfaceName, t.isMixin, t.interfaceBases)) →
        ExtendsInterface m.models name base := by
    intro name base hmem
    obtain ⟨t, ht, heq⟩ := List.mem_map.1 hmem
    simp only [Prod.mk.injEq] at heq
    obtain ⟨hname, hmixin, hbases⟩ := heq
    exact ⟨t, ht, hmixin, hname, hbases ▸ List.mem_singleton_self base⟩
  rw [hshape] at hextends
  exact ⟨m, hbuild, .tail (.single (hextends (by simp : ("ISeo", true, ["IMeta"]) ∈ _))) (hextends (by simp)),
    extendsInterface_acyclic_iff hbuild⟩

end CodeModel
end ContentModels

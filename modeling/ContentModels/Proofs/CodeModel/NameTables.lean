import ContentModels.Proofs.CodeModel.Build
import ContentModels.Proofs.CodeModel.TakingPart
import ContentModels.Proofs.ImplementedOptions

/-!
# Names by alias

Aliases of content types stand for names of classes, in options that are filed under an alias and
in the placeholders of value types.  Both tables are filled from the content types of a schema,
whose aliases differ (`foldedNames_eq`, `get?_placeholders_eq_some_iff`).
-/

namespace ContentModels

/-- A table of entries with different keys has these as its entries. -/
theorem Keyed.entries_ofList_perm
    {α : Type} {es : List (String × α)} (hnodup : (es.map (·.1)).Nodup) :
    (ofList es).entries.Perm es := by
  have hsorted : (ofList es).entries.Nodup :=
    (ofList es).sorted.imp fun hlt heq => String.ne_of_lt hlt (congrArg Prod.fst heq)
  refine (List.perm_ext_iff_of_nodup hsorted hnodup.of_map).2 fun e => ?_
  rw [show e = (e.1, e.2) from rfl, mem_entries_iff, get?_ofList_eq_some_iff hnodup]

namespace ContentTypeOptions

variable {o : ContentTypeOptions}

/-- Aliases that differ by more than letter case are folded one by one. -/
theorem foldedNames_ofList
    {es : List (String × String)} (hnodup : (es.map fun e => Text.lowercase e.1).Nodup) :
    foldedNames (.ofList es) = .ofList (es.map fun e => (Text.lowercase e.1, e.2)) := by
  have hkeys : (es.map (·.1)).Nodup := by
    refine List.Nodup.of_map Text.lowercase ?_
    rwa [List.map_map]
  have hperm := (Keyed.entries_ofList_perm hkeys).map fun e => (Text.lowercase e.1, e.2)
  refine (Keyed.ofList_perm ?_ hperm.symm).symm
  rwa [List.map_map]

/-- Only the names for aliases under which options are filed count. -/
theorem mapAliases_congr
    {map map' : Keyed String}
    (h : ∀ e ∈ o.byAlias.entries, (foldedNames map').get? e.1 = (foldedNames map).get? e.1) :
    o.mapAliases map' = o.mapAliases map := by
  unfold mapAliases
  split
  · rfl
  · refine congrArg (fun byClass => Except.ok
      { o with byAlias := Keyed.empty, byClass := byClass, mapped := true }) ?_
    refine List.foldl_ext _ _ _ fun t e he => ?_
    have hname := h e he
    unfold foldedNames at hname
    rw [hname]

end ContentTypeOptions

namespace Hierarchy

open Schema (IsLeftOut takingPart)

variable {isIgnored : String → Bool} {types : List ContentType} {linked : List Schema.LinkedType}

theorem sublist_dropped
    (h : Schema.Reflects types linked) :
    (dropped isIgnored linked).Sublist types := by
  have htypes : linked.zipIdx.map (·.1.type) = types := by
    calc linked.zipIdx.map (·.1.type)
        = (linked.zipIdx.map Prod.fst).map (·.type) := List.map_map.symm
      _ = types := by rw [List.zipIdx_map_fst, h.map_type]
  have hsublist : (dropped isIgnored linked).Sublist (linked.zipIdx.map (·.1.type)) :=
    List.filter_sublist.map _
  rwa [htypes] at hsublist

/-- What is dropped are the types that are left out. -/
theorem mem_dropped_iff
    (h : Schema.Reflects types linked) {t : ContentType} :
    t ∈ dropped isIgnored linked ↔ t ∈ types ∧ IsLeftOut isIgnored types t := by
  unfold dropped
  rw [List.mem_map]
  constructor
  · rintro ⟨⟨l, i⟩, hx, rfl⟩
    obtain ⟨hl, hdropped⟩ := List.mem_filter.1 hx
    have ht : types[i]? = some l.type := by
      rw [h.getElem?_eq, List.mem_zipIdx_iff_getElem?.1 hl]
      rfl
    exact ⟨List.mem_of_getElem? ht, (isDropped_iff h ht).1 hdropped⟩
  · rintro ⟨ht, hout⟩
    obtain ⟨i, hi⟩ := List.mem_iff_getElem?.1 ht
    obtain ⟨l, -, hl, rfl⟩ := h.exists_linked hi
    exact ⟨(l, i), List.mem_filter.2 ⟨List.mem_zipIdx_iff_getElem?.2 hl, (isDropped_iff h hi).2 hout⟩,
      rfl⟩

end Hierarchy

namespace CodeModel

open ContentTypeOptions Hierarchy Schema

open Classical in
/-- What a placeholder for a content type stands for. -/
noncomputable def standIn
    (settings : Settings) (strategies : Strategies) (options : ContentTypeOptions)
    (types : List ContentType) (t : ContentType) :
    String :=
  if IsLeftOut options.isIgnored types t then settings.baseInterface t.kind
  else TypeNames.nameOf strategies options t

theorem standIn_congr
    {settings : Settings} {strategies : Strategies} {options : ContentTypeOptions}
    {types types' : List ContentType} {t : ContentType}
    (h : IsLeftOut options.isIgnored types' t ↔ IsLeftOut options.isIgnored types t) :
    standIn settings strategies options types' t = standIn settings strategies options types t := by
  classical
  exact if_congr h rfl rfl

namespace Named

variable {settings : Settings} {strategies : Strategies} {schema : List ContentType}
  {options : CodeOptions} {linked : List LinkedType} {named : List NamedType}

section

variable (h : Named settings strategies schema options linked named)
include h

theorem reflects :
    Hierarchy.Reflects options.contentTypes.isIgnored schema
      (participants options.contentTypes.isIgnored linked) :=
  reflects_participants (reflects_of_link h.valid h.link)

/-- The names of classes are those for the content types that take part. -/
theorem map_named
    {α : Type} (f : ContentType → String → α) :
    named.map (fun t => f t.type t.name) =
      (takingPart options.contentTypes.isIgnored schema).map fun u =>
        f u (TypeNames.nameOf strategies options.contentTypes u) := by
  rw [h.named_eq, ← h.reflects.map_type, List.map_map, List.map_map]
  rfl

/-- Content types that take part differ in their aliases. -/
theorem nodup_takingPart :
    ((takingPart options.contentTypes.isIgnored schema).map fun u =>
      Text.lowercase u.aliasName).Nodup :=
  (nodup_aliases h.valid).sublist (List.filter_sublist.map _)

theorem foldedNames_eq :
    foldedNames (TypeNames.byAlias named) =
      .ofList ((takingPart options.contentTypes.isIgnored schema).map fun u =>
        (Text.lowercase u.aliasName, TypeNames.nameOf strategies options.contentTypes u)) := by
  unfold TypeNames.byAlias
  rw [h.map_named fun u name => (u.aliasName, name), foldedNames_ofList, List.map_map]
  · rfl
  · rw [List.map_map]
    exact h.nodup_takingPart

theorem get?_foldedNames_eq_some_iff
    {k n : String} :
    (foldedNames (TypeNames.byAlias named)).get? k = some n ↔
      ∃ u ∈ takingPart options.contentTypes.isIgnored schema,
        Text.lowercase u.aliasName = k ∧
          TypeNames.nameOf strategies options.contentTypes u = n := by
  rw [h.foldedNames_eq, Keyed.get?_ofList_eq_some_iff, List.mem_map]
  · simp only [Prod.mk.injEq]
  · rw [List.map_map]
    exact h.nodup_takingPart

theorem get?_placeholders_eq_some_iff
    {k n : String} :
    (TypeNames.placeholders settings (dropped options.contentTypes.isIgnored linked)
      named).get? k = some n ↔
      ∃ u ∈ schema, Text.lowercase u.aliasName = k ∧
        standIn settings strategies options.contentTypes schema u = n := by
  have hreflects := reflects_of_link h.valid h.link
  have hdropped := @mem_dropped_iff options.contentTypes.isIgnored schema linked hreflects
  unfold TypeNames.placeholders
  rw [h.map_named fun u name => (Text.lowercase u.aliasName, name),
    Keyed.get?_ofList_eq_some_iff, List.mem_append, List.mem_map, List.mem_map]
  · simp only [hdropped, mem_takingPart, Prod.mk.injEq]
    unfold standIn
    constructor
    · rintro (⟨u, ⟨hu, hout⟩, hkey, hname⟩ | ⟨u, ⟨hu, hin⟩, hkey, hname⟩)
      · exact ⟨u, hu, hkey, by rw [if_pos hout, hname]⟩
      · exact ⟨u, hu, hkey, by rw [if_neg hin, hname]⟩
    · rintro ⟨u, hu, hkey, hname⟩
      split at hname
      · rename_i hout
        exact .inl ⟨u, ⟨hu, hout⟩, hkey, hname⟩
      · rename_i hin
        exact .inr ⟨u, ⟨hu, hin⟩, hkey, hname⟩
  · rw [List.map_append, List.map_map, List.map_map, List.nodup_append]
    refine ⟨(nodup_aliases h.valid).sublist ((sublist_dropped hreflects).map _),
      h.nodup_takingPart, ?_⟩
    rintro a ha b hb rfl
    obtain ⟨u, hu, rfl⟩ := List.mem_map.1 ha
    obtain ⟨v, hv, hsame⟩ := List.mem_map.1 hb
    obtain ⟨hu, hout⟩ := hdropped.1 hu
    obtain ⟨hv, hin⟩ := mem_takingPart.1 hv
    exact hin (eq_of_lowercase h.valid hv hu hsame ▸ hout)

end
end Named
end CodeModel
end ContentModels

import ContentModels.Proofs.CodeModel.Build
import ContentModels.Proofs.CodeModel.Relatives

/-!
# Schemas whose links lead somewhere

A schema can be linked exactly if each id that a content type names, as its parent or as a
composition other than itself, is the id of a content type of the schema, and no content type is
derived from itself.  Linked types then keep the positions of what they name.  Following parents
comes to an end, whichever position it starts at, and what it passes on the way are the
ancestors, none of them twice (`link_resolves`).

That following parents ends is stated without a bound on the number of steps (`EndsAfter`): the
bound with which ancestors are looked up never cuts them off.
-/

namespace ContentModels

open Outcome Relation Walk

namespace Walk

variable {α : Type} {next : α → Option α}

/-- From a node on, links lead over the nodes of a list, one after the other, and no further. -/
inductive EndsAfter (next : α → Option α) : α → List α → Prop where
  | here {a : α} (h : next a = none) : EndsAfter next a []
  | there {a b : α} {bs : List α} (h : next a = some b) (hrest : EndsAfter next b bs) :
    EndsAfter next a (b :: bs)

/-- A chain that is not cut off holds all nodes up to the last one. -/
theorem Ends.endsAfter
    {n : Nat} {a : α} (h : Ends next n a) :
    EndsAfter next a (chain next n a) := by
  induction n generalizing a with
  | zero => exact absurd h (Nat.not_lt_zero _)
  | succ n ih =>
    cases hnext : next a with
    | none =>
      rw [chain_of_none hnext]
      exact .here hnext
    | some b =>
      rw [chain_succ_of_some hnext]
      refine .there hnext (ih ?_)
      unfold Ends at h
      rw [chain_succ_of_some hnext, List.length_cons] at h
      exact Nat.lt_of_succ_lt_succ h

end Walk

namespace Schema

variable {types : List ContentType} {linked : List LinkedType} {t p : ContentType}

/-- A content type has another one of the schema as its parent. -/
def HasParent (types : List ContentType) (t p : ContentType) : Prop :=
  p ∈ types ∧ t.parent? = some p.id

/-- All content types that are named are in the schema, and none is derived from itself. -/
structure IsLinkable (types : List ContentType) : Prop where
  parent : ∀ t ∈ types, ∀ id, t.parent? = some id → ∃ u ∈ types, u.id = id
  compositions : ∀ t ∈ types, ∀ id ∈ t.compositionIds, id ≠ t.id → ∃ u ∈ types, u.id = id
  acyclic : ∀ t ∈ types, ¬ TransGen (HasParent types) t t

/-- The id of the content type at a position. -/
def idAt (types : List ContentType) (i : Nat) : Option Int :=
  types[i]?.map (·.id)

/-- What the links of the type at a position lead to. -/
structure LinkedAt
    (types : List ContentType) (linked : List LinkedType) (i : Nat) (l : LinkedType) :
    Prop where
  type : types[i]? = some l.type
  parent : l.parent.map (idAt types) = l.type.parent?.map some
  /-- Compositions in the order in which they are named first. -/
  compositions : l.compositions.map (idAt types) =
    (l.type.compositionIds.filter (· != l.type.id)).eraseDups.map some
  ends : EndsAfter (parentAt linked) i (ancestors linked i)
  nodup_ancestors : (i :: ancestors linked i).Nodup
  nodup_compositions : (i :: l.compositions).Nodup

section Ids

theorem exists_withId?_iff
    {id : Int} :
    (∃ u, withId? types id = some u) ↔ ∃ u ∈ types, u.id = id := by
  unfold withId?
  rw [← Option.isSome_iff_exists, List.find?_isSome]
  simp

variable (hids : (types.map (·.id)).Nodup)
include hids

theorem withId?_eq_some_iff
    {id : Int} :
    withId? types id = some t ↔ t ∈ types ∧ t.id = id := by
  refine ⟨fun h => ⟨mem_of_withId? h, id_of_withId? h⟩, fun ⟨ht, hid⟩ => ?_⟩
  obtain ⟨u, hu⟩ := exists_withId?_iff.2 ⟨t, ht, hid⟩
  rw [hu, List.inj_on_of_nodup_map hids (mem_of_withId? hu) ht ((id_of_withId? hu).trans hid.symm)]

theorem follows_parentOf :
    Follows (parentOf types) = HasParent types := by
  funext t p
  refine propext ⟨fun h => ?_, fun ⟨hp, hparent⟩ => ?_⟩
  · obtain ⟨id, hid, hfound⟩ := Option.bind_eq_some_iff.1 h
    obtain ⟨hp, rfl⟩ := (withId?_eq_some_iff hids).1 hfound
    exact ⟨hp, hid⟩
  · exact Option.bind_eq_some_iff.2 ⟨p.id, hparent, (withId?_eq_some_iff hids).2 ⟨hp, rfl⟩⟩

/-- A schema is linked exactly if it is linkable. -/
theorem isLinkable_iff :
    IsLinkable types ↔
      (∀ t ∈ types, KnowsLinks types t) ∧
        ∀ t ∈ types, ¬ TransGen (Follows (parentOf types)) t t := by
  rw [follows_parentOf hids]
  constructor
  · exact fun h => ⟨fun t ht =>
      ⟨fun id hid => exists_withId?_iff.2 (h.parent t ht id hid),
        fun id hid hne => exists_withId?_iff.2 (h.compositions t ht id hid hne)⟩, h.acyclic⟩
  · exact fun ⟨hknows, hacyclic⟩ =>
      ⟨fun t ht id hid => exists_withId?_iff.1 ((hknows t ht).parent id hid),
        fun t ht id hid hne => exists_withId?_iff.1 ((hknows t ht).compositions id hid hne),
        hacyclic⟩

theorem eq_of_idAt
    {i j : Nat} {id : Int} (hi : idAt types i = some id) (hj : idAt types j = some id) :
    i = j := by
  unfold idAt at hi hj
  rw [← List.getElem?_map] at hi hj
  exact eq_of_getElem?_of_nodup hids hi hj

end Ids

/-! ### Linking one content type -/

theorem idAt_of_position?
    {id : Int} {i : Nat} (h : position? types id = some i) :
    idAt types i = some id := by
  have hget := bind_position? types id
  rw [h, Option.bind_some] at hget
  obtain ⟨u, hu⟩ := exists_position?_iff.1 ⟨i, h⟩
  unfold idAt
  rw [hget, hu, Option.map_some, id_of_withId? hu]

theorem map_idAt_of_linkParent
    {parent : Option Nat} (h : linkParent types t = .ok parent) :
    parent.map (idAt types) = t.parent?.map some := by
  unfold linkParent at h
  split at h
  · rename_i hnone
    cases h
    rw [hnone]
    rfl
  · rename_i id hid
    split at h
    · rename_i hi
      cases h
      rw [hid, Option.map_some, idAt_of_position? hi, Option.map_some]
    · cases h

theorem idAt_of_linkComposition
    {id : Int} {i : Nat} (h : linkComposition types t id = .ok i) :
    idAt types i = some id := by
  unfold linkComposition at h
  split at h
  · rename_i hi
    cases h
    exact idAt_of_position? hi
  · cases h

/-- The positions of the compositions of a content type are those of the ids that it names. -/
theorem map_idAt_of_linkType
    {l : LinkedType} (hids : (types.map (·.id)).Nodup) (h : linkType types t = .ok l) :
    l.compositions.map (idAt types) =
      (t.compositionIds.filter (· != t.id)).eraseDups.map some := by
  obtain ⟨_, -, h⟩ := bind_eq_ok.1 h
  obtain ⟨cs, hcs, h⟩ := bind_eq_ok.1 h
  cases h
  have hall : cs.map (idAt types) = (t.compositionIds.filter (· != t.id)).map some :=
    map_of_mapM (fun _ _ hc => idAt_of_linkComposition hc) hcs
  have hsome : ∀ c ∈ cs, (idAt types c).isSome = true := by
    intro c hc
    have hmem : idAt types c ∈ cs.map (idAt types) := List.mem_map_of_mem hc
    rw [hall] at hmem
    obtain ⟨id, -, hid⟩ := List.mem_map.1 hmem
    rw [← hid]
    rfl
  have hinj : ∀ c ∈ cs, ∀ d ∈ cs, idAt types c = idAt types d → c = d := by
    intro c hc d hd heq
    obtain ⟨id, hid⟩ := Option.isSome_iff_exists.1 (hsome d hd)
    exact eq_of_idAt hids (heq.trans hid) hid
  refine map_eq_of_filterMap (fun c hc => hsome c (List.mem_eraseDups.1 hc)) ?_
  rw [filterMap_eraseDups cs hinj hsome]
  congr 1
  have hfilter : cs.filterMap (idAt types) = (cs.map (idAt types)).filterMap id := by
    rw [List.filterMap_map]
    rfl
  rw [hfilter, hall, List.filterMap_map]
  exact List.filterMap_some

theorem nodup_compositions_of_linkType
    {l : LinkedType} (h : linkType types t = .ok l) :
    l.compositions.Nodup := by
  obtain ⟨_, -, h⟩ := bind_eq_ok.1 h
  obtain ⟨cs, -, h⟩ := bind_eq_ok.1 h
  cases h
  exact nodup_eraseDups cs

/-! ### Linking a schema -/

theorem linkedAt_of_link
    (hids : (types.map (·.id)).Nodup) (h : link types = .ok linked) {i : Nat} {l : LinkedType}
    (hl : linked[i]? = some l) :
    LinkedAt types linked i l := by
  obtain ⟨hmap, hends⟩ := link_eq_ok h
  obtain ⟨t, ht, hlink⟩ := exists_of_mapM hmap hl
  obtain ⟨rfl, hparent, -⟩ := linkType_eq_ok hlink
  have hcompositions := map_idAt_of_linkType hids hlink
  refine ⟨ht, map_idAt_of_linkParent hparent, hcompositions,
    (hends i (List.getElem?_eq_some_iff.1 hl).1).endsAfter,
    nodup_chain (wellLinked_of_link h).acyclic _ i,
    List.nodup_cons.2 ⟨fun hi => ?_, nodup_compositions_of_linkType hlink⟩⟩
  -- The own id is not among those that are looked up.
  have hmem : idAt types i ∈ l.compositions.map (idAt types) := List.mem_map_of_mem hi
  rw [hcompositions, idAt, ht, Option.map_some, List.mem_map] at hmem
  obtain ⟨id, hid, heq⟩ := hmem
  have hne := (List.mem_filter.1 (List.mem_eraseDups.1 hid)).2
  rw [Option.some.inj heq] at hne
  simp at hne

/--
A schema with different ids is linked exactly if all that it names is there and no content type
is derived from itself; the links then lead to what is named, and the ancestors end.
-/
theorem link_resolves
    (hids : (types.map (·.id)).Nodup) :
    ((∃ linked, link types = .ok linked) ↔ IsLinkable types) ∧
      ∀ linked, link types = .ok linked →
        linked.length = types.length ∧
          ∀ i l, linked[i]? = some l → LinkedAt types linked i l := by
  refine ⟨?_, fun linked h => ⟨length_of_mapM (link_eq_ok h).1, fun i l => linkedAt_of_link hids h⟩⟩
  rw [exists_link_iff hids.of_map, isLinkable_iff hids]

/-- Press is news, which are pages; they name a composition twice, and pages name themselves. -/
def pressSchema : List ContentType :=
  [CodeModel.typeWith 4 "press" (some 3) [2, 2], CodeModel.typeWith 2 "seo" (some 0) [],
    CodeModel.typeWith 3 "news" (some 1) [1], CodeModel.typeWith 1 "page" none [2, 1]]

theorem link_resolves_press :
    (pressSchema.map (·.id)).Nodup ∧ IsLinkable pressSchema ∧
      ∃ linked, link pressSchema = .ok linked ∧
        linked.map (fun l : LinkedType => (l.parent, l.compositions)) =
          [(some 2, [1]), (none, []), (some 3, [3]), (none, [1])] ∧
        (List.range 4).map (ancestors linked) = [[2, 3], [], [3], []] ∧
        ∀ i l, linked[i]? = some l → LinkedAt pressSchema linked i l := by
  have hids : (pressSchema.map (·.id)).Nodup := by decide
  obtain ⟨linked, hlinked, hvalues⟩ := @Outcome.exists_of_toOption_map _ _ _ (link pressSchema)
    (fun linked => (linked.map fun l : LinkedType => (l.parent, l.compositions),
      (List.range 4).map (ancestors linked)))
    ([(some 2, [1]), (none, []), (some 3, [3]), (none, [1])], [[2, 3], [], [3], []])
    (by decide +kernel)
  obtain ⟨hiff, hresolves⟩ := link_resolves hids
  exact ⟨hids, hiff.1 ⟨linked, hlinked⟩, linked, hlinked, congrArg Prod.fst hvalues,
    congrArg Prod.snd hvalues, (hresolves linked hlinked).2⟩

/-- A content type that is not derived from itself, but from one that is, is found first. -/
example :
    link [CodeModel.typeWith 1 "a" (some 2) [], CodeModel.typeWith 2 "b" (some 3) [],
        CodeModel.typeWith 3 "c" (some 2) []] =
      .error (.configuration (.inheritanceCycle "a")) := by
  decide +kernel

end Schema
end ContentModels

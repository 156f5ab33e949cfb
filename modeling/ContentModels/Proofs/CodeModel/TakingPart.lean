import ContentModels.Proofs.CodeModel.Relatives

/-!
# Content types that take part

The participants of a code model are the content types that take part, in the order of the
schema, and their links are positions among them.  These positions stand for the relatives of
the content type (`reflects_participants`): its parent, what it mixes in, and what it introduces
(`filterMap_introduced`).  A participant is marked as a mixin exactly if its type is mixed in
(`isMixin_iff`).
-/

namespace ContentModels

open Relation Walk

namespace Hierarchy

open Schema (LinkedType takingPart mixinsOf parentOf composedOf IsLeftOut)

variable {isIgnored : String → Bool} {types : List ContentType} {linked : List LinkedType}
  {t u : ContentType} {i j k c : Nat}

section Kept

variable (h : Schema.Reflects types linked)
include h

/-- A position is left out if the type at it is. -/
theorem isDropped_iff
    (ht : types[i]? = some t) :
    isDropped isIgnored linked i = true ↔ IsLeftOut isIgnored types t := by
  have hany : ∀ j : Nat, (linked[j]?.any fun l => isIgnored l.type.aliasName) = true ↔
      ∃ u, types[j]? = some u ∧ isIgnored u.aliasName = true := by
    intro j
    rw [h.getElem?_eq]
    cases linked[j]? <;> simp
  unfold isDropped IsLeftOut
  rw [List.any_eq_true]
  constructor
  · rintro ⟨j, hj, hignored⟩
    obtain ⟨u, hu, hignored⟩ := (hany j).1 hignored
    refine ⟨u, ?_, hignored⟩
    rcases List.mem_cons.1 hj with rfl | hj
    · exact Option.some.inj (ht.symm.trans hu) ▸ .refl
    · exact ((h.mem_ancestors_iff ht hu).1 hj).to_reflTransGen
  · rintro ⟨u, hderived, hignored⟩
    obtain ⟨j, hj, -⟩ := h.standsFor.exists_backward ht hderived
    refine ⟨j, ?_, (hany j).2 ⟨u, hj, hignored⟩⟩
    rcases reflTransGen_iff_eq_or_transGen.1 hderived with rfl | hderived
    · exact List.mem_cons.2 (.inl (eq_of_getElem?_of_nodup h.nodup hj ht))
    · exact List.mem_cons_of_mem _ ((h.mem_ancestors_iff ht hj).2 hderived)

/-- The positions of the types that take part. -/
theorem filterMap_kept :
    (kept isIgnored linked).filterMap (types[·]?) = takingPart isIgnored types := by
  classical
  unfold kept takingPart
  rw [h.length_eq]
  refine filterMap_range_filter fun i t ht => ?_
  rw [Bool.eq_iff_iff, decide_eq_true_iff, ← isDropped_iff h ht, Bool.not_eq_true',
    Bool.not_eq_true]

theorem getElem?_takingPart
    (k : Nat) :
    (takingPart isIgnored types)[k]? = (kept isIgnored linked)[k]?.bind (types[·]?) := by
  rw [← filterMap_kept h]
  refine getElem?_filterMap_of_isSome (fun i hi => ?_) k
  have hlt := (mem_kept.1 hi).1
  rw [h.length_eq] at hlt
  simp [hlt]

/-- The place of a position among those that take part stands for the same type, if it takes part. -/
theorem bind_idxOf?
    (hu : types[c]? = some u) :
    ((kept isIgnored linked).idxOf? c).bind ((takingPart isIgnored types)[·]?) =
      if isDropped isIgnored linked c then none else some u := by
  split
  · rename_i hdropped
    have hnone : (kept isIgnored linked).idxOf? c = none := by
      rw [List.idxOf?_eq_none_iff]
      exact fun hmem => by simp [(mem_kept.1 hmem).2] at hdropped
    rw [hnone]
    rfl
  · rename_i hdropped
    have hlt : c < linked.length := h.length_eq ▸ (List.getElem?_eq_some_iff.1 hu).1
    have hmem : c ∈ kept isIgnored linked := mem_kept.2 ⟨hlt, by simpa using hdropped⟩
    cases hk : (kept isIgnored linked).idxOf? c with
    | none => exact absurd hmem (List.idxOf?_eq_none_iff.1 hk)
    | some k =>
      obtain ⟨hlt, hget, -⟩ := List.idxOf?_eq_some_iff.1 hk
      rw [Option.bind_some, getElem?_takingPart h, List.getElem?_eq_getElem hlt, hget,
        Option.bind_some, hu]

end Kept

/-! ### Participants -/

/-- The participants are the types that take part, linked to what they name. -/
structure Reflects (isIgnored : String → Bool) (types : List ContentType)
    (ps : List Participant) : Prop where
  map_type : ps.map (·.type) = takingPart isIgnored types
  nodup : (takingPart isIgnored types).Nodup
  parent : ∀ p ∈ ps, p.parent.bind ((takingPart isIgnored types)[·]?) = parentOf types p.type
  mixins : ∀ p ∈ ps,
    p.mixins.filterMap ((takingPart isIgnored types)[·]?) = mixinsOf isIgnored types p.type
  wellFormed : WellFormed ps

theorem exists_place
    {p : Participant} (hp : p ∈ participants isIgnored linked) :
    ∃ i l, i ∈ kept isIgnored linked ∧ linked[i]? = some l ∧
      p = { place linked (kept isIgnored linked) i l with isMixin := p.isMixin } := by
  obtain ⟨k, hk⟩ := List.mem_iff_getElem?.1 hp
  rw [getElem?_participants, Option.map_eq_some_iff] at hk
  obtain ⟨q, hq, rfl⟩ := hk
  obtain ⟨i, hi, hplace⟩ := List.mem_filterMap.1 (List.mem_of_getElem? hq)
  obtain ⟨l, hl, rfl⟩ := Option.map_eq_some_iff.1 hplace
  exact ⟨i, l, hi, hl, rfl⟩

theorem map_type_participants
    (h : Schema.Reflects types linked) :
    (participants isIgnored linked).map (·.type) = takingPart isIgnored types := by
  have hmarked : (participants isIgnored linked).map (·.type) =
      (placed isIgnored linked).map (·.type) := by
    refine List.ext_getElem? fun k => ?_
    rw [List.getElem?_map, List.getElem?_map, getElem?_participants, Option.map_map]
    rfl
  rw [hmarked, ← filterMap_kept h]
  unfold placed
  rw [List.map_filterMap]
  refine List.filterMap_congr fun i _ => ?_
  rw [h.getElem?_eq, Option.map_map]
  rfl

theorem reflects_participants
    (h : Schema.Reflects types linked) :
    Reflects isIgnored types (participants isIgnored linked) where
  map_type := map_type_participants h
  nodup := h.nodup.filter _
  wellFormed := wellFormed_participants h.wellLinked
  parent p hp := by
    obtain ⟨i, l, hi, hl, hplace⟩ := exists_place hp
    have htype : p.type = l.type := congrArg (·.type) hplace
    have hparent : p.parent = l.parent.bind ((kept isIgnored linked).idxOf? ·) :=
      congrArg (·.parent) hplace
    rw [htype, hparent, ← h.parent l (List.mem_of_getElem? hl), Option.bind_assoc]
    cases hc : l.parent with
    | none => rfl
    | some c =>
      have hlink : Schema.parentAt linked i = some c := Option.bind_eq_some_iff.2 ⟨l, hl, hc⟩
      have hlt := h.wellLinked.parent_lt hlink
      rw [h.length_eq] at hlt
      have hkept := (mem_kept.1 (mem_kept_of_parent h.wellLinked hi hlink)).2
      rw [Option.bind_some, Option.bind_some, bind_idxOf? h (List.getElem?_eq_getElem hlt), hkept,
        List.getElem?_eq_getElem hlt]
      rfl
  mixins p hp := by
    classical
    obtain ⟨i, l, -, hl, hplace⟩ := exists_place hp
    have htype : p.type = l.type := congrArg (·.type) hplace
    have hmixins : p.mixins = (l.compositions.filter fun c =>
        !(Schema.ancestors linked i).contains c).filterMap ((kept isIgnored linked).idxOf? ·) :=
      congrArg (·.mixins) hplace
    have hmem := List.mem_of_getElem? hl
    have ht : types[i]? = some l.type := by rw [h.getElem?_eq, hl]; rfl
    rw [htype, hmixins]
    unfold mixinsOf
    rw [← h.compositions l hmem, List.filterMap_filterMap, List.filterMap_filter,
      List.filter_filterMap]
    refine List.filterMap_congr fun c hc => ?_
    have hlt := h.wellLinked.composition_lt l hmem c hc
    rw [h.length_eq] at hlt
    have hu := List.getElem?_eq_getElem hlt
    have hancestor := h.mem_ancestors_iff ht hu
    have hdropped := @isDropped_iff isIgnored types linked types[c] c h hu
    rw [bind_idxOf? h hu, hu, Option.filter_some]
    by_cases ha : c ∈ Schema.ancestors linked i
    · simp [ha, hancestor.1 ha]
    · by_cases hd : isDropped isIgnored linked c = true
      · simp [ha, hd, hdropped.1 hd]
      · have hnot : ¬ TransGen (Follows (parentOf types)) l.type types[c] :=
          fun hderived => ha (hancestor.2 hderived)
        have hin : ¬ IsLeftOut isIgnored types types[c] := fun hout => hd (hdropped.2 hout)
        simp [ha, hd, hnot, hin]

namespace Reflects

open Schema (IsRelated IsMixedIn Introduces introducedBy)

variable {ps : List Participant} {p : Participant}

section

variable (h : Reflects isIgnored types ps)
include h

theorem length_eq :
    (takingPart isIgnored types).length = ps.length := by
  rw [← h.map_type, List.length_map]

theorem getElem?_eq
    (i : Nat) :
    (takingPart isIgnored types)[i]? = ps[i]?.map (·.type) := by
  rw [← h.map_type, List.getElem?_map]

theorem getElem?_of_participant
    (hp : ps[i]? = some p) :
    (takingPart isIgnored types)[i]? = some p.type := by
  rw [h.getElem?_eq, hp]
  rfl

theorem exists_participant
    (ht : (takingPart isIgnored types)[i]? = some t) :
    ∃ p, ps[i]? = some p ∧ p.type = t := by
  rw [h.getElem?_eq, Option.map_eq_some_iff] at ht
  exact ht

/-- Parents of participants stand for parents of types. -/
theorem standsFor_parent :
    StandsFor ((takingPart isIgnored types)[·]?) (Follows (parentAt ps))
      (Follows (parentOf types)) := by
  refine .follows (fun {i t} ht => ?_) (fun hp => ?_) (eq_of_getElem?_of_nodup h.nodup)
  · obtain ⟨p, hp, rfl⟩ := h.exists_participant ht
    unfold parentAt
    rw [hp]
    exact h.parent p (List.mem_of_getElem? hp)
  · have hlt := h.wellFormed.parent_lt hp
    rw [← h.length_eq] at hlt
    exact ⟨_, List.getElem?_eq_getElem hlt⟩

/-- Links of participants stand for parents and mixins of types. -/
theorem standsFor_links :
    StandsFor ((takingPart isIgnored types)[·]?) (Leads (links ps))
      (IsRelated isIgnored types) where
  forward {i j t} ht hlink := by
    rcases leads_iff.1 hlink with hparent | ⟨p, hp, hj⟩
    · obtain ⟨u, hu, hparent⟩ := h.standsFor_parent.forward ht hparent
      exact ⟨u, hu, .inl hparent⟩
    · have hmem := List.mem_of_getElem? hp
      have hlt := h.wellFormed.mixin_lt p hmem j hj
      rw [← h.length_eq] at hlt
      have hu := List.getElem?_eq_getElem hlt
      obtain rfl := Option.some.inj ((h.getElem?_of_participant hp).symm.trans ht)
      refine ⟨_, hu, .inr ?_⟩
      rw [← h.mixins p hmem]
      exact List.mem_filterMap.2 ⟨j, hj, hu⟩
  backward {i t u} ht hrelated := by
    rcases hrelated with hparent | hmixin
    · obtain ⟨j, hj, hparent⟩ := h.standsFor_parent.backward ht hparent
      exact ⟨j, hj, leads_iff.2 (.inl hparent)⟩
    · obtain ⟨p, hp, rfl⟩ := h.exists_participant ht
      rw [← h.mixins p (List.mem_of_getElem? hp)] at hmixin
      obtain ⟨j, hj, hu⟩ := List.mem_filterMap.1 hmixin
      exact ⟨j, hu, leads_iff.2 (.inr ⟨p, hp, hj⟩)⟩
  unique := eq_of_getElem?_of_nodup h.nodup

/-- A participant is marked as a mixin exactly if its type is mixed in. -/
theorem isMixin_iff
    (hp : ps[i]? = some p) :
    p.isMixin = true ↔ IsMixedIn isIgnored types p.type := by
  have ht := h.getElem?_of_participant hp
  rw [h.wellFormed.isMixin_iff hp]
  constructor
  · rintro ⟨q, hq, m, hm, hderived⟩
    have hlt := h.wellFormed.mixin_lt q hq m hm
    rw [← h.length_eq] at hlt
    have hu := List.getElem?_eq_getElem hlt
    refine ⟨q.type, ?_, _, ?_, (h.standsFor_parent.reflTransGen_iff hu ht).1 hderived⟩
    · rw [← h.map_type]
      exact List.mem_map_of_mem hq
    · rw [← h.mixins q hq]
      exact List.mem_filterMap.2 ⟨m, hm, hu⟩
  · rintro ⟨u, hu, v, hv, hderived⟩
    rw [← h.map_type] at hu
    obtain ⟨q, hq, rfl⟩ := List.mem_map.1 hu
    rw [← h.mixins q hq] at hv
    obtain ⟨m, hm, hv⟩ := List.mem_filterMap.1 hv
    exact ⟨q, hq, m, hm, (h.standsFor_parent.reflTransGen_iff hv ht).2 hderived⟩

theorem mem_introduced_iff
    (hp : ps[i]? = some p) (hu : (takingPart isIgnored types)[j]? = some u) :
    j ∈ introduced ps i ↔ Introduces isIgnored types p.type u := by
  have ht := h.getElem?_of_participant hp
  have hlt : j < ps.length := h.length_eq ▸ (List.getElem?_eq_some_iff.1 hu).1
  rw [Hierarchy.mem_introduced_iff, and_iff_right hlt, h.standsFor_links.reflTransGen_iff ht hu]
  unfold Introduces
  refine and_congr_right fun _ => and_congr ?_ ?_
  · constructor
    · intro hnone v hv hreach
      obtain ⟨k, hk, hlink⟩ := h.standsFor_parent.backward ht hv
      exact hnone k hlink ((h.standsFor_links.reflTransGen_iff hk hu).2 hreach)
    · intro hnone k hlink hreach
      obtain ⟨v, hv, hparent⟩ := h.standsFor_parent.forward ht hlink
      exact hnone v hparent ((h.standsFor_links.reflTransGen_iff hv hu).1 hreach)
  · refine not_congr ⟨?_, ?_⟩
    · rintro rfl
      exact Option.some.inj (hu.symm.trans ht)
    · rintro rfl
      exact eq_of_getElem?_of_nodup h.nodup hu ht

/-- What a participant introduces stands for what its type introduces. -/
theorem filterMap_introduced
    (hp : ps[i]? = some p) :
    (introduced ps i).filterMap ((takingPart isIgnored types)[·]?) =
      introducedBy isIgnored types p.type := by
  classical
  have hintroduced : introduced ps i = (List.range (takingPart isIgnored types).length).filter
      fun j => decide (j ∈ introduced ps i) := by
    rw [h.length_eq]
    conv_lhs => unfold introduced
    refine List.filter_congr fun j hj => ?_
    rw [Bool.eq_iff_iff, decide_eq_true_iff]
    unfold introduced
    rw [List.mem_filter]
    exact (and_iff_right hj).symm
  rw [hintroduced]
  unfold introducedBy
  exact filterMap_range_filter fun j u hu => decide_eq_decide.2 (h.mem_introduced_iff hp hu)

end
end Reflects
end Hierarchy
end ContentModels

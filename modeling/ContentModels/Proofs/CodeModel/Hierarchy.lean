import Mathlib.Algebra.GroupWithZero.Nat
import ContentModels.CodeModel.Hierarchy
import ContentModels.Proofs.Lists
import ContentModels.Proofs.Outcome
import ContentModels.Proofs.Walks

/-!
# The hierarchy as a graph

Linking a schema gives links within the schema and parents that end.  The types that take
part inherit both (`wellFormed_participants`), and they are marked as mixins exactly if a
type mixes them in or something that descends from them.  All that a mixin links to is then a
mixin as well (`isMixinAt_of_leads`).
-/

namespace ContentModels

open Relation Walk

/-! ### Linked schemas -/

namespace Schema

open Outcome

variable {types : List ContentType} {linked : List LinkedType} {t : ContentType} {l : LinkedType}

/-- Links within the schema, and parents that never lead back. -/
structure WellLinked (linked : List LinkedType) : Prop where
  parent_lt : ∀ {i p}, parentAt linked i = some p → p < linked.length
  composition_lt : ∀ l ∈ linked, ∀ c ∈ l.compositions, c < linked.length
  acyclic : ∀ i, ¬ TransGen (Follows (parentAt linked)) i i

theorem lt_of_position?
    {id : Int} {p : Nat}
    (h : position? types id = some p) :
    p < types.length :=
  (List.findIdx?_eq_some_iff_findIdx_eq.1 h).1

theorem lt_of_linkParent
    {p : Nat}
    (h : linkParent types t = .ok (some p)) :
    p < types.length := by
  unfold linkParent at h
  split at h
  · cases h
  · split at h
    · rename_i hp
      cases h
      exact lt_of_position? hp
    · cases h

theorem lt_of_linkComposition
    {id : Int} {c : Nat}
    (h : linkComposition types t id = .ok c) :
    c < types.length := by
  unfold linkComposition at h
  split at h
  · rename_i hc
    cases h
    exact lt_of_position? hc
  · cases h

/-- What linking a type gives. -/
theorem linkType_eq_ok
    (h : linkType types t = .ok l) :
    l.type = t ∧ linkParent types t = .ok l.parent ∧ ∀ c ∈ l.compositions, c < types.length := by
  obtain ⟨parent, hparent, h⟩ := bind_eq_ok.1 h
  obtain ⟨compositions, hcompositions, h⟩ := bind_eq_ok.1 h
  cases h
  refine ⟨rfl, hparent, fun c hc => ?_⟩
  obtain ⟨i, hi⟩ := List.mem_iff_getElem?.1 (List.mem_eraseDups.1 hc)
  obtain ⟨id, -, hid⟩ := exists_of_mapM hcompositions hi
  exact lt_of_linkComposition hid

/-- The steps of linking a schema. -/
theorem link_eq_ok
    (h : link types = .ok linked) :
    types.mapM (linkType types) = .ok linked ∧
      ∀ i < linked.length, Ends (parentAt linked) linked.length i := by
  obtain ⟨linked', hmap, h⟩ := bind_eq_ok.1 h
  split at h
  · cases h
  · rename_i hnone
    cases h
    refine ⟨hmap, fun i hi => ?_⟩
    have hmem : (linked[i], i) ∈ linked.zipIdx := by
      rw [List.mem_iff_getElem?]
      exact ⟨i, by simp [hi]⟩
    have hcyclic := List.find?_eq_none.1 hnone _ hmem
    have hlength : (ancestors linked i).length ≠ linked.length := by simpa [isCyclic] using hcyclic
    exact lt_of_le_of_ne (length_chain_le _ _ _) hlength

theorem wellLinked_of_link
    (h : link types = .ok linked) :
    WellLinked linked := by
  obtain ⟨hmap, hends⟩ := link_eq_ok h
  have hlength := length_of_mapM hmap
  have hparent : ∀ {i p}, parentAt linked i = some p → i < linked.length ∧ p < linked.length := by
    intro i p hp
    obtain ⟨l, hl, hp⟩ := Option.bind_eq_some_iff.1 hp
    obtain ⟨t, -, ht⟩ := exists_of_mapM hmap hl
    have hlink := (linkType_eq_ok ht).2.1
    rw [hp] at hlink
    exact ⟨(List.getElem?_eq_some_iff.1 hl).1, hlength ▸ lt_of_linkParent hlink⟩
  refine ⟨fun hp => (hparent hp).2, fun l hl c hc => ?_, fun i hloop => ?_⟩
  · obtain ⟨i, hi⟩ := List.mem_iff_getElem?.1 hl
    obtain ⟨t, -, ht⟩ := exists_of_mapM hmap hi
    exact hlength ▸ (linkType_eq_ok ht).2.2 c hc
  · obtain ⟨p, hp, -⟩ := TransGen.head'_iff.1 hloop
    exact (hends i (hparent hp).1).not_loop hloop

/-- All ancestors of a type are found. -/
theorem WellLinked.mem_ancestors_iff
    (h : WellLinked linked) {i j : Nat} (hi : i < linked.length) :
    j ∈ ancestors linked i ↔ TransGen (Follows (parentAt linked)) i j :=
  (ends_of_acyclic h.acyclic (fun _ _ => h.parent_lt) hi).mem_chain_iff

end Schema

/-! ### Participants -/

namespace Hierarchy

open Schema (LinkedType)

section Kept

variable {isIgnored : String → Bool} {types : List LinkedType} {i p : Nat}

theorem mem_kept :
    i ∈ kept isIgnored types ↔ i < types.length ∧ isDropped isIgnored types i = false := by
  simp [kept]

/-- The parent of a type that takes part takes part as well. -/
theorem mem_kept_of_parent
    (h : Schema.WellLinked types) (hi : i ∈ kept isIgnored types)
    (hp : Schema.parentAt types i = some p) :
    p ∈ kept isIgnored types := by
  obtain ⟨hlt, hkept⟩ := mem_kept.1 hi
  have hplt := h.parent_lt hp
  refine mem_kept.2 ⟨hplt, ?_⟩
  unfold isDropped at hkept ⊢
  rw [List.any_eq_false] at hkept ⊢
  intro j hj
  refine hkept j (List.mem_cons_of_mem _ ((h.mem_ancestors_iff hlt).2 ?_))
  rcases List.mem_cons.1 hj with rfl | hj
  · exact .single hp
  · exact .head hp ((h.mem_ancestors_iff hplt).1 hj)

end Kept

/-- Links within the participants, parents that never lead back, and mixins that are marked. -/
structure WellFormed (ps : List Participant) : Prop where
  parent_lt : ∀ {i j}, parentAt ps i = some j → j < ps.length
  mixin_lt : ∀ p ∈ ps, ∀ m ∈ p.mixins, m < ps.length
  acyclic : ∀ i, ¬ TransGen (Follows (parentAt ps)) i i
  isMixin_iff : ∀ {i p}, ps[i]? = some p →
    (p.isMixin = true ↔ ∃ u ∈ ps, ∃ m ∈ u.mixins, ReflTransGen (Follows (parentAt ps)) m i)

section Participants

variable {isIgnored : String → Bool} {types : List LinkedType} {i k : Nat}

/-- The types that take part, before mixins are marked. -/
def placed (isIgnored : String → Bool) (types : List LinkedType) : List Participant :=
  (kept isIgnored types).filterMap fun i =>
    types[i]?.map (place types (kept isIgnored types) i)

/-- Each participant is the type at its position in the schema. -/
theorem getElem?_placed (k : Nat) :
    (placed isIgnored types)[k]? = (kept isIgnored types)[k]?.bind fun i =>
      types[i]?.map (place types (kept isIgnored types) i) := by
  refine getElem?_filterMap_of_isSome (fun i hi => ?_) k
  have hlt := (mem_kept.1 hi).1
  simp [hlt]

theorem length_placed :
    (placed isIgnored types).length = (kept isIgnored types).length := by
  refine List.filterMap_length_eq_length.2 fun i hi => ?_
  simp [(mem_kept.1 hi).1]

/-- The parent of a participant is the parent of its type. -/
theorem parent_of_placed
    {j : Nat}
    (h : parentAt (placed isIgnored types) k = some j)
    (hi : (kept isIgnored types)[k]? = some i) :
    ∃ p, Schema.parentAt types i = some p ∧ (kept isIgnored types)[j]? = some p := by
  obtain ⟨q, hq, hj⟩ := Option.bind_eq_some_iff.1 h
  rw [getElem?_placed, hi, Option.bind_some] at hq
  obtain ⟨t, ht, rfl⟩ := Option.map_eq_some_iff.1 hq
  obtain ⟨p, hp, hj⟩ := Option.bind_eq_some_iff.1 hj
  obtain ⟨hlt, hget, -⟩ := List.idxOf?_eq_some_iff.1 hj
  exact ⟨p, Option.bind_eq_some_iff.2 ⟨t, ht, hp⟩, List.getElem?_eq_some_iff.2 ⟨hlt, hget⟩⟩

theorem lt_of_parent_placed
    {j : Nat}
    (h : parentAt (placed isIgnored types) k = some j) :
    k < (placed isIgnored types).length ∧ j < (placed isIgnored types).length := by
  obtain ⟨q, hq, -⟩ := Option.bind_eq_some_iff.1 h
  have hk := (List.getElem?_eq_some_iff.1 hq).1
  rw [length_placed] at hk ⊢
  obtain ⟨p, -, hp⟩ := parent_of_placed h (List.getElem?_eq_getElem hk)
  exact ⟨hk, (List.getElem?_eq_some_iff.1 hp).1⟩

/-- Parents of participants lead where parents of types lead. -/
theorem transGen_of_placed
    {j : Nat}
    (h : TransGen (Follows (parentAt (placed isIgnored types))) k j)
    (hi : (kept isIgnored types)[k]? = some i) :
    ∃ p, TransGen (Follows (Schema.parentAt types)) i p ∧ (kept isIgnored types)[j]? = some p := by
  induction h with
  | single hlink =>
    obtain ⟨p, hp, hj⟩ := parent_of_placed hlink hi
    exact ⟨p, .single hp, hj⟩
  | tail _ hlink ih =>
    obtain ⟨q, hq, hk⟩ := ih
    obtain ⟨p, hp, hj⟩ := parent_of_placed hlink hk
    exact ⟨p, hq.tail hp, hj⟩

theorem acyclic_placed
    (h : Schema.WellLinked types) (k : Nat) :
    ¬ TransGen (Follows (parentAt (placed isIgnored types))) k k := by
  intro hloop
  obtain ⟨j, hlink, -⟩ := TransGen.head'_iff.1 hloop
  have hk := (lt_of_parent_placed hlink).1
  rw [length_placed] at hk
  obtain ⟨p, hp, heq⟩ := transGen_of_placed hloop (List.getElem?_eq_getElem hk)
  rw [List.getElem?_eq_getElem hk, Option.some.injEq] at heq
  exact h.acyclic p (heq ▸ hp)

theorem mixin_lt_of_placed
    {p : Participant} {m : Nat}
    (hp : p ∈ placed isIgnored types) (hm : m ∈ p.mixins) :
    m < (placed isIgnored types).length := by
  obtain ⟨i, -, hi⟩ := List.mem_filterMap.1 hp
  obtain ⟨t, -, rfl⟩ := Option.map_eq_some_iff.1 hi
  obtain ⟨c, -, hc⟩ := List.mem_filterMap.1 hm
  rw [length_placed]
  exact (List.idxOf?_eq_some_iff.1 hc).1

/-- What is mixed in is a mixin, and so is all that it descends from. -/
theorem mem_mixinPositions
    (h : Schema.WellLinked types) :
    k ∈ mixinPositions (placed isIgnored types) ↔
      ∃ u ∈ placed isIgnored types, ∃ m ∈ u.mixins,
        ReflTransGen (Follows (parentAt (placed isIgnored types))) m k := by
  have hancestors : ∀ u ∈ placed isIgnored types, ∀ m ∈ u.mixins,
      (k ∈ m :: ancestors (placed isIgnored types) m ↔
        ReflTransGen (Follows (parentAt (placed isIgnored types))) m k) := by
    intro u hu m hm
    have hends := ends_of_acyclic (acyclic_placed h) (fun _ _ hp => (lt_of_parent_placed hp).2)
      (mixin_lt_of_placed hu hm)
    rw [List.mem_cons, reflTransGen_iff_eq_or_transGen]
    exact or_congr Iff.rfl hends.mem_chain_iff
  unfold mixinPositions
  simp only [List.mem_flatMap, List.mem_eraseDups]
  constructor
  · rintro ⟨m, ⟨u, hu, hm⟩, hk⟩
    exact ⟨u, hu, m, hm, (hancestors u hu m hm).1 hk⟩
  · rintro ⟨u, hu, m, hm, hk⟩
    exact ⟨m, ⟨u, hu, hm⟩, (hancestors u hu m hm).2 hk⟩

/-- Marking mixins changes nothing else. -/
theorem getElem?_participants (k : Nat) :
    (participants isIgnored types)[k]? = (placed isIgnored types)[k]?.map fun p =>
      { p with isMixin := (mixinPositions (placed isIgnored types)).contains k } := by
  show ((placed isIgnored types).zipIdx.map _)[k]? = _
  rw [List.getElem?_map, List.getElem?_zipIdx, Option.map_map]
  simp only [Nat.zero_add]
  rfl

theorem parentAt_participants :
    parentAt (participants isIgnored types) = parentAt (placed isIgnored types) := by
  funext k
  unfold parentAt
  rw [getElem?_participants]
  cases (placed isIgnored types)[k]? <;> rfl

theorem length_participants :
    (participants isIgnored types).length = (placed isIgnored types).length := by
  show ((placed isIgnored types).zipIdx.map _).length = _
  rw [List.length_map, List.length_zipIdx]

/-- A participant has the mixins that it had before mixins were marked. -/
theorem exists_mixins_placed_iff
    {P : List Nat → Prop} :
    (∃ u ∈ participants isIgnored types, P u.mixins) ↔
      ∃ u ∈ placed isIgnored types, P u.mixins := by
  simp only [List.mem_iff_getElem?, getElem?_participants]
  constructor
  · rintro ⟨u, ⟨k, hk⟩, hP⟩
    obtain ⟨v, hv, rfl⟩ := Option.map_eq_some_iff.1 hk
    exact ⟨v, ⟨k, hv⟩, hP⟩
  · rintro ⟨u, ⟨k, hk⟩, hP⟩
    exact ⟨{ u with isMixin := (mixinPositions (placed isIgnored types)).contains k },
      ⟨k, by rw [hk]; rfl⟩, hP⟩

theorem wellFormed_participants
    (h : Schema.WellLinked types) :
    WellFormed (participants isIgnored types) where
  parent_lt hp := by
    rw [parentAt_participants] at hp
    rw [length_participants]
    exact (lt_of_parent_placed hp).2
  mixin_lt := by
    intro p hp m hm
    obtain ⟨u, hu, hm⟩ := exists_mixins_placed_iff.1 ⟨p, hp, hm⟩
    rw [length_participants]
    exact mixin_lt_of_placed hu hm
  acyclic := by
    rw [parentAt_participants]
    exact acyclic_placed h
  isMixin_iff := by
    intro k p hp
    rw [getElem?_participants] at hp
    obtain ⟨q, -, rfl⟩ := Option.map_eq_some_iff.1 hp
    rw [parentAt_participants, List.contains_iff_mem, mem_mixinPositions h]
    exact (exists_mixins_placed_iff (P := fun mixins => ∃ m ∈ mixins,
      ReflTransGen (Follows (parentAt (placed isIgnored types))) m k)).symm

end Participants

/-! ### Reachability -/

section Reachability

variable {ps : List Participant} {i j k : Nat} {p : Participant}

/-- A type has a link to another one: its parent or one of its mixins. -/
theorem leads_iff :
    Leads (links ps) i j ↔
      Follows (parentAt ps) i j ∨ ∃ p, ps[i]? = some p ∧ j ∈ p.mixins := by
  unfold Leads links Follows parentAt linksOf
  cases ps[i]? <;> simp [Option.mem_toList]

/-- Whether the type at a position is a mixin. -/
def IsMixinAt (ps : List Participant) (i : Nat) : Prop :=
  ∃ p, ps[i]? = some p ∧ p.isMixin = true

theorem sum_getElem?
    {α : Type} (f : Option α → Nat) (as : List α) :
    ∑ i ∈ Finset.range as.length, f as[i]? = (as.map fun a => f (some a)).sum := by
  induction as with
  | nil => rfl
  | cons a as ih =>
    rw [List.length_cons, Finset.sum_range_succ', List.map_cons, List.sum_cons, Nat.add_comm]
    exact congrArg (f (some a) + ·) ih

/-- A type covers exactly what it reaches. -/
theorem mem_covered_iff :
    j ∈ covered ps i ↔ ReflTransGen (Leads (links ps)) i j := by
  have hout : ∀ a, a ∉ Finset.range ps.length → links ps a = [] := by
    intro a ha
    have hnone : ps[a]? = none := by simpa using ha
    unfold links
    rw [hnone]
    rfl
  have hcount : ∑ a ∈ Finset.range ps.length, (links ps a).length = linkCount ps := by
    unfold linkCount
    rw [List.length_flatMap]
    exact sum_getElem? (fun p => ((p.map linksOf).getD []).length) ps
  exact mem_nodes_iff hout (Nat.le_of_eq hcount)

/-- A type introduces what it reaches and its parent does not. -/
theorem mem_introduced_iff :
    j ∈ introduced ps i ↔
      j < ps.length ∧ ReflTransGen (Leads (links ps)) i j ∧
        (∀ p, parentAt ps i = some p → ¬ ReflTransGen (Leads (links ps)) p j) ∧ j ≠ i := by
  unfold introduced
  simp only [List.mem_filter, List.mem_range, Bool.and_eq_true, List.contains_iff_mem,
    Bool.not_eq_true', bne_iff_ne, and_assoc, mem_covered_iff, ← Bool.not_eq_true]
  cases hp : parentAt ps i with
  | none => simp
  | some p => simp [mem_covered_iff]

/-- What a type is derived from is among what it reaches. -/
theorem reaches_of_derived
    (h : ReflTransGen (Follows (parentAt ps)) i j) :
    ReflTransGen (Leads (links ps)) i j :=
  ReflTransGen.mono (fun _ _ hlink => leads_iff.2 (.inl hlink)) _ _ h

namespace WellFormed

theorem isMixinAt_of_mixin
    (h : WellFormed ps) {m : Nat} (hp : p ∈ ps) (hm : m ∈ p.mixins) :
    IsMixinAt ps m := by
  have hlt := h.mixin_lt p hp m hm
  have hget := List.getElem?_eq_getElem hlt
  exact ⟨_, hget, (h.isMixin_iff hget).2 ⟨p, hp, m, hm, .refl⟩⟩

/-- The parent of a mixin is one. -/
theorem isMixinAt_of_parent
    (h : WellFormed ps) (hi : IsMixinAt ps i) (hj : parentAt ps i = some j) :
    IsMixinAt ps j := by
  obtain ⟨p, hp, hmixin⟩ := hi
  obtain ⟨u, hu, m, hm, hreach⟩ := (h.isMixin_iff hp).1 hmixin
  have hget := List.getElem?_eq_getElem (h.parent_lt hj)
  exact ⟨_, hget, (h.isMixin_iff hget).2 ⟨u, hu, m, hm, hreach.tail hj⟩⟩

/-- All that a mixin reaches is a mixin. -/
theorem isMixinAt_of_leads
    (h : WellFormed ps) (hi : IsMixinAt ps i) (hij : Leads (links ps) i j) :
    IsMixinAt ps j := by
  rcases leads_iff.1 hij with hparent | ⟨p, hp, hm⟩
  · exact h.isMixinAt_of_parent hi hparent
  · exact h.isMixinAt_of_mixin (List.mem_of_getElem? hp) hm

/-- What holds of a type if it holds of its parent holds of all types. -/
theorem induction_parent
    (h : WellFormed ps) {P : Nat → Prop}
    (hstep : ∀ i, (∀ j, parentAt ps i = some j → P j) → P i) (i : Nat) :
    P i := by
  by_cases hi : i < ps.length
  · exact (ends_of_acyclic h.acyclic (fun _ _ => h.parent_lt) hi).induction hstep
  · refine hstep i fun j hj => ?_
    obtain ⟨p, hp, -⟩ := Option.bind_eq_some_iff.1 hj
    exact absurd (List.getElem?_eq_some_iff.1 hp).1 hi

end WellFormed

/-- What a type introduces it reaches through one of its mixins. -/
theorem exists_mixin_of_introduced
    (h : j ∈ introduced ps i) :
    ∃ p m, ps[i]? = some p ∧ m ∈ p.mixins ∧ ReflTransGen (Leads (links ps)) m j := by
  obtain ⟨-, hreach, hparent, hne⟩ := mem_introduced_iff.1 h
  rcases hreach.cases_head with rfl | ⟨m, hlink, hreach⟩
  · exact absurd rfl hne
  · rcases leads_iff.1 hlink with hp | ⟨p, hp, hm⟩
    · exact absurd hreach (hparent m hp)
    · exact ⟨p, m, hp, hm, hreach⟩

/--
Of a type and what it is derived from, exactly one introduces what the type reaches: the one
furthest up that reaches it.
-/
theorem exists_introducer
    (h : WellFormed ps) (hj : j < ps.length) (hreach : ReflTransGen (Leads (links ps)) i j)
    (hderived : ¬ ReflTransGen (Follows (parentAt ps)) i j) :
    ∃ u, ReflTransGen (Follows (parentAt ps)) i u ∧ j ∈ introduced ps u ∧
      ∀ v, ReflTransGen (Follows (parentAt ps)) i v → v ≠ u → j ∉ introduced ps v := by
  induction i using h.induction_parent with
  | hstep i ih =>
    by_cases hparent : ∃ p, parentAt ps i = some p ∧ ReflTransGen (Leads (links ps)) p j
    · obtain ⟨p, hp, hpj⟩ := hparent
      obtain ⟨u, hpu, hu, hother⟩ := ih p hp hpj fun hpj => hderived (.head hp hpj)
      refine ⟨u, .head hp hpu, hu, fun v hv hne hmem => ?_⟩
      rcases hv.cases_head with rfl | ⟨q, hq, hqv⟩
      · exact (mem_introduced_iff.1 hmem).2.2.1 p hp hpj
      · obtain rfl : p = q := Option.some.inj (hp.symm.trans hq)
        exact hother v hqv hne hmem
    · have hnone : ∀ p, parentAt ps i = some p → ¬ ReflTransGen (Leads (links ps)) p j :=
        fun p hp hpj => hparent ⟨p, hp, hpj⟩
      have hne : j ≠ i := by
        rintro rfl
        exact hderived .refl
      refine ⟨i, .refl, mem_introduced_iff.2 ⟨hj, hreach, hnone, hne⟩, fun v hv hvi hmem => ?_⟩
      rcases hv.cases_head with rfl | ⟨p, hp, hpv⟩
      · exact hvi rfl
      · exact hnone p hp ((reaches_of_derived hpv).trans (mem_introduced_iff.1 hmem).2.1)

end Reachability
end Hierarchy
end ContentModels

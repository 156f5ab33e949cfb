import ContentModels.Proofs.CodeModel.Names
import ContentModels.Proofs.Lists
import ContentModels.Proofs.SchemaValidity

/-!
# Relatives of content types

Links of a schema lead from content types to content types, and where these stand in the schema
does not matter: a type has the parent and the compositions that have the ids which it names.
The positions that linked types keep stand for these types (`reflects_of_link`), and a schema can
be linked exactly if all types that it names are there and none is derived from itself
(`exists_link_iff`).
-/

namespace ContentModels

open Outcome Relation Walk

/-! ### Relations between what stands for each other -/

section StandsFor

variable {α β : Type} {f : α → Option β} {r : α → α → Prop} {s : β → β → Prop} {a a' : α} {b b' : β}

/--
What is related on one side stands for what is related on the other side, and nothing is stood
for twice.
-/
structure StandsFor (f : α → Option β) (r : α → α → Prop) (s : β → β → Prop) : Prop where
  forward : ∀ {a a' b}, f a = some b → r a a' → ∃ b', f a' = some b' ∧ s b b'
  backward : ∀ {a b b'}, f a = some b → s b b' → ∃ a', f a' = some b' ∧ r a a'
  unique : ∀ {a a' b}, f a = some b → f a' = some b → a = a'

namespace StandsFor

theorem exists_forward
    (h : StandsFor f r s) (ha : f a = some b) (hr : ReflTransGen r a a') :
    ∃ b', f a' = some b' ∧ ReflTransGen s b b' := by
  induction hr with
  | refl => exact ⟨b, ha, .refl⟩
  | tail _ hr ih =>
    obtain ⟨c, hc, hs⟩ := ih
    obtain ⟨b', hb', hs'⟩ := h.forward hc hr
    exact ⟨b', hb', hs.tail hs'⟩

theorem exists_backward
    (h : StandsFor f r s) (ha : f a = some b) (hs : ReflTransGen s b b') :
    ∃ a', f a' = some b' ∧ ReflTransGen r a a' := by
  induction hs with
  | refl => exact ⟨a, ha, .refl⟩
  | tail _ hs ih =>
    obtain ⟨c, hc, hr⟩ := ih
    obtain ⟨a', ha', hr'⟩ := h.backward hc hs
    exact ⟨a', ha', hr.tail hr'⟩

/-- Steps lead from one to another exactly if they do between what these stand for. -/
theorem reflTransGen_iff
    (h : StandsFor f r s) (ha : f a = some b) (ha' : f a' = some b') :
    ReflTransGen r a a' ↔ ReflTransGen s b b' := by
  constructor
  · intro hr
    obtain ⟨c, hc, hs⟩ := h.exists_forward ha hr
    rwa [← Option.some.inj (hc.symm.trans ha')]
  · intro hs
    obtain ⟨c, hc, hr⟩ := h.exists_backward ha hs
    rwa [← h.unique hc ha']

theorem transGen_iff
    (h : StandsFor f r s) (ha : f a = some b) (ha' : f a' = some b') :
    TransGen r a a' ↔ TransGen s b b' := by
  constructor
  · intro hr
    obtain ⟨c, hac, hr⟩ := TransGen.head'_iff.1 hr
    obtain ⟨d, hd, hs⟩ := h.forward ha hac
    exact TransGen.head' hs ((h.reflTransGen_iff hd ha').1 hr)
  · intro hs
    obtain ⟨d, hbd, hs⟩ := TransGen.head'_iff.1 hs
    obtain ⟨c, hc, hr⟩ := h.backward ha hbd
    exact TransGen.head' hr ((h.reflTransGen_iff hc ha').2 hs)

/-- Single links stand for each other if what they lead to does. -/
theorem follows
    {next : α → Option α} {next' : β → Option β}
    (hbind : ∀ {a b}, f a = some b → (next a).bind f = next' b)
    (hsome : ∀ {a a'}, next a = some a' → ∃ b, f a' = some b)
    (hunique : ∀ {a a' b}, f a = some b → f a' = some b → a = a') :
    StandsFor f (Follows next) (Follows next') where
  forward ha hr := by
    obtain ⟨b', hb'⟩ := hsome hr
    refine ⟨b', hb', ?_⟩
    rw [Follows, ← hbind ha, show next _ = some _ from hr]
    exact hb'
  backward ha hs := by
    rw [Follows, ← hbind ha] at hs
    obtain ⟨a', ha', hb'⟩ := Option.bind_eq_some_iff.1 hs
    exact ⟨a', hb', ha'⟩
  unique := hunique

end StandsFor
end StandsFor

/-! ### Content types and what they name -/

namespace Schema

section Types

variable (isIgnored : String → Bool) (types : List ContentType)

/-- The content type with an id. -/
def withId? (id : Int) : Option ContentType :=
  types.find? (·.id == id)

/-- The parent of a content type. -/
def parentOf (t : ContentType) : Option ContentType :=
  t.parent?.bind (withId? types)

/-- The compositions of a content type, without repetitions and without the type itself. -/
def composedOf (t : ContentType) : List ContentType :=
  ((t.compositionIds.filter (· != t.id)).filterMap (withId? types)).eraseDups

/-- A content type is another one or is derived from it. -/
def Descends : ContentType → ContentType → Prop :=
  ReflTransGen (Follows (parentOf types))

/-- A content type or one that it is derived from is ignored. -/
def IsLeftOut (t : ContentType) : Prop :=
  ∃ u, Descends types t u ∧ isIgnored u.aliasName = true

open Classical in
/-- The content types that take part. -/
noncomputable def takingPart : List ContentType :=
  types.filter fun t => ¬ IsLeftOut isIgnored types t

open Classical in
/-- The compositions that a type mixes in: those that take part and that it is not derived from. -/
noncomputable def mixinsOf (t : ContentType) : List ContentType :=
  (composedOf types t).filter fun u =>
    ¬ TransGen (Follows (parentOf types)) t u ∧ ¬ IsLeftOut isIgnored types u

/-- A content type is mixed in by one that takes part, or something that descends from it is. -/
def IsMixedIn (t : ContentType) : Prop :=
  ∃ u ∈ takingPart isIgnored types, ∃ m ∈ mixinsOf isIgnored types u, Descends types m t

/-- A content type has another one as its parent or mixes it in. -/
def IsRelated (t u : ContentType) : Prop :=
  parentOf types t = some u ∨ u ∈ mixinsOf isIgnored types t

/-- A content type reaches another one through parents and mixins, and its parent does not. -/
def Introduces (t u : ContentType) : Prop :=
  ReflTransGen (IsRelated isIgnored types) t u ∧
    (∀ p, parentOf types t = some p → ¬ ReflTransGen (IsRelated isIgnored types) p u) ∧ u ≠ t

open Classical in
/-- What a content type introduces, in the order of the schema. -/
noncomputable def introducedBy (t : ContentType) : List ContentType :=
  (takingPart isIgnored types).filter fun u => Introduces isIgnored types t u

end Types

section Members

variable {isIgnored : String → Bool} {types : List ContentType} {t u p : ContentType}

theorem mem_of_withId?
    {id : Int} (h : withId? types id = some t) :
    t ∈ types :=
  List.mem_of_find?_eq_some h

theorem id_of_withId?
    {id : Int} (h : withId? types id = some t) :
    t.id = id := by
  simpa using List.find?_some h

theorem mem_of_parentOf
    (h : parentOf types t = some p) :
    p ∈ types := by
  obtain ⟨id, -, hid⟩ := Option.bind_eq_some_iff.1 h
  exact mem_of_withId? hid

theorem mem_of_composedOf
    (h : u ∈ composedOf types t) :
    u ∈ types := by
  obtain ⟨id, -, hid⟩ := List.mem_filterMap.1 (List.mem_eraseDups.1 h)
  exact mem_of_withId? hid

theorem mem_takingPart :
    t ∈ takingPart isIgnored types ↔ t ∈ types ∧ ¬ IsLeftOut isIgnored types t := by
  classical
  unfold takingPart
  rw [List.mem_filter, decide_eq_true_iff]

theorem mem_mixinsOf :
    u ∈ mixinsOf isIgnored types t ↔ u ∈ composedOf types t ∧
      ¬ TransGen (Follows (parentOf types)) t u ∧ ¬ IsLeftOut isIgnored types u := by
  classical
  unfold mixinsOf
  rw [List.mem_filter, decide_eq_true_iff]

theorem mem_of_isRelated
    (h : IsRelated isIgnored types t u) :
    u ∈ types :=
  h.elim mem_of_parentOf fun hmixin => mem_of_composedOf (mem_mixinsOf.1 hmixin).1

end Members

/-! ### Linked types -/

variable {types : List ContentType} {linked : List LinkedType} {t u : ContentType}
  {l : LinkedType} {i j : Nat}

/-- The position of an id is that of the content type with the id. -/
theorem bind_position?
    (types : List ContentType) (id : Int) :
    (position? types id).bind (types[·]?) = withId? types id := by
  unfold position? withId?
  induction types with
  | nil => rfl
  | cons t types ih =>
    rw [List.findIdx?_cons, List.find?_cons]
    cases h : t.id == id with
    | true => rfl
    | false =>
      rw [← ih]
      cases List.findIdx? (·.id == id) types <;> rfl

theorem parent_of_linkParent
    {p : Option Nat} (h : linkParent types t = .ok p) :
    p.bind (types[·]?) = parentOf types t := by
  unfold linkParent at h
  unfold parentOf
  split at h
  · rename_i hnone
    cases h
    rw [hnone]
    rfl
  · rename_i id hid
    rw [hid, Option.bind_some, ← bind_position?]
    split at h
    · rename_i hp
      cases h
      rw [hp]
    · cases h

theorem getElem?_of_linkComposition
    {id : Int} {c : Nat} (h : linkComposition types t id = .ok c) :
    types[c]? = withId? types id := by
  unfold linkComposition at h
  split at h
  · rename_i hc
    cases h
    rw [← bind_position?, hc]
    rfl
  · cases h

theorem filterMap_mapM
    {α β γ ε : Type} {f : α → Except ε β} {g : β → Option γ} {g' : α → Option γ} {as : List α}
    {bs : List β} (hkeep : ∀ a b, f a = .ok b → g b = g' a) (h : as.mapM f = .ok bs) :
    bs.filterMap g = as.filterMap g' := by
  induction as generalizing bs with
  | nil =>
    cases h
    rfl
  | cons a as ih =>
    obtain ⟨b, cs, hb, hcs, rfl⟩ := mapM_cons_eq_ok.1 h
    rw [List.filterMap_cons, List.filterMap_cons, hkeep a b hb, ih hcs]

/-- Linked types in the places of their content types, with positions for what they name. -/
structure Places (types : List ContentType) (linked : List LinkedType) : Prop where
  map_type : linked.map (·.type) = types
  nodup : types.Nodup
  parent : ∀ l ∈ linked, l.parent.bind (types[·]?) = parentOf types l.type
  parent_lt : ∀ l ∈ linked, ∀ p, l.parent = some p → p < types.length
  compositions : ∀ l ∈ linked, l.compositions.filterMap (types[·]?) = composedOf types l.type

/-- Types are linked to what they name, and their parents end. -/
structure Reflects (types : List ContentType) (linked : List LinkedType) : Prop
    extends Places types linked where
  wellLinked : WellLinked linked

theorem places_of_mapM
    (hnodup : types.Nodup) (h : types.mapM (linkType types) = .ok linked) :
    Places types linked := by
  have hlinked : ∀ l ∈ linked, ∃ t, linkType types t = .ok l := by
    intro l hl
    obtain ⟨i, hi⟩ := List.mem_iff_getElem?.1 hl
    exact (exists_of_mapM h hi).imp fun _ ht => ht.2
  refine ⟨?_, hnodup, fun l hl => ?_, fun l hl p hp => ?_, fun l hl => ?_⟩
  · rw [map_of_mapM (fun _ _ hl => (linkType_eq_ok hl).1) h, List.map_id']
  · obtain ⟨t, ht⟩ := hlinked l hl
    obtain ⟨rfl, hparent, -⟩ := linkType_eq_ok ht
    exact parent_of_linkParent hparent
  · obtain ⟨t, ht⟩ := hlinked l hl
    have hparent := (linkType_eq_ok ht).2.1
    rw [hp] at hparent
    exact lt_of_linkParent hparent
  · obtain ⟨t, ht⟩ := hlinked l hl
    obtain ⟨_, -, ht⟩ := bind_eq_ok.1 ht
    obtain ⟨cs, hcs, ht⟩ := bind_eq_ok.1 ht
    cases ht
    have hlt : ∀ c ∈ cs, c < types.length := by
      intro c hc
      obtain ⟨k, hk⟩ := List.mem_iff_getElem?.1 hc
      obtain ⟨id, -, hid⟩ := exists_of_mapM hcs hk
      exact lt_of_linkComposition hid
    have hinj : ∀ c ∈ cs, ∀ d ∈ cs, types[c]? = types[d]? → c = d := fun c hc d _ =>
      (List.getElem?_inj (hlt c hc) hnodup).1
    have hsome : ∀ c ∈ cs, (types[c]?).isSome = true := fun c hc => by simp [hlt c hc]
    unfold composedOf
    rw [filterMap_eraseDups cs hinj hsome]
    congr 1
    exact filterMap_mapM (fun id c hc => getElem?_of_linkComposition hc) hcs

theorem reflects_of_link
    (hvalid : validate types = .ok ()) (h : link types = .ok linked) :
    Reflects types linked where
  toPlaces := places_of_mapM (nodup_of_validate hvalid) (link_eq_ok h).1
  wellLinked := wellLinked_of_link h

namespace Places

variable (h : Places types linked)
include h

theorem length_eq :
    linked.length = types.length := by
  rw [← h.map_type, List.length_map]

theorem getElem?_eq
    (i : Nat) :
    types[i]? = linked[i]?.map (·.type) := by
  rw [← h.map_type, List.getElem?_map]

theorem exists_linked
    (ht : types[i]? = some t) :
    ∃ l ∈ linked, linked[i]? = some l ∧ l.type = t := by
  rw [h.getElem?_eq, Option.map_eq_some_iff] at ht
  obtain ⟨l, hl, rfl⟩ := ht
  exact ⟨l, List.mem_of_getElem? hl, hl, rfl⟩

theorem lt_of_parentAt
    {p : Nat} (hp : parentAt linked i = some p) :
    i < types.length ∧ p < types.length := by
  obtain ⟨l, hl, hp⟩ := Option.bind_eq_some_iff.1 hp
  exact ⟨h.length_eq ▸ (List.getElem?_eq_some_iff.1 hl).1,
    h.parent_lt l (List.mem_of_getElem? hl) p hp⟩

/-- Parents of positions stand for parents of types. -/
theorem standsFor :
    StandsFor (types[·]?) (Follows (parentAt linked)) (Follows (parentOf types)) := by
  refine .follows (fun {i t} ht => ?_) (fun hp => ?_) (eq_of_getElem?_of_nodup h.nodup)
  · obtain ⟨l, hmem, hl, rfl⟩ := h.exists_linked ht
    unfold parentAt
    rw [hl]
    exact h.parent l hmem
  · exact ⟨_, List.getElem?_eq_getElem (h.lt_of_parentAt hp).2⟩

/-- Positions lead back to themselves exactly if content types do. -/
theorem acyclic_iff :
    (∀ i, ¬ TransGen (Follows (parentAt linked)) i i) ↔
      ∀ t ∈ types, ¬ TransGen (Follows (parentOf types)) t t := by
  constructor
  · intro hacyclic t ht
    obtain ⟨i, hi⟩ := List.mem_iff_getElem?.1 ht
    rw [← h.standsFor.transGen_iff hi hi]
    exact hacyclic i
  · intro hacyclic i hloop
    obtain ⟨p, hp, -⟩ := TransGen.head'_iff.1 hloop
    have hi := List.getElem?_eq_getElem (h.lt_of_parentAt hp).1
    rw [h.standsFor.transGen_iff hi hi] at hloop
    exact hacyclic _ (List.mem_of_getElem? hi) hloop

end Places

theorem Reflects.mem_ancestors_iff
    (h : Reflects types linked) (ht : types[i]? = some t) (hu : types[j]? = some u) :
    j ∈ ancestors linked i ↔ TransGen (Follows (parentOf types)) t u := by
  have hi : i < linked.length := h.length_eq ▸ (List.getElem?_eq_some_iff.1 ht).1
  rw [h.wellLinked.mem_ancestors_iff hi, h.standsFor.transGen_iff ht hu]

/-! ### Schemas that can be linked -/

/-- All content types that a content type names are in the schema. -/
structure KnowsLinks (types : List ContentType) (t : ContentType) : Prop where
  parent : ∀ id, t.parent? = some id → ∃ u, withId? types id = some u
  compositions : ∀ id ∈ t.compositionIds, id ≠ t.id → ∃ u, withId? types id = some u

theorem exists_position?_iff
    {id : Int} :
    (∃ p, position? types id = some p) ↔ ∃ u, withId? types id = some u := by
  rw [← bind_position?]
  constructor
  · rintro ⟨p, hp⟩
    rw [hp, Option.bind_some, List.getElem?_eq_getElem (lt_of_position? hp)]
    exact ⟨_, rfl⟩
  · rintro ⟨u, hu⟩
    exact (Option.bind_eq_some_iff.1 hu).imp fun _ hp => hp.1

theorem exists_linkParent_iff :
    (∃ p, linkParent types t = .ok p) ↔
      ∀ id, t.parent? = some id → ∃ u, withId? types id = some u := by
  unfold linkParent
  cases t.parent? with
  | none => simp
  | some id =>
    simp only [Option.some.injEq, forall_eq', ← exists_position?_iff]
    cases position? types id <;> simp

theorem exists_linkComposition_iff
    {id : Int} :
    (∃ c, linkComposition types t id = .ok c) ↔ ∃ u, withId? types id = some u := by
  unfold linkComposition
  rw [← exists_position?_iff]
  cases position? types id <;> simp

theorem exists_linkType_iff :
    (∃ l, linkType types t = .ok l) ↔ KnowsLinks types t := by
  constructor
  · rintro ⟨l, hl⟩
    obtain ⟨parent, hparent, hl⟩ := bind_eq_ok.1 hl
    obtain ⟨cs, hcs, -⟩ := bind_eq_ok.1 hl
    refine ⟨exists_linkParent_iff.1 ⟨parent, hparent⟩, fun id hid hne => ?_⟩
    obtain ⟨c, -, hc⟩ := exists_mem_of_mapM hcs (List.mem_filter.2 ⟨hid, by simpa using hne⟩)
    exact exists_linkComposition_iff.1 ⟨c, hc⟩
  · intro h
    obtain ⟨parent, hparent⟩ := exists_linkParent_iff.2 h.parent
    have hcompositions : ∀ id ∈ t.compositionIds.filter (· != t.id),
        ∃ c, linkComposition types t id = .ok c := fun id hid => by
      obtain ⟨hmem, hne⟩ := List.mem_filter.1 hid
      exact exists_linkComposition_iff.2 (h.compositions id hmem (by simpa using hne))
    obtain ⟨cs, hcs⟩ := exists_mapM hcompositions
    exact ⟨_, bind_eq_ok.2 ⟨parent, hparent, bind_eq_ok.2 ⟨cs, hcs, rfl⟩⟩⟩

/-- A schema can be linked if all that it names is there and no type is derived from itself. -/
theorem exists_link_iff
    (hnodup : types.Nodup) :
    (∃ linked, link types = .ok linked) ↔
      (∀ t ∈ types, KnowsLinks types t) ∧
        ∀ t ∈ types, ¬ TransGen (Follows (parentOf types)) t t := by
  constructor
  · rintro ⟨linked, h⟩
    have hmap := (link_eq_ok h).1
    refine ⟨fun t ht => ?_, (places_of_mapM hnodup hmap).acyclic_iff.1 (wellLinked_of_link h).acyclic⟩
    obtain ⟨l, -, hl⟩ := exists_mem_of_mapM hmap ht
    exact exists_linkType_iff.1 ⟨l, hl⟩
  · rintro ⟨hknows, hacyclic⟩
    obtain ⟨linked, hmap⟩ := exists_mapM fun t ht => exists_linkType_iff.2 (hknows t ht)
    have hplaces := places_of_mapM hnodup hmap
    have hends : ∀ i < linked.length, Ends (parentAt linked) linked.length i := fun i hi =>
      ends_of_acyclic (hplaces.acyclic_iff.2 hacyclic)
        (fun _ _ hp => hplaces.length_eq ▸ (hplaces.lt_of_parentAt hp).2) hi
    refine ⟨linked, bind_eq_ok.2 ⟨linked, hmap, ?_⟩⟩
    have hnone : (linked.zipIdx.find? fun x => isCyclic linked x.2) = none := by
      refine List.find?_eq_none.2 fun x hx => ?_
      have hlt := (List.mem_zipIdx_iff_getElem?.1 hx)
      have hlength := hends x.2 (List.getElem?_eq_some_iff.1 hlt).1
      unfold Ends at hlength
      unfold isCyclic ancestors
      simpa using hlength.ne
    rw [hnone]

end Schema
end ContentModels

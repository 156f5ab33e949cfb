import ContentModels.Proofs.CodeModel.Outline

/-!
# Parts of schemas

A schema is a part of another one if its content types are there with the same links, and
nothing else there is linked to them.  In both a content type of the part has the same relatives
(`IsPart.sameRelatives`): what it is derived from, whether it is left out, what it mixes in,
whether it is mixed in, and what it introduces.
-/

namespace ContentModels

open Relation Walk

/-! ### Relations that agree on a closed set -/

section Closed

variable {α : Type} {p : α → Prop} {r s : α → α → Prop} {a b : α}

/-- Steps lead to the same from within a set that they do not leave. -/
theorem reflTransGen_iff_of_closed
    (hagree : ∀ a, p a → ∀ b, r a b ↔ s a b) (hclosed : ∀ a, p a → ∀ b, s a b → p b) (ha : p a) :
    ReflTransGen r a b ↔ ReflTransGen s a b := by
  constructor
  · intro h
    have hboth : p b ∧ ReflTransGen s a b := by
      induction h with
      | refl => exact ⟨ha, .refl⟩
      | tail _ hr ih =>
        have hs := (hagree _ ih.1 _).1 hr
        exact ⟨hclosed _ ih.1 _ hs, ih.2.tail hs⟩
    exact hboth.2
  · intro h
    have hboth : p b ∧ ReflTransGen r a b := by
      induction h with
      | refl => exact ⟨ha, .refl⟩
      | tail _ hs ih => exact ⟨hclosed _ ih.1 _ hs, ih.2.tail ((hagree _ ih.1 _).2 hs)⟩
    exact hboth.2

theorem transGen_iff_of_closed
    (hagree : ∀ a, p a → ∀ b, r a b ↔ s a b) (hclosed : ∀ a, p a → ∀ b, s a b → p b) (ha : p a) :
    TransGen r a b ↔ TransGen s a b := by
  rw [TransGen.head'_iff, TransGen.head'_iff]
  refine exists_congr fun c => ⟨fun ⟨hr, hrest⟩ => ?_, fun ⟨hs, hrest⟩ => ?_⟩
  · have hs := (hagree a ha c).1 hr
    exact ⟨hs, (reflTransGen_iff_of_closed hagree hclosed (hclosed a ha c hs)).1 hrest⟩
  · exact ⟨(hagree a ha c).2 hs,
      (reflTransGen_iff_of_closed hagree hclosed (hclosed a ha c hs)).2 hrest⟩

/-- Steps do not leave a closed set. -/
theorem mem_of_reflTransGen
    (hclosed : ∀ a, p a → ∀ b, s a b → p b) (ha : p a) (h : ReflTransGen s a b) :
    p b := by
  induction h with
  | refl => exact ha
  | tail _ hs ih => exact hclosed _ ih _ hs

end Closed

namespace Schema

variable {isIgnored : String → Bool} {types types' : List ContentType} {t u p : ContentType}

/-- What a content type introduces is in its schema. -/
theorem mem_of_introduces
    (ht : t ∈ types) (h : Introduces isIgnored types t u) :
    u ∈ types :=
  mem_of_reflTransGen (fun _ _ _ => mem_of_isRelated) ht h.1

/-- The content types of a schema are in another one with the same links, and apart from the rest. -/
structure IsPart (types types' : List ContentType) : Prop where
  mem : ∀ t ∈ types, t ∈ types'
  parent : ∀ t ∈ types, parentOf types' t = parentOf types t
  composed : ∀ t ∈ types, composedOf types' t = composedOf types t
  apart : ∀ t ∈ types', t ∉ types →
    (∀ p, parentOf types' t = some p → p ∉ types) ∧ ∀ u ∈ composedOf types' t, u ∉ types

namespace IsPart

section

variable (h : IsPart types types')
include h

theorem follows_iff
    (ht : t ∈ types) (u : ContentType) :
    Follows (parentOf types') t u ↔ Follows (parentOf types) t u := by
  unfold Follows
  rw [h.parent t ht]

theorem descends_iff
    (ht : t ∈ types) :
    Descends types' t u ↔ Descends types t u :=
  reflTransGen_iff_of_closed (fun _ ha => h.follows_iff ha) (fun _ _ _ => mem_of_parentOf) ht

theorem isLeftOut_iff
    (ht : t ∈ types) :
    IsLeftOut isIgnored types' t ↔ IsLeftOut isIgnored types t :=
  exists_congr fun _ => and_congr_left fun _ => h.descends_iff ht

theorem mem_takingPart_iff
    (ht : t ∈ types) :
    t ∈ takingPart isIgnored types' ↔ t ∈ takingPart isIgnored types := by
  rw [mem_takingPart, mem_takingPart, h.isLeftOut_iff ht]
  exact and_congr_left fun _ => iff_of_true (h.mem t ht) ht

theorem mixinsOf_eq
    (ht : t ∈ types) :
    mixinsOf isIgnored types' t = mixinsOf isIgnored types t := by
  classical
  unfold mixinsOf
  rw [h.composed t ht]
  refine List.filter_congr fun u hu => decide_eq_decide.2 (and_congr ?_ ?_)
  · exact not_congr (transGen_iff_of_closed (fun _ ha => h.follows_iff ha)
      (fun _ _ _ => mem_of_parentOf) ht)
  · exact not_congr (h.isLeftOut_iff (mem_of_composedOf hu))

theorem isRelated_iff
    (ht : t ∈ types) (u : ContentType) :
    IsRelated isIgnored types' t u ↔ IsRelated isIgnored types t u := by
  unfold IsRelated
  rw [h.parent t ht, h.mixinsOf_eq ht]

theorem introduces_iff
    (ht : t ∈ types) (u : ContentType) :
    Introduces isIgnored types' t u ↔ Introduces isIgnored types t u := by
  have hreach : ∀ t ∈ types, (ReflTransGen (IsRelated isIgnored types') t u ↔
      ReflTransGen (IsRelated isIgnored types) t u) := fun t ht =>
    reflTransGen_iff_of_closed (fun _ ha => h.isRelated_iff ha) (fun _ _ _ => mem_of_isRelated) ht
  unfold Introduces
  rw [hreach t ht, h.parent t ht]
  refine and_congr_right fun _ => and_congr_left fun _ => forall_congr' fun p => ?_
  exact imp_congr_right fun hp => not_congr (hreach p (mem_of_parentOf hp))

open Classical in
/-- What takes part, by what is left out of the larger schema. -/
theorem takingPart_eq :
    takingPart isIgnored types = types.filter fun t => ¬ IsLeftOut isIgnored types' t :=
  List.filter_congr fun _ ht => decide_eq_decide.2 (not_congr (h.isLeftOut_iff ht).symm)

open Classical in
/-- What a content type introduces, by what it introduces in the larger schema. -/
theorem introducedBy_eq
    (ht : t ∈ types) :
    introducedBy isIgnored types t =
      (takingPart isIgnored types).filter fun u => Introduces isIgnored types' t u :=
  List.filter_congr fun u _ => decide_eq_decide.2 (h.introduces_iff ht u).symm

/-- What leads into the part comes from the part. -/
theorem mem_of_descends
    (ht : t ∈ types) (hu : u ∈ types') (hderived : Descends types' u t) :
    u ∈ types := by
  by_contra hnot
  have hout : ∀ a, a ∈ types' ∧ a ∉ types → ∀ b, Follows (parentOf types') a b →
      b ∈ types' ∧ b ∉ types := fun a ha b hb =>
    ⟨mem_of_parentOf hb, (h.apart a ha.1 ha.2).1 b hb⟩
  exact (mem_of_reflTransGen hout ⟨hu, hnot⟩ hderived).2 ht

theorem isMixedIn_iff
    (ht : t ∈ types) :
    IsMixedIn isIgnored types' t ↔ IsMixedIn isIgnored types t := by
  constructor
  · rintro ⟨u, hu, m, hm, hderived⟩
    have hcomposed := (mem_mixinsOf.1 hm).1
    have hmem := h.mem_of_descends ht (mem_of_composedOf hcomposed) hderived
    have hutypes : u ∈ types := by
      by_contra hnot
      exact (h.apart u (mem_takingPart.1 hu).1 hnot).2 m hcomposed hmem
    rw [h.mixinsOf_eq hutypes] at hm
    exact ⟨u, (h.mem_takingPart_iff hutypes).1 hu, m, hm, (h.descends_iff hmem).1 hderived⟩
  · rintro ⟨u, hu, m, hm, hderived⟩
    have hutypes := (mem_takingPart.1 hu).1
    have hmem := mem_of_composedOf (mem_mixinsOf.1 hm).1
    rw [← h.mixinsOf_eq hutypes] at hm
    exact ⟨u, (h.mem_takingPart_iff hutypes).2 hu, m, hm, (h.descends_iff hmem).2 hderived⟩

/-- A content type of the part has the same relatives in both schemas. -/
theorem sameRelatives
    (ht : t ∈ types) :
    SameRelatives isIgnored types types' t where
  parent := h.parent t ht
  mixins := h.mixinsOf_eq ht
  isMixedIn := h.isMixedIn_iff ht
  introduces := h.introduces_iff ht

end
end IsPart
end Schema
end ContentModels

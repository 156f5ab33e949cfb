import ContentModels.Proofs.LetterCase
import ContentModels.Proofs.Outcome
import ContentModels.Schema.Validation
import Mathlib.Data.List.Nodup

/-!
# Valid schemas

A schema is valid if each of its content types is, on its own, and no two of them share an id or
an alias, letter case aside (`validate_eq_ok_iff`).  The order of the types does not matter.
-/

namespace ContentModels

open Outcome

namespace Schema

variable {before ts types : List ContentType} {s t : ContentType}

/-- A content type with an alias, and with properties that differ in theirs. -/
def IsSound (t : ContentType) : Prop :=
  Text.isBlankText t.aliasName = false ∧ checkProperties t.aliasName [] t.properties = .ok ()

/-- Two content types that differ in their ids and in their aliases, letter case aside. -/
def Differ (s t : ContentType) : Prop :=
  s.id ≠ t.id ∧ Text.lowercase s.aliasName ≠ Text.lowercase t.aliasName

theorem Differ.symm
    (h : Differ s t) :
    Differ t s :=
  ⟨h.1.symm, h.2.symm⟩

instance : Std.Symm Differ := ⟨fun _ _ => Differ.symm⟩

theorem checkType_eq_ok_iff :
    checkType before t = .ok () ↔ IsSound t ∧ ∀ s ∈ before, Differ s t := by
  have hid : (∀ s ∈ before, s.id ≠ t.id) ↔ (before.find? fun s => s.id == t.id) = none := by
    simp [List.find?_eq_none]
  have halias : (∀ s ∈ before, Text.lowercase s.aliasName ≠ Text.lowercase t.aliasName) ↔
      (before.find? fun s => Text.agreeIgnoringCase s.aliasName t.aliasName) = none := by
    simp only [List.find?_eq_none, Text.agreeIgnoringCase_iff]
  unfold IsSound Differ
  simp only [forall_and, hid, halias]
  unfold checkType
  dsimp only
  cases Text.isBlankText t.aliasName with
  | true => exact iff_of_false nofun nofun
  | false =>
    cases before.find? fun s => s.id == t.id with
    | some s => exact iff_of_false nofun nofun
    | none =>
      cases before.find? fun s => Text.agreeIgnoringCase s.aliasName t.aliasName with
      | some s => exact iff_of_false nofun nofun
      | none => simp

theorem checkTypes_eq_ok_iff :
    checkTypes before ts = .ok () ↔
      (∀ t ∈ ts, IsSound t) ∧ (∀ s ∈ before, ∀ t ∈ ts, Differ s t) ∧ ts.Pairwise Differ := by
  induction ts generalizing before with
  | nil => simp [checkTypes]
  | cons t ts ih =>
    rw [checkTypes, then_eq_ok, ih, checkType_eq_ok_iff, List.forall_mem_cons, List.pairwise_cons]
    simp only [List.forall_mem_append, List.forall_mem_singleton, List.forall_mem_cons, forall_and]
    grind

/-- A schema is valid if its content types are sound and differ from each other. -/
theorem validate_eq_ok_iff :
    validate types = .ok () ↔ (∀ t ∈ types, IsSound t) ∧ types.Pairwise Differ := by
  unfold validate
  rw [checkTypes_eq_ok_iff]
  simp

/-- The order of a schema does not matter. -/
theorem validate_perm
    (h : ts.Perm types) (hvalid : validate ts = .ok ()) :
    validate types = .ok () := by
  rw [validate_eq_ok_iff] at hvalid ⊢
  exact ⟨fun t ht => hvalid.1 t (h.mem_iff.2 ht), (h.pairwise_iff Differ.symm).1 hvalid.2⟩

section

variable (h : validate types = .ok ())
include h

theorem nodup_aliases :
    (types.map fun t => Text.lowercase t.aliasName).Nodup :=
  List.pairwise_map.2 ((validate_eq_ok_iff.1 h).2.imp And.right)

theorem nodup_ids :
    (types.map (·.id)).Nodup :=
  List.pairwise_map.2 ((validate_eq_ok_iff.1 h).2.imp And.left)

theorem nodup_of_validate :
    types.Nodup :=
  (nodup_ids h).of_map

/-- A content type is known by its alias, however it is written. -/
theorem eq_of_lowercase
    (hs : s ∈ types) (ht : t ∈ types)
    (heq : Text.lowercase s.aliasName = Text.lowercase t.aliasName) :
    s = t :=
  List.inj_on_of_nodup_map (nodup_aliases h) hs ht heq

/-- A content type is known by its id. -/
theorem eq_of_id
    (hs : s ∈ types) (ht : t ∈ types) (heq : s.id = t.id) :
    s = t :=
  List.inj_on_of_nodup_map (nodup_ids h) hs ht heq

end
end Schema
end ContentModels

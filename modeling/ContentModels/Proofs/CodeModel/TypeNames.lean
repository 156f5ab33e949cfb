import ContentModels.CodeModel.TypeNames
import ContentModels.Proofs.Tables
import ContentModels.Proofs.Outcome

/-!
# Naming types

Participants get names exactly if all names of classes are usable and all names of generated
types differ by more than letter case (`assignAll_eq_ok_iff`).
-/

namespace ContentModels

open Outcome

theorem Naming.validate_eq_ok_iff
    {name subject : String} :
    validate name subject = .ok () ↔ isValid name = true := by
  unfold validate
  split
  · rename_i hvalid
    exact iff_of_true rfl hvalid
  · rename_i hvalid
    exact iff_of_false nofun hvalid

namespace TypeNames

variable {settings : Settings} {strategies : Strategies} {options : ContentTypeOptions}
  {ps : List Participant} {p : Participant} {named : List NamedType} {t : NamedType}

/-- A participant with the name of its class. -/
def withName (strategies : Strategies) (options : ContentTypeOptions) (p : Participant) :
    NamedType :=
  { p with name := nameOf strategies options p.type }

/-- A participant gets its name if it is usable. -/
theorem assign_eq_ok_iff :
    assign strategies options p = .ok t ↔
      t = withName strategies options p ∧
        Naming.isValid (nameOf strategies options p.type) = true := by
  unfold assign
  dsimp only
  rw [then_eq_ok, Naming.validate_eq_ok_iff, and_comm]
  exact and_congr_left fun _ => ⟨fun h => (Except.ok.inj h).symm, fun h => congrArg Except.ok h.symm⟩

/-- Names pass the check if they differ by more than letter case, also from those before them. -/
theorem checkDistinct_eq_ok_iff
    {before : Keyed (String × String)} {names : List (String × String)} :
    checkDistinct before names = .ok () ↔
      (names.map fun x => Text.lowercase x.2).Nodup ∧
        ∀ x ∈ names, before.get? (Text.lowercase x.2) = none := by
  induction names generalizing before with
  | nil => exact iff_of_true rfl ⟨.nil, nofun⟩
  | cons x names ih =>
    rw [List.map_cons, List.nodup_cons, List.mem_map, List.forall_mem_cons, checkDistinct]
    cases hx : before.get? (Text.lowercase x.2) with
    | some other => exact iff_of_false nofun fun h => nomatch h.2.1
    | none =>
      have hfresh : ∀ y : String × String,
          (before.insert (Text.lowercase x.2) x).get? (Text.lowercase y.2) = none ↔
            Text.lowercase y.2 ≠ Text.lowercase x.2 ∧ before.get? (Text.lowercase y.2) = none := by
        intro y
        rw [Keyed.get?_insert]
        split
        · rename_i heq
          exact iff_of_false nofun fun h => h.1 heq
        · rename_i hne
          exact (and_iff_right hne).symm
      refine ih.trans ?_
      simp only [hfresh, forall_and]
      grind

theorem assignAll_eq_ok_iff :
    assignAll settings strategies options ps = .ok named ↔
      named = ps.map (withName strategies options) ∧
        (∀ p ∈ ps, Naming.isValid (nameOf strategies options p.type) = true) ∧
        ((named.flatMap (generated settings.propertyStyle)).map Text.lowercase).Nodup := by
  have hnames : (all settings.propertyStyle named).map (fun x => Text.lowercase x.2) =
      (named.flatMap (generated settings.propertyStyle)).map Text.lowercase := by
    unfold all
    rw [List.map_flatMap, List.map_flatMap]
    simp only [List.map_map, Function.comp_def]
  rw [← and_assoc, ← mapM_eq_ok_iff fun _ _ => assign_eq_ok_iff, ← hnames]
  unfold assignAll
  rw [bind_eq_ok]
  constructor
  · rintro ⟨named', hmap, h⟩
    obtain ⟨hdistinct, h⟩ := then_eq_ok.1 h
    cases h
    exact ⟨hmap, (checkDistinct_eq_ok_iff.1 hdistinct).1⟩
  · rintro ⟨hmap, hdistinct⟩
    exact ⟨named, hmap, then_eq_ok.2 ⟨checkDistinct_eq_ok_iff.2 ⟨hdistinct, fun _ _ => rfl⟩, rfl⟩⟩

end TypeNames
end ContentModels

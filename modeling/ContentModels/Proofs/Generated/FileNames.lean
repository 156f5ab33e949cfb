import ContentModels.Generated.Files
import ContentModels.Proofs.CodeModel.GeneratedNames
import ContentModels.Proofs.Generated.Readable
import ContentModels.Proofs.Generated.Written
import ContentModels.Proofs.LetterCase
import ContentModels.Proofs.Naming

/-!
# One file for each model

Texts are collected by the names of classes, and files go by these names.  Since the names of
generated types differ by more than letter case, no text takes the place of another one, and
no file that of another, not even where letter case in file names does not count.
-/

namespace ContentModels

namespace Generated

open Outcome

variable {settings : Settings} {strategies : Strategies} {schema : List ContentType}
  {options : CodeOptions} {m : CodeModel} {l : Layout}

/-- The types that are written for a model have the names that were assigned for it. -/
theorem Layout.names_writtenTypes
    (l : Layout) (models : List Model) (t : Model) :
    ((l.writtenTypes models t).map (·.name)).Perm
      (TypeNames.generated l.settings.propertyStyle t.toNamedType) := by
  unfold writtenTypes TypeNames.generated
  rw [List.map_append, List.map_append]
  refine List.Perm.append ?_ ?_
  · cases t.isMixin with
    | true => exact .swap _ _ []
    | false => exact .refl _
  · cases l.settings.propertyStyle.hasExtensionMethods <;> exact .refl _

/-- Each model has its text, in order. -/
theorem texts_eq
    (h : CodeModel.build settings strategies schema options = .ok m)
    (hl : Layout.ofSettings settings m.usingNamespaces = .ok l) :
    texts settings m =
      .ok (m.models.map fun t => (t.name, l.file m.modelsNamespace (l.types m.models t))) := by
  have hnodup : ((m.models.map fun t =>
      (t.name, l.file m.modelsNamespace (l.types m.models t))).map (·.1)).Nodup := by
    rw [List.map_map]
    exact CodeModel.nodup_names h
  unfold texts
  rw [hl]
  exact congrArg Except.ok (byClass_eq_self hnodup)

theorem lowercase_fileName
    {name : String} (h : Naming.isValid name = true) :
    Text.lowercase (fileName name) = Text.lowercase name ++ Text.lowercase suffix := by
  have hsuffix : (suffix.toList.all fun c => decide (c.val < 0x80)) = true := by decide
  refine Text.lowercase_append (Naming.ascii_of_isValid h) fun c hc => ?_
  exact of_decide_eq_true (List.all_eq_true.1 hsuffix c hc)

/-- Files of different models have names that differ by more than letter case. -/
theorem nodup_lowercase_fileName
    (h : CodeModel.build settings strategies schema options = .ok m) :
    (m.models.map fun t => Text.lowercase (fileName t.name)).Nodup := by
  obtain ⟨_, _, _, _, hbuilt⟩ := CodeModel.exists_built h
  have hnames : (m.models.map fun t => Text.lowercase (fileName t.name)) =
      ((m.models.map (·.name)).map Text.lowercase).map (· ++ Text.lowercase suffix) := by
    rw [List.map_map, List.map_map]
    exact List.map_congr_left fun t ht => lowercase_fileName (hbuilt.isValid_name ht)
  have hlower : ((m.models.map (·.name)).map Text.lowercase).Nodup :=
    (CodeModel.nodup_lowercase_generated h).sublist
      ((CodeModel.sublist_generated settings.propertyStyle m.models).map Text.lowercase)
  rw [hnames]
  exact hlower.map fun a b heq => (String.append_left_inj _).1 heq

/--
Nothing that is generated is lost: all generated types have names that differ by more than
letter case, each model has its text with its types, in the order of the models, and each text
has a file of its own, also where letter case in file names does not count.
-/
theorem texts_complete
    (h : CodeModel.build settings strategies schema options = .ok m)
    (hl : Layout.ofSettings settings m.usingNamespaces = .ok l) :
    ((m.models.flatMap (l.writtenTypes m.models)).map fun w => Text.lowercase w.name).Nodup ∧
      texts settings m = .ok (m.models.map fun t => (t.name,
        l.file m.modelsNamespace (blocks ((l.writtenTypes m.models t).map (·.lines l))))) ∧
      (m.models.map fun t => Text.lowercase (fileName t.name)).Nodup := by
  refine ⟨?_, ?_, nodup_lowercase_fileName h⟩
  · have hperm : ((m.models.flatMap (l.writtenTypes m.models)).map (·.name)).Perm
        (m.models.flatMap fun t => TypeNames.generated settings.propertyStyle t.toNamedType) := by
      rw [List.map_flatMap, ← (Layout.ofSettings_eq_ok hl).1]
      exact List.Perm.flatMap_left _ fun t _ => l.names_writtenTypes m.models t
    have hlower := (hperm.map Text.lowercase).nodup_iff.2 (CodeModel.nodup_lowercase_generated h)
    rw [List.map_map] at hlower
    exact hlower
  · simp only [← Layout.types_eq]
    exact texts_eq h hl

/-- Nothing is lost of what is generated for pages, news and their mixins. -/
theorem texts_complete_news :
    ∃ (m : CodeModel) (l : Layout),
      CodeModel.build .standard (.standard .standard) CodeModel.newsSchema .empty = .ok m ∧
        Layout.ofSettings .standard m.usingNamespaces = .ok l ∧ m.models.length = 4 ∧
          ((m.models.flatMap (l.writtenTypes m.models)).map fun w => Text.lowercase w.name).Nodup ∧
            texts .standard m = .ok (m.models.map fun t => (t.name,
              l.file m.modelsNamespace (blocks ((l.writtenTypes m.models t).map (·.lines l))))) ∧
            (m.models.map fun t => Text.lowercase (fileName t.name)).Nodup := by
  obtain ⟨m, hbuild, hshape⟩ := CodeModel.exists_build_newsSchema
  have hlength : m.models.length = 4 := by simpa using congrArg List.length hshape
  have hl : Layout.ofSettings .standard m.usingNamespaces =
      .ok ⟨.standard, true, m.usingNamespaces.foldl addOnce standardUsings⟩ := rfl
  exact ⟨m, _, hbuild, hl, hlength, texts_complete hbuild hl⟩

end Generated
end ContentModels

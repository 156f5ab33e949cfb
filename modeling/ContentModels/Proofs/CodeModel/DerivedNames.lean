import ContentModels.Proofs.CodeModel.Refusals
import ContentModels.Proofs.Naming

/-!
# Models with derived names

Declarations that give no names leave all names to be derived, also once aliases are mapped to
class names.  Building a model then calls a name unusable only if it is a keyword, and it is one
that is left of an alias or of a display name (`unusable_of_derived`).
-/

namespace ContentModels

/-- Whether a declaration gives a content type or a property its name. -/
def Declaration.isRename : Declaration → Bool
  | .renameType .. | .renameProperty .. => true
  | _ => false

/-! ### Options that give no names -/

/-- Options of properties, none of which gives a property its name. -/
def Keyed.Nameless (t : Keyed PropertyOptions) : Prop :=
  ∀ key p, t.get? key = some p → p.names = .empty

/-- Changes that give no names leave a table without names. -/
theorem Keyed.Nameless.update
    {t : Keyed PropertyOptions} (h : t.Nameless) (key : String)
    {f : PropertyOptions → PropertyOptions} (hf : ∀ p, p.names = .empty → (f p).names = .empty) :
    (t.update key fun p => f (p.getD .empty)).Nameless := by
  intro k p hp
  rw [Keyed.get?_update] at hp
  split at hp
  · cases hp
    cases hkey : t.get? key with
    | none => exact hf .empty rfl
    | some q => exact hf q (h key q hkey)
  · exact h k p hp

namespace ContentTypeOptions

/-- Options that give names neither to content types nor to properties. -/
structure Nameless (o : ContentTypeOptions) : Prop where
  classNames : o.classNames = .empty
  byAlias : o.byAlias.Nameless
  byClass : o.byClass.Nameless

namespace Nameless

variable {o mapped : ContentTypeOptions}

theorem updateProperties
    (h : o.Nameless) (key : TypeKey) {f : PropertyOptions → PropertyOptions}
    (hf : ∀ p, (f p).names = p.names) :
    (o.updateProperties key f).Nameless := by
  have hkeep : ∀ p, p.names = .empty → (f p).names = .empty := fun p hp => (hf p).trans hp
  cases key with
  | typeAlias _ => exact { h with byAlias := h.byAlias.update _ hkeep }
  | className _ => exact { h with byClass := h.byClass.update _ hkeep }

theorem declare
    (h : o.Nameless) {d : Declaration} (hd : d.isRename = false) :
    (o.declare d).Nameless := by
  cases d with
  | renameType | renameProperty => cases hd
  | ignoreProperty key | implementProperty key =>
    rw [ContentTypeOptions.declare]
    exact h.updateProperties key fun _ => rfl
  | _ => exact ⟨h.classNames, h.byAlias, h.byClass⟩

/-- Declarations that give no names leave options without names. -/
theorem ofDeclarations
    {ds : List Declaration} (hds : ∀ d ∈ ds, d.isRename = false) :
    (CodeOptions.ofDeclarations ds).contentTypes.Nameless := by
  unfold CodeOptions.ofDeclarations
  rw [CodeOptions.contentTypes_declareAll]
  exact List.foldlRecOn ds _ ⟨rfl, nofun, nofun⟩ fun o ho d hd => ho.declare (hds d hd)

/-- Mapping aliases to class names gives no names either. -/
theorem mapAliases
    {map : Keyed String} (h : o.Nameless) (hmap : o.mapAliases map = .ok mapped) :
    mapped.Nameless := by
  unfold ContentTypeOptions.mapAliases at hmap
  split at hmap
  · cases hmap
  · cases hmap
    refine ⟨h.classNames, nofun, List.foldlRecOn _ _ h.byClass fun t ht e he => ?_⟩
    have hnames : e.2.names = .empty := h.byAlias e.1 e.2 (Keyed.mem_entries_iff.1 he)
    split
    · refine ht.update _ (f := fun p => p.merge e.2) fun p hp => ?_
      rw [PropertyOptions.merge, hnames, hp]
      rfl
    · exact ht

/-- Without names given, the name of a content type is derived. -/
theorem typeName_eq
    (h : o.Nameless) (strategies : Strategies) (t : ContentType) :
    TypeNames.nameOf strategies o t = strategies.typeName t.aliasName t.name := by
  unfold TypeNames.nameOf className?
  rw [h.classNames]
  rfl

/-- Without names given, the name of a property is derived. -/
theorem propertyName_eq
    (h : o.Nameless) (strategies : Strategies) (className : String) (p : PropertyType) :
    Properties.nameOf strategies (o.ofClass className) p =
      strategies.propertyName p.aliasName p.name := by
  have hnone : (o.ofClass className).findSome? (·.name? p.aliasName) = none := by
    rw [List.findSome?_eq_none_iff]
    intro options hoptions
    obtain ⟨key, -, hkey⟩ := List.mem_filterMap.1 hoptions
    rw [PropertyOptions.name?, h.byClass key options hkey]
    rfl
  rw [Properties.nameOf, hnone]
  rfl

end Nameless
end ContentTypeOptions

/-! ### Building models -/

namespace CodeModel

open Naming

/-- A keyword that is left of an alias or a display name, and what it is derived for. -/
def IsLeftKeyword (source : NameSource) (schema : List ContentType) (name subject : String) : Prop :=
  name ∈ keywords ∧ ∃ t ∈ schema,
    (name = kept source (origin source t.aliasName t.name) ∧ subject = t.subject) ∨
      ∃ p ∈ t.properties,
        name = kept source (origin source p.aliasName p.name) ∧ subject = p.subjectIn t

/--
A derived name is usable unless a keyword is left of the text that it is derived from, which
takes a text none of whose words starts with what a name may hold.  Where no names are given,
building a model calls names unusable for this reason only.
-/
theorem unusable_of_derived
    {strategies : Strategies} {source : NameSource}
    (htype : strategies.typeName = derive source)
    (hproperty : strategies.propertyName = derive source)
    {ds : List Declaration} (hds : ∀ d ∈ ds, d.isRename = false) :
    (∀ aliasName displayName, isValid (derive source aliasName displayName) = true ↔
      kept source (origin source aliasName displayName) ∉ keywords) ∧
    (∀ text, kept source text ∈ keywords →
      ∀ part ∈ parts source text, ∀ c ∈ part.head?, isNameChar c = false) ∧
    ∀ settings schema name subject,
      build settings strategies schema (.ofDeclarations ds) =
        .error (.configuration (.invalidName name subject)) →
      IsLeftKeyword source schema name subject := by
  refine ⟨fun _ _ => isValid_derive_iff, fun _ => head?_of_kept_mem_keywords, ?_⟩
  intro settings schema name subject hbuild
  have hnameless := ContentTypeOptions.Nameless.ofDeclarations hds
  have hrefuses : Refuses (IsLeftKeyword source schema)
      (build settings strategies schema (.ofDeclarations ds)) := by
    refine refuses_build (CodeOptions.mapped_ofDeclarations ds) ?_ ?_
    · intro t ht
      rw [hnameless.typeName_eq, htype]
      intro hvalid
      have hkeyword := mem_keywords_of_derive hvalid
      rw [derive_eq_kept hkeyword]
      exact ⟨hkeyword, t, ht, .inl ⟨rfl, rfl⟩⟩
    · intro map mapped hmap className t ht p hp
      rw [(hnameless.mapAliases hmap).propertyName_eq, hproperty]
      intro hvalid
      have hkeyword := mem_keywords_of_derive hvalid
      rw [derive_eq_kept hkeyword]
      exact ⟨hkeyword, t, ht, .inr ⟨p, hp, rfl, rfl⟩⟩
  obtain ⟨_, ⟨⟩, hunusable⟩ := hrefuses _ hbuild
  exact hunusable name subject rfl

/-- A content type whose alias starts with a letter that names do not hold. -/
def accentedSchema : List ContentType :=
  [typeWith 1 "page" none [], typeWith 2 "éclass" none []]

/-- Of the alias a keyword is left, and so there is no model, although no names are given. -/
theorem unusable_of_derived_accented :
    derive .pascalAlias "éclass" "" = "class" ∧ "class" ∈ keywords ∧
      build .standard (.standard .standard) accentedSchema (.ofDeclarations [.ignoreType "old*"]) =
        .error (.configuration (.invalidName "class" "content type 'éclass'")) ∧
      IsLeftKeyword .pascalAlias accentedSchema "class" "content type 'éclass'" := by
  have hbuild : build .standard (.standard .standard) accentedSchema
      (.ofDeclarations [.ignoreType "old*"]) =
        .error (.configuration (.invalidName "class" "content type 'éclass'")) := by
    decide +kernel
  have hds : ∀ d ∈ [Declaration.ignoreType "old*"], d.isRename = false := by decide
  exact ⟨by decide +kernel, by decide +kernel, hbuild,
    (unusable_of_derived rfl rfl hds).2.2 _ _ _ _ hbuild⟩

end CodeModel
end ContentModels

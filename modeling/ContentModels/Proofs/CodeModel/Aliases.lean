import ContentModels.Proofs.CodeModel.NameTables
import ContentModels.Proofs.CodeModel.Outline

/-!
# Aliases of content types

No two content types of a valid schema have aliases that differ by letter case alone, and the
name of a class comes from the content type.  So an alias, however it is written, stands for the
name of one class, and what options file under the alias counts for this class.
-/

namespace ContentModels

open Outcome

/-- Whether a key of options is the alias of a content type or the name of its class. -/
def TypeKey.names (key : TypeKey) (t : NamedType) : Bool :=
  match key with
  | .typeAlias aliasName => Text.agreeIgnoringCase aliasName t.type.aliasName
  | .className name => Text.agreeIgnoringCase name t.name

namespace CodeModel.Built

open ContentTypeOptions PropertyOptions

variable {settings : Settings} {strategies : Strategies} {schema : List ContentType}
  {options : CodeOptions} {m : CodeModel} {linked : List Schema.LinkedType}
  {named : List NamedType} {mapped : ContentTypeOptions} {propertied : List PropertiedType}
  {t : Model}

/-- An alias, however it is written, stands for the name of the class. -/
theorem get?_foldedNames
    (h : Built settings strategies schema options linked named mapped propertied m)
    (ht : t ∈ m.models) :
    (foldedNames (TypeNames.byAlias named)).get? (Text.lowercase t.type.aliasName) =
      some t.name := by
  have hmem : t.type ∈ Schema.takingPart options.contentTypes.isIgnored schema := by
    rw [← h.map_type]
    exact List.mem_map_of_mem ht
  exact h.get?_foldedNames_eq_some_iff.2 ⟨t.type, hmem, rfl, (h.name_eq ht).symm⟩

/-- What options say about a class or about its alias counts for the class. -/
theorem isImplemented_ofClass
    (h : Built settings strategies schema options linked named mapped propertied m)
    (ht : t ∈ m.models) {key : TypeKey} (hkey : key.names t.toNamedType = true) {property : String}
    (himplemented :
      implementsAt (options.contentTypes.tableOf key) key.folded property = true) :
    (mapped.ofClass t.name).any (·.isImplemented property) = true := by
  refine any_ofClass ((implementsAt_mapAliases h.map _).2 ?_)
  cases key with
  | className name =>
    have hfolded : (TypeKey.className name).folded = Text.lowercase t.name :=
      Text.agreeIgnoringCase_iff.1 hkey
    rw [hfolded] at himplemented
    exact .inl himplemented
  | typeAlias aliasName =>
    have hfolded : (TypeKey.typeAlias aliasName).folded = Text.lowercase t.type.aliasName :=
      Text.agreeIgnoringCase_iff.1 hkey
    rw [hfolded] at himplemented
    exact .inr ⟨_, _, h.get?_foldedNames ht, rfl, himplemented⟩

end CodeModel.Built
end ContentModels

import ContentModels.Proofs.CodeModel.Comparison
import Mathlib.Data.List.DropRight

/-!
# Types of values

The type of a property's values is a text with placeholders in it.  Where such a text is made of
plain pieces and placeholders (`Piece`), replacing placeholders replaces each of these and leaves
the plain pieces as they are (`replace_flatMap`), and blanks are trimmed off plain pieces only.
In a code model a placeholder stands for the class of the content type with the alias, for an
interface of its kind if it is left out, and for the interface of content if there is none
(`valueTypes_resolved`).
-/

namespace ContentModels
namespace ValueType

/-! ### Pieces -/

/-- A piece of the type of a property's values. -/
inductive Piece where
  | plain (cs : List Char)
  | placeholder (aliasName : List Char)
deriving DecidableEq, Repr

namespace Piece

/-- How a piece is written. -/
def text : Piece → List Char
  | plain cs => cs
  | placeholder aliasName => opening ++ aliasName ++ ['\x7d']

/-- Nothing in a plain piece opens a placeholder, and nothing in an alias closes one. -/
def IsSound : Piece → Prop
  | plain cs => '\x7b' ∉ cs
  | placeholder aliasName => aliasName ≠ [] ∧ '\x7d' ∉ aliasName

/-- The alias in a placeholder. -/
def alias? : Piece → Option (List Char)
  | plain _ => none
  | placeholder aliasName => some aliasName

/-- A piece with a name in the place of its placeholder. -/
def replaced (nameOf : List Char → String) : Piece → List Char
  | plain cs => cs
  | placeholder aliasName => (nameOf aliasName).toList

end Piece

/-! ### Replacing placeholders -/

variable {names : Keyed String} {fallback : String} {cs rest : List Char} {ps qs : List Piece}

theorem placeholder?_of_ne
    {c : Char} (h : c ≠ '\x7b') (cs : List Char) :
    placeholder? (c :: cs) = none := by
  have hstart : opening.isPrefixOf (c :: cs) = false := by
    refine Bool.eq_false_iff.2 fun hprefix => h ?_
    obtain ⟨ds, hds⟩ := List.isPrefixOf_iff_prefix.1 hprefix
    exact (List.cons.inj hds).1.symm
  rw [placeholder?, if_neg (by simp [hstart])]

theorem placeholder?_text
    {aliasName : List Char} (hne : aliasName ≠ []) (hclose : '\x7d' ∉ aliasName)
    (rest : List Char) :
    placeholder? ((Piece.placeholder aliasName).text ++ rest) =
      some (aliasName, opening.length + aliasName.length + 1) := by
  have htext : (Piece.placeholder aliasName).text ++ rest =
      opening ++ (aliasName ++ '\x7d' :: rest) := by
    simp [Piece.text]
  have htake : (aliasName ++ '\x7d' :: rest).takeWhile (· != '\x7d') = aliasName := by
    rw [List.takeWhile_append_of_pos, List.takeWhile_cons_of_neg (by simp), List.append_nil]
    exact fun c hc => bne_iff_ne.2 fun heq => hclose (heq ▸ hc)
  unfold placeholder?
  dsimp only
  rw [htext, if_pos (List.isPrefixOf_iff_prefix.2 (List.prefix_append _ _)), List.drop_left, htake,
    if_neg]
  simp [hne]

theorem replace_plain
    (h : '\x7b' ∉ cs) (rest : List Char) :
    replace names fallback (cs ++ rest) = cs ++ replace names fallback rest := by
  induction cs with
  | nil => rfl
  | cons c cs ih =>
    rw [List.mem_cons, not_or] at h
    rw [List.cons_append, replace, placeholder?_of_ne (Ne.symm h.1), ih h.2, List.cons_append]

theorem replace_placeholder
    {aliasName : List Char} (hne : aliasName ≠ []) (hclose : '\x7d' ∉ aliasName)
    (rest : List Char) :
    replace names fallback ((Piece.placeholder aliasName).text ++ rest) =
      (nameOf names fallback aliasName).toList ++ replace names fallback rest := by
  have hstart := placeholder?_text hne hclose rest
  obtain ⟨os, hos⟩ : ∃ os, (Piece.placeholder aliasName).text = '\x7b' :: os := ⟨_, rfl⟩
  have hlength : os.length = opening.length + aliasName.length := by
    have := congrArg List.length hos
    simp only [Piece.text, List.length_append, List.length_cons, List.length_nil] at this
    omega
  rw [hos, List.cons_append] at hstart ⊢
  rw [replace, hstart]
  dsimp only
  rw [Nat.add_sub_cancel, List.drop_left' hlength]

/-- Each placeholder is replaced, and nothing else. -/
theorem replace_flatMap
    (h : ∀ p ∈ ps, p.IsSound) :
    replace names fallback (ps.flatMap Piece.text) =
      ps.flatMap (Piece.replaced (nameOf names fallback)) := by
  induction ps with
  | nil => exact replace.eq_1 _ _
  | cons p ps ih =>
    obtain ⟨hp, hps⟩ := List.forall_mem_cons.1 h
    rw [List.flatMap_cons, List.flatMap_cons, ← ih hps]
    cases p with
    | plain cs => exact replace_plain hp _
    | placeholder aliasName => exact replace_placeholder hp.1 hp.2 _

/-! ### Trimming -/

/-- Pieces of a text with the same placeholders as other pieces. -/
structure Trims (ps qs : List Piece) : Prop where
  sound : ∀ q ∈ qs, q.IsSound
  aliases : qs.filterMap Piece.alias? = ps.filterMap Piece.alias?

theorem exists_dropWhile
    (h : ∀ p ∈ ps, p.IsSound) :
    ∃ qs, Trims ps qs ∧
      qs.flatMap Piece.text = (ps.flatMap Piece.text).dropWhile Text.isBlank := by
  induction ps with
  | nil => exact ⟨[], ⟨nofun, rfl⟩, rfl⟩
  | cons p ps ih =>
    obtain ⟨hp, hps⟩ := List.forall_mem_cons.1 h
    cases p with
    | placeholder aliasName => exact ⟨_, ⟨h, rfl⟩, rfl⟩
    | plain cs =>
      rw [List.flatMap_cons, Piece.text, List.dropWhile_append]
      split
      · obtain ⟨qs, htrims, hqs⟩ := ih hps
        exact ⟨qs, ⟨htrims.sound, htrims.aliases⟩, hqs⟩
      · have hsound : (Piece.plain (cs.dropWhile Text.isBlank)).IsSound :=
          fun hmem => hp ((List.dropWhile_sublist _).subset hmem)
        exact ⟨.plain (cs.dropWhile Text.isBlank) :: ps,
          ⟨List.forall_mem_cons.2 ⟨hsound, hps⟩, rfl⟩, rfl⟩

/-- Trimming the end, like trimming the start, leaves blanks out of plain pieces only. -/
theorem exists_trimEndChars
    (h : ∀ p ∈ ps, p.IsSound) :
    ∃ qs, Trims ps qs ∧
      qs.flatMap Piece.text = Text.trimEndChars (ps.flatMap Piece.text) := by
  induction ps using List.reverseRecOn with
  | nil => exact ⟨[], ⟨nofun, rfl⟩, rfl⟩
  | append_singleton ps p ih =>
    obtain ⟨hps, hp⟩ := List.forall_mem_append.1 h
    have hp := hp p (List.mem_singleton_self p)
    rw [List.flatMap_append, List.flatMap_singleton]
    unfold Text.trimEndChars at ih ⊢
    cases p with
    | placeholder aliasName =>
      refine ⟨_, ⟨h, rfl⟩, ?_⟩
      rw [List.flatMap_append, List.flatMap_singleton]
      simp [Piece.text, Text.isBlank]
    | plain cs =>
      rw [Piece.text, List.reverse_append, List.dropWhile_append]
      split
      · obtain ⟨qs, htrims, hqs⟩ := ih hps
        refine ⟨qs, ⟨htrims.sound, ?_⟩, hqs⟩
        rw [htrims.aliases, List.filterMap_append]
        exact (List.append_nil _).symm
      · have hsound : (Piece.plain (cs.reverse.dropWhile Text.isBlank).reverse).IsSound :=
          fun hmem => hp (List.mem_reverse.1 ((List.dropWhile_sublist _).subset
            (List.mem_reverse.1 hmem)))
        refine ⟨ps ++ [.plain (cs.reverse.dropWhile Text.isBlank).reverse],
          ⟨List.forall_mem_append.2 ⟨hps, List.forall_mem_singleton.2 hsound⟩, ?_⟩, ?_⟩
        · rw [List.filterMap_append, List.filterMap_append]
          rfl
        · rw [List.flatMap_append, List.flatMap_singleton, Piece.text, List.reverse_append,
            List.reverse_reverse]

/-- A trimmed text is made of the placeholders of the text and of what is left of plain pieces. -/
theorem exists_trimChars
    (h : ∀ p ∈ ps, p.IsSound) :
    ∃ qs, Trims ps qs ∧ qs.flatMap Piece.text = Text.trimChars (ps.flatMap Piece.text) := by
  obtain ⟨qs, hstart, hqs⟩ := exists_dropWhile h
  obtain ⟨rs, hend, hrs⟩ := exists_trimEndChars hstart.sound
  refine ⟨rs, ⟨hend.sound, hend.aliases.trans hstart.aliases⟩, ?_⟩
  rw [hrs, hqs]
  rfl

/-! ### Resolving -/

theorem trimChars_eq_nil_iff :
    Text.trimChars cs = [] ↔ cs.all Text.isBlank = true := by
  have hend : ∀ ds : List Char, Text.trimEndChars ds = [] ↔ ∀ c ∈ ds, Text.isBlank c = true := by
    intro ds
    rw [Text.trimEndChars, List.reverse_eq_nil_iff, List.dropWhile_eq_nil_iff]
    simp only [List.mem_reverse]
  rw [Text.trimChars, hend, List.all_eq_true]
  constructor
  · intro h
    refine List.dropWhile_eq_nil_iff.1 (List.eq_nil_iff_forall_not_mem.2 fun c hc => ?_)
    obtain ⟨d, ds, hds⟩ := List.exists_cons_of_ne_nil (List.ne_nil_of_mem hc)
    have hnot := List.head?_dropWhile_not Text.isBlank cs
    rw [hds] at h hnot
    simp [h d List.mem_cons_self] at hnot
  · exact fun h c hc => h c ((List.dropWhile_sublist _).subset hc)

theorem resolve_of_blank
    {valueType : Option String} (h : valueType.all Text.isBlankText = true) :
    resolve names fallback valueType = "object" := by
  have htrimmed : Text.trimChars (valueType.getD "").toList = [] := by
    rw [trimChars_eq_nil_iff]
    cases valueType with
    | none => rfl
    | some text => exact h
  unfold resolve
  dsimp only
  rw [htrimmed]
  rfl

theorem resolve_of_pieces
    {text : String} (hblank : Text.isBlankText text = false)
    (hqs : ∀ q ∈ qs, q.IsSound) (htext : qs.flatMap Piece.text = (Text.trim text).toList) :
    resolve names fallback (some text) =
      String.ofList (qs.flatMap (Piece.replaced (nameOf names fallback))) := by
  rw [Text.trim, String.toList_ofList] at htext
  have hne : (Text.trimChars text.toList).isEmpty = false := by
    rw [Bool.eq_false_iff, ne_eq, List.isEmpty_iff, trimChars_eq_nil_iff]
    exact fun hall => Bool.false_ne_true (hblank.symm.trans hall)
  unfold resolve
  dsimp only [Option.getD_some]
  rw [hne, if_neg Bool.false_ne_true, ← htext, replace_flatMap hqs]

end ValueType

/-! ### Code models -/

namespace Properties

theorem valueType_of_property
    {plan : Plan} {options : List PropertyOptions} {t : ContentType} {p : PropertyType}
    {q : ModelProperty}
    (h : property plan options t p = .ok q) :
    q.valueType =
      ValueType.resolve plan.placeholders plan.settings.contentBaseInterface p.valueType := by
  simp only [property] at h
  split at h
  · obtain ⟨-, h⟩ := Outcome.then_eq_ok.1 h
    cases h
    rfl
  · cases h
    rfl

end Properties

namespace CodeModel

open Hierarchy Outcome Schema ValueType

variable {settings : Settings} {strategies : Strategies} {schema : List ContentType}
  {options : CodeOptions} {m : CodeModel}

open Classical in
/--
What a placeholder for an alias stands for, the case of letters aside: the class of the content
type, or an interface of its kind if it is left out, or else the interface of content.
-/
noncomputable def standsFor
    (settings : Settings) (isIgnored : String → Bool) (schema : List ContentType) (m : CodeModel)
    (aliasName : String) :
    String :=
  match m.models.find? fun t => Text.agreeIgnoringCase t.type.aliasName aliasName with
  | some t => t.name
  | none =>
    match schema.find? fun u =>
      Text.agreeIgnoringCase u.aliasName aliasName && decide (IsLeftOut isIgnored schema u) with
    | some u => settings.baseInterface u.kind
    | none => settings.contentBaseInterface

/-- A property whose values are of any type, or of the type in the schema with names in it. -/
structure IsResolved
    (settings : Settings) (isIgnored : String → Bool) (schema : List ContentType) (m : CodeModel)
    (p : ModelProperty) :
    Prop where
  unspecified : p.type.valueType.all Text.isBlankText = true → p.valueType = "object"
  /-- What is left of a type's pieces when it is trimmed, with names for the placeholders. -/
  replaced : ∀ text, p.type.valueType = some text → Text.isBlankText text = false →
    ∀ ps : List Piece, (∀ x ∈ ps, x.IsSound) → ps.flatMap Piece.text = text.toList →
      ∃ qs, Trims ps qs ∧ qs.flatMap Piece.text = (Text.trim text).toList ∧
        p.valueType = String.ofList (qs.flatMap (Piece.replaced fun aliasName =>
          standsFor settings isIgnored schema m (Text.trim (String.ofList aliasName))))

section

variable {linked : List LinkedType} {named : List NamedType} {mapped : ContentTypeOptions}
  {propertied : List PropertiedType} {aliasName : String} {u : ContentType}

section

variable (h : Built settings strategies schema options linked named mapped propertied m)
include h

/-- Content types with the same alias are one. -/
theorem Built.type_eq
    {t : Model} (ht : t ∈ m.models) (hu : u ∈ schema)
    (halias : Text.lowercase u.aliasName = Text.lowercase aliasName)
    (hagree : Text.agreeIgnoringCase t.type.aliasName aliasName = true) :
    t.type = u :=
  eq_of_lowercase h.valid (h.type_mem ht) hu
    ((Text.agreeIgnoringCase_iff.1 hagree).trans halias.symm)

theorem Built.standsFor_leftOut
    (hu : u ∈ schema) (halias : Text.lowercase u.aliasName = Text.lowercase aliasName)
    (hout : IsLeftOut options.contentTypes.isIgnored schema u) :
    standsFor settings options.contentTypes.isIgnored schema m aliasName =
      settings.baseInterface u.kind := by
  classical
  have hmodels : (m.models.find? fun t =>
      Text.agreeIgnoringCase t.type.aliasName aliasName) = none := by
    refine List.find?_eq_none.2 fun t ht hagree => ?_
    have hpart := (h.mem_models_iff t.type).1 ⟨t, ht, rfl⟩
    exact (mem_takingPart.1 hpart).2 (h.type_eq ht hu halias hagree ▸ hout)
  have hschema : (schema.find? fun u => Text.agreeIgnoringCase u.aliasName aliasName &&
      decide (IsLeftOut options.contentTypes.isIgnored schema u)) = some u := by
    have hfound : (schema.find? fun u => Text.agreeIgnoringCase u.aliasName aliasName &&
        decide (IsLeftOut options.contentTypes.isIgnored schema u)).isSome = true :=
      List.find?_isSome.2 ⟨u, hu, Bool.and_eq_true_iff.2
        ⟨Text.agreeIgnoringCase_iff.2 halias, decide_eq_true hout⟩⟩
    obtain ⟨v, hv⟩ := Option.isSome_iff_exists.1 hfound
    have hagree : Text.agreeIgnoringCase v.aliasName aliasName &&
        decide (IsLeftOut options.contentTypes.isIgnored schema v) := by
      simpa using List.find?_some hv
    rw [hv, eq_of_lowercase h.valid (List.mem_of_find?_eq_some hv) hu
      ((Text.agreeIgnoringCase_iff.1 (Bool.and_eq_true_iff.1 hagree).1).trans halias.symm)]
  unfold standsFor
  rw [hmodels]
  dsimp only
  rw [hschema]

theorem Built.standsFor_kept
    (hu : u ∈ schema) (halias : Text.lowercase u.aliasName = Text.lowercase aliasName)
    (hkept : ¬ IsLeftOut options.contentTypes.isIgnored schema u) :
    standsFor settings options.contentTypes.isIgnored schema m aliasName =
      TypeNames.nameOf strategies options.contentTypes u := by
  obtain ⟨s, hs, hsu⟩ := (h.mem_models_iff u).2 (mem_takingPart.2 ⟨hu, hkept⟩)
  have hfound : (m.models.find? fun t =>
      Text.agreeIgnoringCase t.type.aliasName aliasName).isSome = true :=
    List.find?_isSome.2 ⟨s, hs, Text.agreeIgnoringCase_iff.2 (hsu ▸ halias)⟩
  obtain ⟨t, ht⟩ := Option.isSome_iff_exists.1 hfound
  have hmem := List.mem_of_find?_eq_some ht
  have hagree : Text.agreeIgnoringCase t.type.aliasName aliasName = true := by
    simpa using List.find?_some ht
  unfold standsFor
  rw [ht]
  dsimp only
  rw [h.name_eq hmem, h.type_eq hmem hu halias hagree]

theorem Built.standsFor_unknown
    (hnone : ∀ u ∈ schema, Text.lowercase u.aliasName ≠ Text.lowercase aliasName) :
    standsFor settings options.contentTypes.isIgnored schema m aliasName =
      settings.contentBaseInterface := by
  classical
  have hmodels : (m.models.find? fun t =>
      Text.agreeIgnoringCase t.type.aliasName aliasName) = none :=
    List.find?_eq_none.2 fun t ht hagree =>
      hnone t.type (h.type_mem ht) (Text.agreeIgnoringCase_iff.1 hagree)
  have hschema : (schema.find? fun u => Text.agreeIgnoringCase u.aliasName aliasName &&
      decide (IsLeftOut options.contentTypes.isIgnored schema u)) = none :=
    List.find?_eq_none.2 fun u hu hfound =>
      hnone u hu (Text.agreeIgnoringCase_iff.1 (Bool.and_eq_true_iff.1 hfound).1)
  unfold standsFor
  rw [hmodels]
  dsimp only
  rw [hschema]

/-- Placeholders get the names that they stand for. -/
theorem Built.nameOf_eq
    (aliasName : List Char) :
    nameOf (TypeNames.placeholders settings (dropped options.contentTypes.isIgnored linked) named)
        settings.contentBaseInterface aliasName =
      standsFor settings options.contentTypes.isIgnored schema m
        (Text.trim (String.ofList aliasName)) := by
  have htrim : Text.trim (String.ofList aliasName) = String.ofList (Text.trimChars aliasName) := by
    rw [Text.trim, String.toList_ofList]
  rw [htrim]
  unfold nameOf
  cases hname : (TypeNames.placeholders settings
      (dropped options.contentTypes.isIgnored linked) named).get?
      (Text.lowercase (String.ofList (Text.trimChars aliasName))) with
  | some name =>
    obtain ⟨u, hu, halias, rfl⟩ := h.get?_placeholders_eq_some_iff.1 hname
    unfold standIn
    split
    · rename_i hout
      exact (h.standsFor_leftOut hu halias hout).symm
    · rename_i hkept
      exact (h.standsFor_kept hu halias hkept).symm
  | none =>
    refine (h.standsFor_unknown fun u hu halias => ?_).symm
    rw [h.get?_placeholders_eq_some_iff.2 ⟨u, hu, halias, rfl⟩] at hname
    cases hname

/-- The properties of a model are those of its content type, with the types of values resolved. -/
theorem Built.valueType_eq
    {t : Model} (ht : t ∈ m.models) :
    t.properties.map (·.type) = t.type.properties ∧ ∀ p ∈ t.properties, p.valueType = resolve
      (TypeNames.placeholders settings (dropped options.contentTypes.isIgnored linked) named)
      settings.contentBaseInterface p.type.valueType := by
  have hmap := h.mapM_property ht
  refine ⟨?_, fun p hp => ?_⟩
  · rw [map_of_mapM (fun _ _ hq => (Properties.property_eq_ok hq).1) hmap, List.map_id']
  · obtain ⟨i, hi⟩ := List.mem_iff_getElem?.1 hp
    obtain ⟨q, -, hq⟩ := exists_of_mapM hmap hi
    rw [(Properties.property_eq_ok hq).1]
    exact Properties.valueType_of_property hq

end
end

/-- The type of a property's values is the one of the schema with names for the placeholders. -/
theorem valueTypes_resolved
    (h : build settings strategies schema options = .ok m) :
    ∀ t ∈ m.models, t.properties.map (·.type) = t.type.properties ∧
      ∀ p ∈ t.properties, IsResolved settings options.contentTypes.isIgnored schema m p := by
  obtain ⟨linked, named, mapped, propertied, hbuilt⟩ := exists_built h
  intro t ht
  obtain ⟨hproperties, hvalues⟩ := hbuilt.valueType_eq ht
  refine ⟨hproperties, fun p hp => ⟨fun hblank => ?_, fun text htext hblank ps hps hpieces => ?_⟩⟩
  · rw [hvalues p hp]
    exact resolve_of_blank hblank
  · obtain ⟨qs, htrims, hqs⟩ := exists_trimChars hps
    have htrim : qs.flatMap Piece.text = (Text.trim text).toList := by
      rw [hqs, hpieces, Text.trim, String.toList_ofList]
    refine ⟨qs, htrims, htrim, ?_⟩
    rw [hvalues p hp, htext, resolve_of_pieces hblank htrims.sound htrim,
      funext hbuilt.nameOf_eq]

/-- A property with values of a type. -/
def propertyWith (aliasName : String) (valueType : Option String) : PropertyType :=
  ⟨aliasName, "", "", none, .nothing, valueType⟩

/-- An article that refers to itself, to news and quotes, which are left out, and to nothing. -/
def articleSchema : List ContentType :=
  [typeWith 1 "page" none [], typeWith 2 "news" (some 1) [],
    { typeWith 3 "pageBlock" none [] with kind := .element },
    { typeWith 4 "quote" (some 3) [] with kind := .element },
    { typeWith 5 "article" none [] with
      properties := [propertyWith "text" none, propertyWith "summary" (some "  "),
        propertyWith "related" (some " Set<{model: Article },{model:gone}> "),
        propertyWith "origin" (some "{model:NEWS}"),
        propertyWith "quotes" (some "{model:quote}[]")] }]

theorem valueTypes_resolved_article :
    ∃ m, build .standard (.standard .standard) articleSchema
        (.ofDeclarations [.ignoreType "page*"]) = .ok m ∧
      m.models.map (fun t : Model => t.properties.map (·.valueType)) =
        [["object", "object",
          "Set<Article,Umbraco.Core.Models.PublishedContent.IPublishedContent>",
          "Umbraco.Core.Models.PublishedContent.IPublishedContent",
          "Umbraco.Core.Models.PublishedContent.IPublishedElement[]"]] ∧
      ∀ t ∈ m.models, t.properties.map (·.type) = t.type.properties ∧ ∀ p ∈ t.properties,
        IsResolved .standard
          (CodeOptions.ofDeclarations [.ignoreType "page*"]).contentTypes.isIgnored
          articleSchema m p := by
  obtain ⟨m, hm, hvalues⟩ := @Outcome.exists_of_toOption_map _ _ _
    (build .standard (.standard .standard) articleSchema (.ofDeclarations [.ignoreType "page*"]))
    (fun m => m.models.map fun t : Model => t.properties.map (·.valueType))
    [["object", "object",
      "Set<Article,Umbraco.Core.Models.PublishedContent.IPublishedContent>",
      "Umbraco.Core.Models.PublishedContent.IPublishedContent",
      "Umbraco.Core.Models.PublishedContent.IPublishedElement[]"]] (by decide +kernel)
  exact ⟨m, hm, hvalues, valueTypes_resolved hm⟩

end CodeModel
end ContentModels

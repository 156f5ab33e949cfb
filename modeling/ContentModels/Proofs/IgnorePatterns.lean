import ContentModels.Proofs.InheritedOptions
import ContentModels.Proofs.LetterCase
import ContentModels.Proofs.OptionKeys

/-!
# Patterns of what is ignored

A declared pattern adds to what is ignored what it matches, for content types and for properties
under either kind of key, before and after the mapping (`ignoresAlso_pattern`).  A pattern that
ends in a star matches the texts whose lower case starts with its own, any other pattern those
with the same lower case (`ignoresAlso_wildcard`).  What follows the star's place can change the
lower case of what stands in front of it in one way only: a sigma that ends a word in the pattern
does not match one within a word.
-/

namespace ContentModels

open Text

/-! ### Matching -/

/-- The star of a pattern stays where it is, and no sigma in front of it goes on. -/
theorem toList_lowercase_star
    (start : String) :
    (lowercase (start ++ "*")).toList = lowerChars start.toList ++ ['*'] := by
  have hstar : startsCased ['*'] = false := by decide +kernel
  unfold lowercase lowerChars
  rw [String.toList_ofList, String.toList_append]
  exact lowerFrom_append hstar

theorem matchesPattern_star_iff
    {start value : String} :
    matchesPattern (lowercase (start ++ "*")) value = true ↔
      lowerChars start.toList <+: lowerChars value.toList := by
  unfold matchesPattern
  rw [toList_lowercase_star, List.reverse_append, List.reverse_singleton, List.singleton_append]
  change (lowerChars start.toList).reverse.reverse.isPrefixOf (lowercase value).toList = true ↔ _
  rw [List.reverse_reverse, List.isPrefixOf_iff_prefix, lowercase, String.toList_ofList]

theorem matchesPattern_exact_iff
    {pattern value : String} (h : pattern.toList.getLast? ≠ some '*') :
    matchesPattern (lowercase pattern) value = true ↔ lowercase value = lowercase pattern := by
  have hlast : (lowercase pattern).toList.reverse.head? ≠ some '*' := by
    rw [List.head?_reverse, lowercase, String.toList_ofList]
    exact getLast?_lowerChars_ne_star h
  unfold matchesPattern
  split
  · rename_i hstar
    exact absurd (congrArg List.head? hstar) hlast
  · exact beq_iff_eq

/-- A pattern with a star matches what it is the start of, but for a sigma that was final. -/
theorem matchesPattern_append_iff
    {start rest : String} :
    matchesPattern (lowercase (start ++ "*")) (start ++ rest) = true ↔
      ¬ (EndsInSigma [] start.toList ∧ startsCased rest.toList = true) := by
  rw [matchesPattern_star_iff, String.toList_append, lowerChars_prefix_append_iff]

/-! ### Declaring patterns -/

theorem TextSet.any_add
    (s : TextSet) (k : String) (p : String → Bool) :
    (toList (s.add k)).any p = true ↔ (toList s).any p = true ∨ p k = true := by
  have hmem : ∀ j, j ∈ toList (s.add k) ↔ j = k ∨ j ∈ toList s := by
    intro j
    unfold toList
    rw [Keyed.mem_keys_iff, Keyed.mem_keys_iff, contains_add, Bool.or_eq_true, beq_iff_eq]
  simp only [List.any_eq_true, hmem, or_and_right, exists_or, exists_eq_left]
  exact or_comm

/-- Options of properties with one more pattern. -/
def PropertyOptions.ignoring (pattern : String) (o : PropertyOptions) : PropertyOptions :=
  { o with ignored := o.ignored.add (lowercase pattern) }

/-- A pattern that is filed next to others, or on its own, adds what it matches. -/
theorem PropertyOptions.isIgnored_getD_ignoring
    {filed : Option PropertyOptions} {pattern property : String} :
    ((filed.getD .empty).ignoring pattern).isIgnored property = true ↔
      (∃ o, filed = some o ∧ o.isIgnored property = true) ∨
        matchesPattern (lowercase pattern) property = true := by
  refine (TextSet.any_add _ _ _).trans (or_congr_left ?_)
  cases filed with
  | none => exact iff_of_false nofun nofun
  | some o => simp [isIgnored]

/-- What is merged into options with one more pattern could be merged before. -/
theorem PropertyOptions.merge_ignoring
    (o added : PropertyOptions) (pattern : String) :
    (o.ignoring pattern).merge added = (o.merge added).ignoring pattern := by
  have hignored : TextSet.union (o.ignored.add (lowercase pattern)) added.ignored =
      (TextSet.union o.ignored added.ignored).add (lowercase pattern) :=
    TextSet.ext_contains fun j => by
      rw [TextSet.contains_union, TextSet.contains_add, TextSet.contains_add,
        TextSet.contains_union, Bool.or_assoc]
  unfold merge ignoring
  rw [hignored]

namespace ContentTypeOptions

/-- A query that succeeds before and after a change, and that also holds under a condition then. -/
def HoldsAlso (before after : Outcome Bool) (p : Prop) : Prop :=
  ∃ b c, before = .ok b ∧ after = .ok c ∧ (c = true ↔ b = true ∨ p)

/-- What a declared pattern adds to the aliases that are ignored. -/
structure IgnoresAlso
    (o : ContentTypeOptions) (pattern aliasName : String) (p : Prop) : Prop where
  types : (o.declare (.ignoreType pattern)).isIgnored aliasName = true ↔
    o.isIgnored aliasName = true ∨ p
  /-- Properties are asked for by the kind of key that is valid. -/
  properties : ∀ key, o.checkKey key = .ok () →
    HoldsAlso (o.isPropertyIgnored key aliasName)
      ((o.declare (.ignoreProperty key pattern)).isPropertyIgnored key aliasName) p
  /-- What is declared for a class before the mapping counts after it. -/
  mapping : ∀ className map mapped, o.mapAliases map = .ok mapped → ∃ mapped',
    (o.declare (.ignoreProperty (.className className) pattern)).mapAliases map = .ok mapped' ∧
      HoldsAlso (mapped.isPropertyIgnored (.className className) aliasName)
        (mapped'.isPropertyIgnored (.className className) aliasName) p

variable {o mapped : ContentTypeOptions} {pattern aliasName property : String}

/-- Aliases are mapped once. -/
theorem mapped_of_mapAliases
    {map : Keyed String} (h : o.mapAliases map = .ok mapped) :
    o.mapped = false := by
  unfold mapAliases at h
  split at h
  · cases h
  · rename_i hmapped
    simpa using hmapped

theorem mapped_mapAliases
    {map : Keyed String} (h : o.mapAliases map = .ok mapped) :
    mapped.mapped = true := by
  obtain ⟨_, rfl⟩ := mapAliases_eq_ok h
  rfl

theorem isIgnored_ignoreType :
    (o.declare (.ignoreType pattern)).isIgnored aliasName = true ↔
      o.isIgnored aliasName = true ∨ matchesPattern (lowercase pattern) aliasName = true :=
  TextSet.any_add _ _ _

theorem mapped_of_checkKey
    {key : TypeKey} (h : o.checkKey key = .ok ()) :
    o.mapped = !key.isAlias := by
  unfold checkKey at h
  cases key with
  | typeAlias _ =>
    cases hmapped : o.mapped with
    | true =>
      rw [hmapped] at h
      cases h
    | false => rfl
  | className _ =>
    cases hmapped : o.mapped with
    | true => rfl
    | false =>
      rw [hmapped] at h
      cases h

theorem relevant_typeAlias
    (hmapped : o.mapped = false) (typeName : String) :
    o.relevant (.typeAlias typeName) = .ok (o.byAlias.get? (lowercase typeName)).toList := by
  have hkey : o.checkKey (.typeAlias typeName) = .ok () := by
    unfold checkKey
    rw [hmapped]
  unfold relevant
  rw [hkey, hmapped]
  rfl

theorem holdsAlso_of_relevant
    {declared : ContentTypeOptions} {key : TypeKey} {before after : List PropertyOptions} {p : Prop}
    (hbefore : o.relevant key = .ok before) (hafter : declared.relevant key = .ok after)
    (hany : after.any (·.isIgnored property) = true ↔
      before.any (·.isIgnored property) = true ∨ p) :
    HoldsAlso (o.isPropertyIgnored key property) (declared.isPropertyIgnored key property) p := by
  refine ⟨_, _, ?_, ?_, hany⟩
  · unfold isPropertyIgnored
    rw [hbefore]
    rfl
  · unfold isPropertyIgnored
    rw [hafter]
    rfl

theorem byClass_ignoreProperty
    (o : ContentTypeOptions) (className pattern key : String) :
    (o.declare (.ignoreProperty (.className className) pattern)).byClass.get? key =
      if key = lowercase className then
        some (((o.byClass.get? (lowercase className)).getD .empty).ignoring pattern)
      else o.byClass.get? key :=
  Keyed.get?_update _ _ _ _

/-- Before the mapping a pattern lies under the alias for which it is declared. -/
theorem holdsAlso_typeAlias
    (hmapped : o.mapped = false) (typeName pattern property : String) :
    HoldsAlso (o.isPropertyIgnored (.typeAlias typeName) property)
      ((o.declare (.ignoreProperty (.typeAlias typeName) pattern)).isPropertyIgnored
        (.typeAlias typeName) property)
      (matchesPattern (lowercase pattern) property = true) := by
  have hdeclared : (o.declare (.ignoreProperty (.typeAlias typeName) pattern)).byAlias.get?
      (lowercase typeName) =
        some (((o.byAlias.get? (lowercase typeName)).getD .empty).ignoring pattern) :=
    (Keyed.get?_update _ _ _ _).trans (if_pos rfl)
  have hmapped' : (o.declare (.ignoreProperty (.typeAlias typeName) pattern)).mapped = false :=
    hmapped
  refine holdsAlso_of_relevant (relevant_typeAlias hmapped _) (relevant_typeAlias hmapped' _) ?_
  rw [hdeclared, Option.toList_some, List.any_cons, List.any_nil, Bool.or_false,
    PropertyOptions.isIgnored_getD_ignoring]
  simp

/-- After the mapping a pattern lies under the name of a class, which is the first in its lineage. -/
theorem holdsAlso_className
    (hmapped : o.mapped = true) (className pattern property : String) :
    HoldsAlso (o.isPropertyIgnored (.className className) property)
      ((o.declare (.ignoreProperty (.className className) pattern)).isPropertyIgnored
        (.className className) property)
      (matchesPattern (lowercase pattern) property = true) := by
  have hmapped' : (o.declare (.ignoreProperty (.className className) pattern)).mapped = true :=
    hmapped
  have hsupertypes : (o.declare (.ignoreProperty (.className className) pattern)).supertypes =
      o.supertypes := rfl
  refine holdsAlso_of_relevant (relevant_className hmapped) (relevant_className hmapped') ?_
  rw [any_ofClass_iff, any_ofClass_iff, hsupertypes]
  simp only [byClass_ignoreProperty]
  constructor
  · rintro ⟨key, hkey, options, hoptions, hignored⟩
    split at hoptions
    · rename_i heq
      subst heq
      cases hoptions
      exact (PropertyOptions.isIgnored_getD_ignoring.1 hignored).imp_left fun h => ⟨_, hkey, h⟩
    · exact .inl ⟨key, hkey, options, hoptions, hignored⟩
  · rintro (⟨key, hkey, hfiled⟩ | hmatches)
    · refine ⟨key, hkey, ?_⟩
      split
      · rename_i heq
        subst heq
        exact ⟨_, rfl, PropertyOptions.isIgnored_getD_ignoring.2 (.inl hfiled)⟩
      · exact hfiled
    · exact ⟨_, .refl, _, if_pos rfl, PropertyOptions.isIgnored_getD_ignoring.2 (.inr hmatches)⟩

theorem mergeAll_ignoring
    (filed : Option PropertyOptions) (added : List PropertyOptions) (pattern : String) :
    mergeAll (some ((filed.getD .empty).ignoring pattern)) added =
      some (((mergeAll filed added).getD .empty).ignoring pattern) := by
  induction added generalizing filed with
  | nil => rfl
  | cons x added ih =>
    have hstep := ih (some ((filed.getD .empty).merge x))
    rw [Option.getD_some, ← PropertyOptions.merge_ignoring] at hstep
    exact hstep

/-- What is declared for a class is mapped as if it were declared after the mapping. -/
theorem mapAliases_ignoreProperty
    {map : Keyed String} (h : o.mapAliases map = .ok mapped) (className pattern : String) :
    (o.declare (.ignoreProperty (.className className) pattern)).mapAliases map =
      .ok (mapped.declare (.ignoreProperty (.className className) pattern)) := by
  have hmapped := mapped_of_mapAliases h
  have hmapped' : (o.declare (.ignoreProperty (.className className) pattern)).mapped = false :=
    hmapped
  obtain ⟨x, hx, hxform, hxget⟩ := get?_mapAliases hmapped map
  obtain ⟨y, hy, hyform, hyget⟩ := get?_mapAliases hmapped' map
  obtain rfl : x = mapped := Except.ok.inj (hx.symm.trans h)
  have hbyClass : y.byClass =
      (x.declare (.ignoreProperty (.className className) pattern)).byClass := by
    refine Keyed.ext_get? fun k => ?_
    rw [hyget, byClass_ignoreProperty, byClass_ignoreProperty, hxget, hxget]
    split
    · rename_i heq
      rw [heq]
      exact mergeAll_ignoring _ _ _
    · rfl
  rw [hy, hyform, hbyClass, hxform]
  rfl

/-- A declared pattern adds to what is ignored what it matches. -/
theorem ignoresAlso_pattern
    (o : ContentTypeOptions) (pattern aliasName : String) :
    o.IgnoresAlso pattern aliasName (matchesPattern (lowercase pattern) aliasName = true) where
  types := isIgnored_ignoreType
  properties := by
    intro key hkey
    cases key with
    | typeAlias typeName => exact holdsAlso_typeAlias (mapped_of_checkKey hkey) typeName _ _
    | className className => exact holdsAlso_className (mapped_of_checkKey hkey) className _ _
  mapping := by
    intro className map mapped hmap
    exact ⟨_, mapAliases_ignoreProperty hmap className pattern,
      holdsAlso_className (mapped_mapAliases hmap) className _ _⟩

/--
A pattern that ends in a star adds every alias that starts with the rest of the pattern, unless
the rest ends in a sigma behind a letter and a letter follows in the alias.  A pattern that does
not end in a star adds exactly the aliases with the same lower case.
-/
theorem ignoresAlso_wildcard
    (o : ContentTypeOptions) :
    (∀ start rest : String, o.IgnoresAlso (start ++ "*") (start ++ rest)
      (¬ (EndsInSigma [] start.toList ∧ startsCased rest.toList = true))) ∧
    ∀ pattern : String, pattern.toList.getLast? ≠ some '*' → ∀ aliasName,
      o.IgnoresAlso pattern aliasName (lowercase aliasName = lowercase pattern) := by
  constructor
  · intro start rest
    rw [← matchesPattern_append_iff]
    exact o.ignoresAlso_pattern _ _
  · intro pattern hpattern aliasName
    rw [← matchesPattern_exact_iff hpattern]
    exact o.ignoresAlso_pattern _ _

/-- A sigma that ends a word in the pattern, and aliases in which a letter and a digit follow it. -/
theorem ignoresAlso_wildcard_sigma :
    (empty.declare (.ignoreType ("ΑΣ" ++ "*"))).isIgnored ("ΑΣ" ++ "Α") = false ∧
      (empty.declare (.ignoreType ("ΑΣ" ++ "*"))).isIgnored ("ΑΣ" ++ "1") = true := by
  have hsigma : EndsInSigma [] "ΑΣ".toList := ⟨['Α'], [], by decide, by decide +kernel, rfl⟩
  have hletter : startsCased "Α".toList = true := by decide +kernel
  have hdigit : startsCased "1".toList = false := by decide +kernel
  have hadds := (ignoresAlso_wildcard empty).1 "ΑΣ"
  constructor
  · rw [← Bool.not_eq_true, (hadds "Α").types]
    rintro (hempty | hnot)
    · cases hempty
    · exact hnot ⟨hsigma, hletter⟩
  · refine (hadds "1").types.2 (.inr ?_)
    rw [hdigit]
    exact fun h => Bool.false_ne_true h.2

end ContentTypeOptions
end ContentModels

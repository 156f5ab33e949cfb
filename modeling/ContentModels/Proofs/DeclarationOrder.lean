import ContentModels.Proofs.ImplementedOptions

/-!
# Declarations in another order

Declarations are seen as writing texts to places: a setting with one value is a place of its
own, and so is everything that a set or a table can hold.  What lies at a place is what was
written there last (`textAt?_declareAll`), and whether anything lies there does not depend on
the order.  So the same declarations in another order give the same sets and the same keys
(`holdsAlike_declareAll`), and a setting differs only if two of the declarations give it
different values (`textAt?_declareAll_or_disagree`).
-/

namespace ContentModels

/-- A key of options as it is filed. -/
def TypeKey.fold : TypeKey → TypeKey
  | .typeAlias v => .typeAlias (Text.lowercase v)
  | .className v => .className (Text.lowercase v)

/-! ### Places -/

/-- A place in the options of the properties of a type.  Names are in lower case. -/
inductive PropertyPlace where
  /-- Where anything lies that is filed about the properties at all. -/
  | entry
  | ignored (pattern : String)
  | name (property : String)
  | implemented (property : String)
deriving DecidableEq, Repr

/-- A place in options that a declaration can write to.  Keys are in lower case. -/
inductive OptionPlace where
  | modelsNamespace
  | modelsBaseClass
  | usedNamespace (name : String)
  | ignoredType (pattern : String)
  | typeName (aliasKey : String)
  | properties (key : TypeKey) (place : PropertyPlace)
  | baseClass (classKey : String)
  | interfaces (classKey : String)
  | interface (classKey base : String)
  | constructor (classKey : String)
deriving DecidableEq, Repr

namespace Declaration

/-- What a declaration writes about the properties of a type; it makes an entry for them. -/
def filed (key : TypeKey) (place : PropertyPlace) (text : String) : List (OptionPlace × String) :=
  [(.properties key.fold place, text), (.properties key.fold .entry, key.folded)]

/-- What a declaration writes.  A member of a set and a key of a table are written to their own places. -/
def writes : Declaration → List (OptionPlace × String)
  | .modelsNamespace name => [(.modelsNamespace, name)]
  | .useNamespace name => [(.usedNamespace name, name)]
  | .modelsBaseClass name => [(.modelsBaseClass, name)]
  | .ignoreType pattern => [(.ignoredType (Text.lowercase pattern), Text.lowercase pattern)]
  | .renameType aliasName name => [(.typeName (Text.lowercase aliasName), name)]
  | .ignoreProperty key pattern =>
    filed key (.ignored (Text.lowercase pattern)) (Text.lowercase pattern)
  | .renameProperty key property name => filed key (.name (Text.lowercase property)) name
  | .implementProperty key property =>
    filed key (.implemented (Text.lowercase property)) (Text.lowercase property)
  | .baseClass className base => [(.baseClass (Text.lowercase className), base)]
  | .interface className base =>
    [(.interface (Text.lowercase className) base, base),
      (.interfaces (Text.lowercase className), Text.lowercase className)]
  | .constructor className =>
    [(.constructor (Text.lowercase className), Text.lowercase className)]

/-- What a declaration writes to a place. -/
def text? (d : Declaration) (place : OptionPlace) : Option String :=
  d.writes.lookup place

end Declaration

/-- A text, if it is in a set. -/
def TextSet.find? (s : TextSet) (k : String) : Option String :=
  (s.get? k).map fun _ => k

/-- What lies at a place in the options of the properties of the type with a key. -/
def PropertyOptions.textAt? (o : PropertyOptions) (key : String) : PropertyPlace → Option String
  | .entry => some key
  | .ignored pattern => TextSet.find? o.ignored pattern
  | .name property => o.names.get? property
  | .implemented property => TextSet.find? o.implemented property

/-- What is filed about properties under a key in lower case. -/
def ContentTypeOptions.propertiesAt (o : ContentTypeOptions) (key : TypeKey) :
    Option PropertyOptions :=
  (if key.isAlias then o.byAlias else o.byClass).get? key.value

/-- What lies at a place. -/
def CodeOptions.textAt? (o : CodeOptions) : OptionPlace → Option String
  | .modelsNamespace => o.modelsNamespace
  | .modelsBaseClass => o.modelsBaseClass
  | .usedNamespace name => o.usingNamespaces.find? (· == name)
  | .ignoredType pattern => TextSet.find? o.contentTypes.ignored pattern
  | .typeName aliasKey => o.contentTypes.classNames.get? aliasKey
  | .properties key place => (o.contentTypes.propertiesAt key).bind (·.textAt? key.value place)
  | .baseClass classKey => o.contentTypes.baseClasses.get? classKey
  | .interfaces classKey => (o.contentTypes.interfaces.get? classKey).map fun _ => classKey
  | .interface classKey base =>
    ((o.contentTypes.interfaces.get? classKey).getD []).find? (· == base)
  | .constructor classKey => TextSet.find? o.contentTypes.constructors classKey

/-! ### One declaration -/

theorem lookup_cons_eq_ite
    {α β : Type} [DecidableEq α] (a b : α) (x : β) (es : List (α × β)) :
    List.lookup a ((b, x) :: es) = if a = b then some x else es.lookup a := by
  rw [List.lookup_cons]
  by_cases h : a = b
  · simp [h]
  · rw [if_neg h, beq_eq_false_iff_ne.2 h]

theorem find?_addOnce
    (l : List String) (s t : String) :
    (addOnce l s).find? (· == t) = if t = s then some s else l.find? (· == t) := by
  have hmem : ∀ m : List String, s ∈ m → m.find? (· == s) = some s := by
    intro m hm
    have hsome : (m.find? (· == s)).isSome = true :=
      List.find?_isSome.2 ⟨s, hm, beq_self_eq_true s⟩
    obtain ⟨x, hx⟩ := Option.isSome_iff_exists.1 hsome
    have hxs := List.find?_some hx
    rw [hx, beq_iff_eq.1 hxs]
  by_cases h : t = s
  · subst h
    rw [if_pos rfl]
    refine hmem _ ?_
    unfold addOnce
    split
    · rename_i ht
      simpa using ht
    · simp
  · rw [if_neg h]
    unfold addOnce
    split
    · rfl
    · simp [Ne.symm h]

theorem TextSet.find?_add
    (s : TextSet) (k j : String) :
    find? (s.add k) j = if j = k then some k else find? s j := by
  unfold find? add
  rw [Keyed.get?_insert]
  by_cases h : j = k
  · simp [h]
  · simp [h]

theorem ite_or
    {α : Type} {p : Prop} [Decidable p] (a : α) (x : Option α) :
    (if p then some a else none).or x = if p then some a else x := by
  split <;> rfl

theorem PropertyOptions.textAt?_empty
    (key : String) (place : PropertyPlace) :
    empty.textAt? key place = if place = .entry then some key else none := by
  cases place <;> rfl

namespace ContentTypeOptions

theorem propertiesAt_updateProperties
    (o : ContentTypeOptions) (k key : TypeKey) (f : PropertyOptions → PropertyOptions) :
    (o.updateProperties k f).propertiesAt key =
      if key = k.fold then some (f ((o.propertiesAt key).getD .empty)) else o.propertiesAt key := by
  cases k with
  | typeAlias v =>
    cases key with
    | typeAlias w =>
      refine (Keyed.get?_update _ _ _ _).trans ?_
      by_cases h : w = Text.lowercase v
      · subst h
        simp [TypeKey.fold, TypeKey.folded, TypeKey.value, TypeKey.isAlias, propertiesAt]
      · simp [TypeKey.fold, TypeKey.folded, TypeKey.value, TypeKey.isAlias, propertiesAt, h]
    | className w => rfl
  | className v =>
    cases key with
    | typeAlias w => rfl
    | className w =>
      refine (Keyed.get?_update _ _ _ _).trans ?_
      by_cases h : w = Text.lowercase v
      · subst h
        simp [TypeKey.fold, TypeKey.folded, TypeKey.value, TypeKey.isAlias, propertiesAt]
      · simp [TypeKey.fold, TypeKey.folded, TypeKey.value, TypeKey.isAlias, propertiesAt, h]

end ContentTypeOptions

namespace CodeOptions

variable {o : CodeOptions} {place : OptionPlace}

/-- What is written about the properties of a type. -/
theorem textAt?_updateProperties
    {key : TypeKey} {f : PropertyOptions → PropertyOptions} {written : PropertyPlace} {text : String}
    (hf : ∀ x k p, (f x).textAt? k p = if p = written then some text else x.textAt? k p) :
    ({ o with contentTypes := o.contentTypes.updateProperties key f } : CodeOptions).textAt? place =
      ((Declaration.filed key written text).lookup place).or (o.textAt? place) := by
  unfold Declaration.filed
  cases place with
  | properties k p =>
    simp only [textAt?, ContentTypeOptions.propertiesAt_updateProperties, lookup_cons_eq_ite,
      OptionPlace.properties.injEq]
    by_cases hk : k = key.fold
    · subst hk
      have hvalue : key.fold.value = key.folded := by cases key <;> rfl
      rw [if_pos rfl, Option.bind_some, hf]
      by_cases hp : p = written
      · simp [hp]
      · cases hx : o.contentTypes.propertiesAt key.fold with
        | none =>
          rw [if_neg hp, Option.getD_none, PropertyOptions.textAt?_empty, hvalue]
          simp [hp]
        | some x =>
          rw [if_neg hp, Option.getD_some, Option.bind_some]
          by_cases hentry : p = .entry
          · subst hentry
            simp [hp, PropertyOptions.textAt?, hvalue]
          · simp [hp, hentry]
    · simp [hk]
  | _ =>
    cases key <;> simp [textAt?, ContentTypeOptions.updateProperties, lookup_cons_eq_ite]

/-- A declaration writes to its places, and leaves the others as they are. -/
theorem textAt?_declare
    (o : CodeOptions) (d : Declaration) (place : OptionPlace) :
    (o.declare d).textAt? place = (d.text? place).or (o.textAt? place) := by
  unfold Declaration.text?
  cases d with
  | ignoreProperty key pattern | implementProperty key pattern =>
    refine textAt?_updateProperties fun x k p => ?_
    cases p <;> simp [PropertyOptions.textAt?, TextSet.find?_add]
  | renameProperty key property name =>
    refine textAt?_updateProperties fun x k p => ?_
    cases p <;> simp [PropertyOptions.textAt?, Keyed.get?_insert]
  | interface className base =>
    cases place with
    | interfaces k =>
      by_cases hk : k = Text.lowercase className
      · simp [declare, textAt?, ContentTypeOptions.declare, Declaration.writes,
          lookup_cons_eq_ite, Keyed.get?_update, hk]
      · simp [declare, textAt?, ContentTypeOptions.declare, Declaration.writes,
          lookup_cons_eq_ite, Keyed.get?_update, hk]
    | interface k b =>
      by_cases hk : k = Text.lowercase className
      · simp [declare, textAt?, ContentTypeOptions.declare, Declaration.writes,
          lookup_cons_eq_ite, Keyed.get?_update, hk, ite_or, find?_addOnce]
      · simp [declare, textAt?, ContentTypeOptions.declare, Declaration.writes,
          lookup_cons_eq_ite, Keyed.get?_update, hk]
    | _ =>
      simp [declare, textAt?, ContentTypeOptions.declare, ContentTypeOptions.propertiesAt,
        Declaration.writes, lookup_cons_eq_ite]
  | _ =>
    cases place <;>
      simp [declare, textAt?, ContentTypeOptions.declare, ContentTypeOptions.propertiesAt,
        Declaration.writes, lookup_cons_eq_ite, ite_or, find?_addOnce, TextSet.find?_add,
        Keyed.get?_insert]

/-! ### Many declarations -/

/-- At a place lies what was written there last. -/
theorem textAt?_declareAll
    (ds : List Declaration) (o : CodeOptions) (place : OptionPlace) :
    (o.declareAll ds).textAt? place =
      (ds.reverse.findSome? (·.text? place)).or (o.textAt? place) := by
  induction ds generalizing o with
  | nil => rfl
  | cons d ds ih =>
    show ((o.declare d).declareAll ds).textAt? place = _
    rw [ih, textAt?_declare, List.reverse_cons, List.findSome?_append, Option.or_assoc]
    simp

/-- Two declarations write different texts to a place. -/
def Disagree (ds : List Declaration) (place : OptionPlace) : Prop :=
  ∃ d ∈ ds, ∃ e ∈ ds, ∃ s t, d.text? place = some s ∧ e.text? place = some t ∧ s ≠ t

section Order

variable {ds es : List Declaration}

theorem isSome_findSome?_text?
    (h : ∀ d, d ∈ ds ↔ d ∈ es) (place : OptionPlace) :
    (ds.reverse.findSome? (·.text? place)).isSome =
      (es.reverse.findSome? (·.text? place)).isSome := by
  rw [Bool.eq_iff_iff, List.isSome_findSome?, List.isSome_findSome?]
  simp [h]

/-- Whether anything lies at a place depends only on which declarations are made. -/
theorem isSome_textAt?_declareAll
    (h : ∀ d, d ∈ ds ↔ d ∈ es) (o : CodeOptions) (place : OptionPlace) :
    ((o.declareAll ds).textAt? place).isSome = ((o.declareAll es).textAt? place).isSome := by
  rw [textAt?_declareAll, textAt?_declareAll, Option.isSome_or, Option.isSome_or,
    isSome_findSome?_text? h]

/-- Another text lies at a place only if two declarations write different texts to it. -/
theorem textAt?_declareAll_or_disagree
    (h : ∀ d, d ∈ ds ↔ d ∈ es) (o : CodeOptions) (place : OptionPlace) :
    (o.declareAll ds).textAt? place = (o.declareAll es).textAt? place ∨ Disagree ds place := by
  have hsome := isSome_findSome?_text? h place
  rw [textAt?_declareAll, textAt?_declareAll]
  cases hd : ds.reverse.findSome? (·.text? place) with
  | none =>
    cases he : es.reverse.findSome? (·.text? place) with
    | none => exact .inl rfl
    | some t => simp [hd, he] at hsome
  | some s =>
    cases he : es.reverse.findSome? (·.text? place) with
    | none => simp [hd, he] at hsome
    | some t =>
      by_cases hst : s = t
      · exact .inl (by rw [hst])
      · obtain ⟨d, hdmem, hs⟩ := List.exists_of_findSome?_eq_some hd
        obtain ⟨e, hemem, ht⟩ := List.exists_of_findSome?_eq_some he
        exact .inr ⟨d, List.mem_reverse.1 hdmem, e, (h e).2 (List.mem_reverse.1 hemem), s, t,
          hs, ht, hst⟩

end Order
end CodeOptions

/-! ### What sets and tables hold -/

/-- The same is ignored and implemented, and the same properties have names. -/
structure PropertyOptions.HoldsAlike (o p : PropertyOptions) : Prop where
  ignored : o.ignored = p.ignored
  implemented : o.implemented = p.implemented
  names : o.names.keys = p.names.keys

/-- Tables with the same keys hold the same sets and keys under each. -/
structure PropertyOptions.FiledAlike (s t : Keyed PropertyOptions) : Prop where
  keys : s.keys = t.keys
  holds : ∀ k o p, s.get? k = some o → t.get? k = some p → o.HoldsAlike p

/-- The same sets, and the same keys in all tables. -/
structure CodeOptions.HoldsAlike (o p : CodeOptions) : Prop where
  usingNamespaces : ∀ name, name ∈ o.usingNamespaces ↔ name ∈ p.usingNamespaces
  ignored : o.contentTypes.ignored = p.contentTypes.ignored
  classNames : o.contentTypes.classNames.keys = p.contentTypes.classNames.keys
  byAlias : PropertyOptions.FiledAlike o.contentTypes.byAlias p.contentTypes.byAlias
  byClass : PropertyOptions.FiledAlike o.contentTypes.byClass p.contentTypes.byClass
  baseClasses : o.contentTypes.baseClasses.keys = p.contentTypes.baseClasses.keys
  interfaces : o.contentTypes.interfaces.keys = p.contentTypes.interfaces.keys
  interfacesOf : ∀ k base, base ∈ (o.contentTypes.interfaces.get? k).getD [] ↔
    base ∈ (p.contentTypes.interfaces.get? k).getD []
  constructors : o.contentTypes.constructors = p.contentTypes.constructors

theorem TextSet.isSome_find?
    (s : TextSet) (k : String) :
    (find? s k).isSome = s.contains k := by
  unfold find? Keyed.contains
  rw [Option.isSome_map]

/-- Tables with entries for the same keys have the same keys in the same order. -/
theorem Keyed.keys_eq_of_contains
    {α : Type} {s t : Keyed α} (h : ∀ k, s.contains k = t.contains k) :
    s.keys = t.keys := by
  have hkeys : ∀ u : Keyed α, (u.map fun _ _ => ()).keys = u.keys := fun u => by
    unfold keys map
    rw [List.map_map]
    rfl
  rw [← hkeys s, ← hkeys t]
  refine congrArg keys (TextSet.ext_contains fun k => ?_)
  rw [Bool.eq_iff_iff, ← mem_keys_iff, ← mem_keys_iff, hkeys, hkeys, mem_keys_iff, mem_keys_iff, h]

theorem isSome_find?_beq_iff
    (l : List String) (s : String) :
    (l.find? (· == s)).isSome = true ↔ s ∈ l := by
  rw [List.find?_isSome]
  simp

/-- Tables hold alike if something lies at the same places of them. -/
theorem PropertyOptions.filedAlike_of_isSome
    {s t : Keyed PropertyOptions}
    (h : ∀ k place, ((s.get? k).bind (·.textAt? k place)).isSome =
      ((t.get? k).bind (·.textAt? k place)).isSome) :
    FiledAlike s t where
  keys := Keyed.keys_eq_of_contains fun k => by
    have hk := h k .entry
    unfold Keyed.contains
    cases hs : s.get? k <;> cases ht : t.get? k <;> simp [hs, ht, textAt?] at hk ⊢
  holds k o p ho hp := by
    have hplace : ∀ place, (o.textAt? k place).isSome = (p.textAt? k place).isSome := fun place => by
      have hk := h k place
      rwa [ho, hp, Option.bind_some, Option.bind_some] at hk
    refine ⟨TextSet.ext_contains fun x => ?_, TextSet.ext_contains fun x => ?_,
      Keyed.keys_eq_of_contains fun x => hplace (.name x)⟩
    · rw [← TextSet.isSome_find?, ← TextSet.isSome_find?]
      exact hplace (.ignored x)
    · rw [← TextSet.isSome_find?, ← TextSet.isSome_find?]
      exact hplace (.implemented x)

namespace CodeOptions

/-- Options hold alike if something lies at the same places of them. -/
theorem holdsAlike_of_isSome
    {o p : CodeOptions} (h : ∀ place, (o.textAt? place).isSome = (p.textAt? place).isSome) :
    o.HoldsAlike p where
  usingNamespaces name := by
    rw [← isSome_find?_beq_iff, ← isSome_find?_beq_iff]
    exact Bool.eq_iff_iff.1 (h (.usedNamespace name))
  ignored := TextSet.ext_contains fun k => by
    rw [← TextSet.isSome_find?, ← TextSet.isSome_find?]
    exact h (.ignoredType k)
  classNames := Keyed.keys_eq_of_contains fun k => h (.typeName k)
  byAlias := PropertyOptions.filedAlike_of_isSome fun k place => h (.properties (.typeAlias k) place)
  byClass := PropertyOptions.filedAlike_of_isSome fun k place => h (.properties (.className k) place)
  baseClasses := Keyed.keys_eq_of_contains fun k => h (.baseClass k)
  interfaces := Keyed.keys_eq_of_contains fun k => by
    have hk := h (.interfaces k)
    unfold textAt? at hk
    rwa [Option.isSome_map, Option.isSome_map] at hk
  interfacesOf k base := by
    rw [← isSome_find?_beq_iff, ← isSome_find?_beq_iff]
    exact Bool.eq_iff_iff.1 (h (.interface k base))
  constructors := TextSet.ext_contains fun k => by
    rw [← TextSet.isSome_find?, ← TextSet.isSome_find?]
    exact h (.constructor k)

/-- The sets and keys depend only on which declarations are made. -/
theorem holdsAlike_declareAll
    {ds es : List Declaration} (h : ∀ d, d ∈ ds ↔ d ∈ es) (o : CodeOptions) :
    (o.declareAll ds).HoldsAlike (o.declareAll es) :=
  holdsAlike_of_isSome (isSome_textAt?_declareAll h o)

end CodeOptions
end ContentModels

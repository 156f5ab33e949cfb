import ContentModels.Proofs.CodeModel.Aliases

/-!
# Options by alias or by class name

What is declared about a property under the alias of a content type counts, once aliases are
mapped to class names, as what is declared under the name of the class.  The mapping files
under a class name what is filed there already and then what is filed under the one alias with
this name, so that a declaration comes to lie in the same place on both ways
(`get?_mapAliases`).  Only a name that is given to a property twice shows which way it took:
the one filed under the class name stays.
-/

namespace ContentModels

namespace TextSet

variable {s t : TextSet}

theorem union_add
    (s t : TextSet) (k : String) :
    union s (t.add k) = union (s.add k) t :=
  ext_contains fun j => by
    simp only [contains_union, contains_add]
    cases s.contains j <;> simp

theorem union_empty
    (s : TextSet) :
    union s .empty = s :=
  ext_contains fun j => by
    rw [contains_union, show (Keyed.empty : TextSet).contains j = false from rfl, Bool.or_false]

end TextSet

namespace Keyed

variable {α β : Type}

theorem get?_insertNew
    (t : Keyed α) (k j : String) (a : α) :
    (t.insertNew k a).get? j = if j = k then some ((t.get? k).getD a) else t.get? j :=
  get?_update t k j _

/-- Entries that are put in where there is none leave the others as they are. -/
theorem get?_foldl_insertNew
    (es : List (String × α)) (t : Keyed α) (j : String) :
    (es.foldl (fun t e => t.insertNew e.1 e.2) t).get? j = (t.get? j).or (es.lookup j) := by
  induction es generalizing t with
  | nil => simp
  | cons e es ih =>
    rw [List.foldl_cons, ih, get?_insertNew, List.lookup_cons]
    by_cases h : j = e.1
    · subst h
      cases t.get? e.1 <;> simp
    · have hb : (j == e.1) = false := by simpa using h
      rw [if_neg h, hb]

/-- What is chosen from the entry of one key alone. -/
theorem filterMap_entries_of_key
    {t : Keyed α} {f : String × α → Option β} {k : String} (h : ∀ e, e.1 ≠ k → f e = none) :
    t.entries.filterMap f = ((t.get? k).bind fun a => f (k, a)).toList := by
  unfold get?
  have hsorted := t.sorted
  generalize t.entries = es at hsorted
  induction es with
  | nil => rfl
  | cons e es ih =>
    obtain ⟨hlt, hrest⟩ := List.pairwise_cons.1 hsorted
    rw [List.filterMap_cons, List.lookup_cons]
    by_cases hk : k = e.1
    · subst hk
      have hnone : es.filterMap f = [] := List.filterMap_eq_nil_iff.2 fun d hd =>
        h d fun heq => String.lt_irrefl _ (heq ▸ hlt d hd)
      rw [hnone, beq_self_eq_true]
      cases hf : f e <;> simp [hf]
    · have hb : (k == e.1) = false := by simpa using hk
      rw [h e (Ne.symm hk), hb]
      exact ih hrest

/-- A key from whose entry nothing is chosen may hold anything. -/
theorem filterMap_entries_update
    {t : Keyed α} {f : String × α → Option β} {k : String} (g : Option α → α)
    (h : ∀ a, f (k, a) = none) :
    (t.update k g).entries.filterMap f = t.entries.filterMap f := by
  change (updateEntries k g t.entries).filterMap f = _
  generalize t.entries = es
  induction es with
  | nil => simp [updateEntries, h]
  | cons e es ih =>
    rw [updateEntries]
    split
    · rw [List.filterMap_cons, h]
    · split
      · rename_i hk
        obtain ⟨j, a⟩ := e
        obtain rfl : k = j := hk
        rw [List.filterMap_cons, List.filterMap_cons, h, h]
      · rw [List.filterMap_cons, List.filterMap_cons, ih]

end Keyed

namespace PropertyOptions

variable {o added : PropertyOptions}

theorem name?_merge
    (o added : PropertyOptions) (key : String) :
    (o.merge added).names.get? key = (o.names.get? key).or (added.names.get? key) :=
  Keyed.get?_foldl_insertNew _ _ _

theorem merge_empty
    (o : PropertyOptions) :
    o.merge .empty = o := by
  cases o
  simp only [merge, empty, mk.injEq]
  exact ⟨TextSet.union_empty _, rfl, TextSet.union_empty _⟩

/-- A change of options that can as well be made in what is added to them. -/
def MovesInto (o : PropertyOptions) (f : PropertyOptions → PropertyOptions) : Prop :=
  ∀ added, o.merge (f added) = (f o).merge added

theorem movesInto_ignore
    (o : PropertyOptions) (pattern : String) :
    o.MovesInto fun p => { p with ignored := p.ignored.add pattern } := fun added => by
  simp only [merge, TextSet.union_add]

theorem movesInto_implement
    (o : PropertyOptions) (property : String) :
    o.MovesInto fun p => { p with implemented := p.implemented.add property } := fun added => by
  simp only [merge, TextSet.union_add]

/-- A name counts where it is given, unless another one was given before. -/
theorem movesInto_rename
    {property : String} (name : String) (h : o.names.get? property = none) :
    o.MovesInto fun p => { p with names := p.names.insert property name } := fun added => by
  have hnames : ∀ key, (o.merge { added with names := added.names.insert property name }).names.get? key =
      (merge { o with names := o.names.insert property name } added).names.get? key := by
    intro key
    rw [name?_merge, name?_merge, Keyed.get?_insert, Keyed.get?_insert]
    by_cases hk : key = property
    · rw [if_pos hk, if_pos hk, hk, h]
      rfl
    · rw [if_neg hk, if_neg hk]
  simp only [merge, mk.injEq, true_and, and_true]
  exact Keyed.ext_get? hnames

end PropertyOptions

namespace ContentTypeOptions

open PropertyOptions

variable {o : ContentTypeOptions} {map : Keyed String} {a n : String}

/-! ### What the mapping files under a class name -/

/-- The options that are filed under a class name, and then some more. -/
def mergeAll (filed : Option PropertyOptions) (added : List PropertyOptions) :
    Option PropertyOptions :=
  added.foldl (fun p x => some ((p.getD .empty).merge x)) filed

/-- The options of an entry by alias, if they go to a class. -/
def addedTo (map : Keyed String) (className : String) (e : String × PropertyOptions) :
    Option PropertyOptions :=
  if ((foldedNames map).get? e.1).map Text.lowercase = some className then some e.2 else none

theorem get?_mergeInto
    (table : Keyed PropertyOptions) (className k : String) (added : PropertyOptions) :
    (mergeInto table className added).get? k =
      if k = Text.lowercase className then mergeAll (table.get? k) [added] else table.get? k := by
  unfold mergeInto
  rw [Keyed.get?_update]
  by_cases h : k = Text.lowercase className
  · rw [if_pos h, if_pos h, h]
    rfl
  · rw [if_neg h, if_neg h]

/-- A class has what is filed under its name, and then what is filed under aliases with its name. -/
theorem get?_foldl_mergeInto
    (es : List (String × PropertyOptions)) (table : Keyed PropertyOptions) (k : String) :
    (es.foldl (fun t e =>
      match (foldedNames map).get? e.1 with
      | some className => mergeInto t className e.2
      | none => t) table).get? k = mergeAll (table.get? k) (es.filterMap (addedTo map k)) := by
  induction es generalizing table with
  | nil => rfl
  | cons e es ih =>
    rw [List.foldl_cons, ih, List.filterMap_cons]
    unfold addedTo
    cases hname : (foldedNames map).get? e.1 with
    | none => rfl
    | some className =>
      simp only [get?_mergeInto, Option.map_some, Option.some.injEq]
      by_cases h : k = Text.lowercase className
      · rw [if_pos h, if_pos h.symm]
        rfl
      · rw [if_neg h, if_neg (Ne.symm h)]

theorem get?_mapAliases
    (h : o.mapped = false) (map : Keyed String) :
    ∃ mapped, o.mapAliases map = .ok mapped ∧
      mapped = { o with byAlias := .empty, byClass := mapped.byClass, mapped := true } ∧
      ∀ k, mapped.byClass.get? k =
        mergeAll (o.byClass.get? k) (o.byAlias.entries.filterMap (addedTo map k)) := by
  refine ⟨_, by rw [mapAliases, if_neg (by simp [h])], rfl, fun k => ?_⟩
  exact get?_foldl_mergeInto _ _ _

/-! ### Maps between aliases and names -/

/-- A map that tells aliases apart, and names, whatever the case of their letters. -/
structure OneToOne (map : Keyed String) : Prop where
  aliases : (map.entries.map fun e => Text.lowercase e.1).Nodup
  names : (map.entries.map fun e => Text.lowercase e.2).Nodup

theorem OneToOne.get?_foldedNames
    (hmap : OneToOne map) (h : map.get? a = some n) :
    (foldedNames map).get? (Text.lowercase a) = some n := by
  have hkeys : ((map.entries.map fun e => (Text.lowercase e.1, e.2)).map (·.1)).Nodup := by
    rw [List.map_map]
    exact hmap.aliases
  exact (Keyed.get?_ofList_eq_some_iff hkeys).2
    (List.mem_map.2 ⟨(a, n), Keyed.mem_entries_iff.2 h, rfl⟩)

/-- What goes to the class of an alias is filed under this alias. -/
theorem OneToOne.addedTo_of_ne
    (hmap : OneToOne map) (h : map.get? a = some n) {e : String × PropertyOptions}
    (he : e.1 ≠ Text.lowercase a) :
    addedTo map (Text.lowercase n) e = none := by
  unfold addedTo
  rw [if_neg]
  intro heq
  obtain ⟨c, hc, hlower⟩ := Option.map_eq_some_iff.1 heq
  obtain ⟨d, hd, heqd⟩ := List.mem_map.1 (Keyed.mem_of_get?_ofList hc)
  obtain ⟨hkey, rfl⟩ := Prod.mk.inj heqd
  have hsame := List.inj_on_of_nodup_map hmap.names hd (Keyed.mem_entries_iff.2 h) hlower
  exact he (by rw [← hkey, hsame])

/-! ### Declarations under either key -/

variable {f : PropertyOptions → PropertyOptions}

/-- What is changed under an alias goes to the class of the alias alone. -/
theorem OneToOne.get?_update
    (hmap : OneToOne map) (h : map.get? a = some n)
    (byAlias byClass : Keyed PropertyOptions)
    (hf : ((byClass.get? (Text.lowercase n)).getD .empty).MovesInto f) (k : String) :
    mergeAll (byClass.get? k)
        ((byAlias.update (Text.lowercase a) fun p => f (p.getD .empty)).entries.filterMap
          (addedTo map k)) =
      mergeAll ((byClass.update (Text.lowercase n) fun p => f (p.getD .empty)).get? k)
        (byAlias.entries.filterMap (addedTo map k)) := by
  have hname := hmap.get?_foldedNames h
  rw [Keyed.get?_update]
  by_cases hk : k = Text.lowercase n
  · subst hk
    have hadd : ∀ p, addedTo map (Text.lowercase n) (Text.lowercase a, p) = some p := fun p => by
      rw [addedTo, hname, Option.map_some, if_pos rfl]
    rw [if_pos rfl,
      Keyed.filterMap_entries_of_key fun e => hmap.addedTo_of_ne (e := e) h,
      Keyed.filterMap_entries_of_key fun e => hmap.addedTo_of_ne (e := e) h, Keyed.get?_update,
      if_pos rfl]
    simp only [Option.bind_some, hadd, Option.toList_some]
    cases byAlias.get? (Text.lowercase a) with
    | none =>
      refine congrArg some ((hf _).trans ?_)
      exact merge_empty _
    | some added => exact congrArg some (hf added)
  · rw [if_neg hk, Keyed.filterMap_entries_update]
    intro p
    rw [addedTo, hname, Option.map_some, if_neg]
    exact fun heq => hk (Option.some.inj heq).symm

/-- Options that give the same, once aliases are mapped to class names. -/
def MapAlike (map : Keyed String) (o p : ContentTypeOptions) : Prop :=
  ∃ mapped, o.mapAliases map = .ok mapped ∧ p.mapAliases map = .ok mapped

/-- A change made under the alias of a type is one made under the name of its class. -/
theorem mapAlike_updateProperties
    (hmapped : o.mapped = false) (hmap : OneToOne map) (h : map.get? a = some n)
    (hf : ((o.byClass.get? (Text.lowercase n)).getD .empty).MovesInto f) :
    MapAlike map (o.updateProperties (.typeAlias a) f) (o.updateProperties (.className n) f) := by
  have hmapped₁ : (o.updateProperties (.typeAlias a) f).mapped = false := hmapped
  have hmapped₂ : (o.updateProperties (.className n) f).mapped = false := hmapped
  obtain ⟨x, hx, hxform, hxget⟩ := get?_mapAliases hmapped₁ map
  obtain ⟨y, hy, hyform, hyget⟩ := get?_mapAliases hmapped₂ map
  have hbyClass : x.byClass = y.byClass := Keyed.ext_get? fun k => by
    rw [hxget, hyget]
    exact hmap.get?_update h o.byAlias o.byClass hf k
  obtain rfl : x = y := by
    rw [hxform, hyform, hbyClass]
    rfl
  exact ⟨x, hx, hy⟩

theorem mapped_foldl_declare
    (ds : List Declaration) (o : ContentTypeOptions) :
    (ds.foldl declare o).mapped = o.mapped := by
  induction ds generalizing o with
  | nil => rfl
  | cons d ds ih =>
    rw [List.foldl_cons, ih]
    cases d with
    | ignoreProperty key | renameProperty key | implementProperty key => cases key <;> rfl
    | _ => rfl

theorem mapped_ofDeclarations
    (ds : List Declaration) :
    (CodeOptions.ofDeclarations ds).contentTypes.mapped = false := by
  unfold CodeOptions.ofDeclarations
  rw [CodeOptions.contentTypes_declareAll]
  exact mapped_foldl_declare ds _

/-- The name that is given to a property under a key. -/
def nameAt (o : ContentTypeOptions) (key : TypeKey) (property : String) : Option String :=
  ((o.tableOf key).get? key.folded).bind (·.name? property)

/-- What is kept in place is replaced if the mapping succeeds, and stays if it fails. -/
theorem run_mapInPlace
    (o : ContentTypeOptions) (map : Keyed String) :
    (mapInPlace map).run.run o =
      match o.mapAliases map with
      | .ok mapped => (.ok (), mapped)
      | .error e => (.error e, o) := by
  have hget : (mapInPlace map).run.run o = (ExceptT.run (m := StateM ContentTypeOptions) do
      set (← ExceptT.mk (pure (o.mapAliases map)))).run o := rfl
  rw [hget]
  cases o.mapAliases map <;> rfl

/-- Aliases that are mapped are not mapped again, and what is mapped stays. -/
theorem mapInPlace_of_mapped
    (h : o.mapped = true) (map : Keyed String) :
    (mapInPlace map).run.run o = (.error (.invalidState .alreadyMapped), o) := by
  rw [run_mapInPlace, mapAliases, if_pos h]

/--
Whatever has been declared, what is declared about a property counts the same under the alias of
its type and under the name that the alias is mapped to, for a new name as long as the class has
none for the property.  Aliases are mapped once, and a second attempt changes nothing.
-/
theorem mapAliases_eitherKey
    (ds : List Declaration) (hmap : OneToOne map) (h : map.get? a = some n) :
    let o := (CodeOptions.ofDeclarations ds).contentTypes
    (∀ pattern, MapAlike map (o.declare (.ignoreProperty (.typeAlias a) pattern))
      (o.declare (.ignoreProperty (.className n) pattern))) ∧
    (∀ property, MapAlike map (o.declare (.implementProperty (.typeAlias a) property))
      (o.declare (.implementProperty (.className n) property))) ∧
    (∀ property name, o.nameAt (.className n) property = none →
      MapAlike map (o.declare (.renameProperty (.typeAlias a) property name))
        (o.declare (.renameProperty (.className n) property name))) ∧
    ∃ mapped, (mapInPlace map).run.run o = (.ok (), mapped) ∧
      ∀ again, (mapInPlace again).run.run mapped =
        (.error (.invalidState .alreadyMapped), mapped) := by
  intro o
  have hmapped : o.mapped = false := mapped_ofDeclarations ds
  refine ⟨fun pattern => ?_, fun property => ?_, fun property name hname => ?_, ?_⟩
  · exact mapAlike_updateProperties hmapped hmap h (movesInto_ignore _ _)
  · exact mapAlike_updateProperties hmapped hmap h (movesInto_implement _ _)
  · refine mapAlike_updateProperties hmapped hmap h (movesInto_rename name ?_)
    unfold nameAt name? tableOf at hname
    cases hclass : o.byClass.get? (Text.lowercase n) with
    | none => rfl
    | some x => simpa [hclass, TypeKey.folded, TypeKey.value] using hname
  · obtain ⟨mapped, hok, hform, -⟩ := get?_mapAliases hmapped map
    refine ⟨mapped, ?_, fun again => mapInPlace_of_mapped ?_ again⟩
    · rw [run_mapInPlace, hok]
    · rw [hform]

/-- Options of pages in both kinds of keys, and of another type whose name comes first. -/
def pageDeclarations : List Declaration :=
  [.renameProperty (.typeAlias "Page") "title" "Heading", .ignoreProperty (.className "PAGE") "old*",
    .implementProperty (.typeAlias "home") "title", .renameProperty (.className "Page") "text" "Body"]

/-- A title that pages have renamed by alias is renamed once more, by alias or by class name. -/
theorem mapAliases_eitherKey_page :
    MapAlike (.ofList [("home", "Home"), ("page", "Page")])
      ((CodeOptions.ofDeclarations pageDeclarations).contentTypes.declare
        (.renameProperty (.typeAlias "page") "TITLE" "Caption"))
      ((CodeOptions.ofDeclarations pageDeclarations).contentTypes.declare
        (.renameProperty (.className "Page") "TITLE" "Caption")) :=
  (mapAliases_eitherKey pageDeclarations ⟨by decide +kernel, by decide +kernel⟩
    (by decide +kernel)).2.2.1 "TITLE" "Caption" (by decide +kernel)

end ContentTypeOptions
end ContentModels

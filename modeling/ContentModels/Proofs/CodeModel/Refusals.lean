import ContentModels.Proofs.CodeModel.Names
import ContentModels.Proofs.Options

/-!
# Why building a model fails

Building a code model fails for one kind of reason: the schema or what is configured for it
is refused.  Each step has this property, and chains of steps inherit it.  A name is called
unusable only by the two steps that check names, for a content type or for a property.
-/

namespace ContentModels

/-- A step that fails, if it does, because a schema or settings are refused. -/
def OnlyRefuses
    {α : Type} (x : Outcome α) : Prop :=
  ∀ e, x = .error e → ∃ fault, e = .configuration fault

/--
A step that only refuses, and calls a name unusable only under a condition on the name and on
what it is for.
-/
def Refuses
    {α : Type} (unusable : String → String → Prop) (x : Outcome α) : Prop :=
  ∀ e, x = .error e → ∃ fault, e = .configuration fault ∧
    ∀ name subject, fault = .invalidName name subject → unusable name subject

namespace Refuses

variable {α β : Type} {unusable : String → String → Prop}

theorem onlyRefuses
    {x : Outcome α} (h : Refuses unusable x) :
    OnlyRefuses x := by
  intro e he
  obtain ⟨fault, hfault, -⟩ := h e he
  exact ⟨fault, hfault⟩

theorem ok
    (a : α) :
    Refuses unusable (.ok a) :=
  nofun

theorem configuration
    {fault : ConfigurationFault}
    (h : ∀ name subject, fault = .invalidName name subject → unusable name subject) :
    Refuses unusable (.error (.configuration fault) : Outcome α) := by
  rintro _ ⟨⟩
  exact ⟨fault, rfl, h⟩

theorem bind
    {x : Outcome α} {f : α → Outcome β} (hx : Refuses unusable x)
    (hf : ∀ a, x = .ok a → Refuses unusable (f a)) :
    Refuses unusable (x >>= f) := by
  cases x with
  | error e =>
    rintro _ ⟨⟩
    exact hx e rfl
  | ok a => exact hf a rfl

theorem mapM
    {f : α → Outcome β} {as : List α} (hf : ∀ a ∈ as, Refuses unusable (f a)) :
    Refuses unusable (as.mapM f) := by
  induction as with
  | nil => exact ok []
  | cons a as ih =>
    obtain ⟨ha, has⟩ := List.forall_mem_cons.1 hf
    rw [List.mapM_cons]
    exact ha.bind fun b _ => (ih has).bind fun bs _ => ok (b :: bs)

theorem forM
    {f : α → Outcome Unit} {as : List α} (hf : ∀ a ∈ as, Refuses unusable (f a)) :
    Refuses unusable (as.forM f) := by
  induction as with
  | nil => exact ok ()
  | cons a as ih =>
    obtain ⟨ha, has⟩ := List.forall_mem_cons.1 hf
    exact ha.bind fun _ _ => ih has

end Refuses

open Refuses

section

variable {unusable : String → String → Prop}

/-! ## Schemas -/

namespace Schema

theorem refuses_checkProperties
    (type : String) (before ps : List PropertyType) :
    Refuses unusable (checkProperties type before ps) := by
  induction ps generalizing before with
  | nil => exact ok ()
  | cons p ps ih =>
    unfold checkProperties
    split
    · exact configuration nofun
    · exact ih _

theorem refuses_checkType
    (before : List ContentType) (t : ContentType) :
    Refuses unusable (checkType before t) := by
  unfold checkType
  dsimp only
  split
  · exact configuration nofun
  · split
    · exact configuration nofun
    · split
      · exact configuration nofun
      · exact refuses_checkProperties _ _ _

theorem refuses_checkTypes
    (before ts : List ContentType) :
    Refuses unusable (checkTypes before ts) := by
  induction ts generalizing before with
  | nil => exact ok ()
  | cons t ts ih => exact (refuses_checkType before t).bind fun _ _ => ih _

theorem refuses_linkType
    (types : List ContentType) (t : ContentType) :
    Refuses unusable (linkType types t) := by
  have hparent : Refuses unusable (linkParent types t) := by
    unfold linkParent
    split
    · exact ok _
    · split
      · exact ok _
      · exact configuration nofun
  have hcomposition : ∀ id, Refuses unusable (linkComposition types t id) := by
    intro id
    unfold linkComposition
    split
    · exact ok _
    · exact configuration nofun
  exact hparent.bind fun _ _ => (mapM fun id _ => hcomposition id).bind fun _ _ => ok _

theorem refuses_link
    (types : List ContentType) :
    Refuses unusable (link types) := by
  refine (mapM fun t _ => refuses_linkType types t).bind fun linked _ => ?_
  split
  · exact configuration nofun
  · exact ok _

end Schema

/-! ## Names -/

theorem Naming.refuses_validate
    {name subject : String} (h : isValid name = false → unusable name subject) :
    Refuses unusable (validate name subject) := by
  unfold validate
  split
  · exact ok ()
  · rename_i hvalid
    refine configuration ?_
    rintro _ _ ⟨⟩
    exact h (by simpa using hvalid)

/-- How a content type is called where its name is unusable. -/
def ContentType.subject (t : ContentType) : String :=
  "content type '" ++ t.aliasName ++ "'"

/-- How a property of a content type is called where its name is unusable. -/
def PropertyType.subjectIn (p : PropertyType) (t : ContentType) : String :=
  "property '" ++ p.aliasName ++ "' of content type '" ++ t.aliasName ++ "'"

namespace TypeNames

theorem refuses_checkDistinct
    (before : Keyed (String × String)) (names : List (String × String)) :
    Refuses unusable (checkDistinct before names) := by
  induction names generalizing before with
  | nil => exact ok ()
  | cons x names ih =>
    unfold checkDistinct
    split
    · exact configuration nofun
    · exact ih _

theorem refuses_assignAll
    {settings : Settings} {strategies : Strategies} {options : ContentTypeOptions}
    {ps : List Participant}
    (h : ∀ p ∈ ps, Naming.isValid (nameOf strategies options p.type) = false →
      unusable (nameOf strategies options p.type) p.type.subject) :
    Refuses unusable (assignAll settings strategies options ps) :=
  (mapM fun p hp => (Naming.refuses_validate (h p hp)).bind fun _ _ => ok _).bind fun _ _ =>
    (refuses_checkDistinct _ _).bind fun _ _ => ok _

end TypeNames

/-! ## Members -/

namespace Properties

/-- The name of a property: the one that options give, or else the one that is derived. -/
def nameOf (strategies : Strategies) (options : List PropertyOptions) (p : PropertyType) :
    String :=
  (options.findSome? (·.name? p.aliasName)).getD (strategies.propertyName p.aliasName p.name)

theorem refuses_property
    {plan : Plan} {options : List PropertyOptions} {t : ContentType} {p : PropertyType}
    (h : Naming.isValid (nameOf plan.strategies options p) = false →
      unusable (nameOf plan.strategies options p) (p.subjectIn t)) :
    Refuses unusable (property plan options t p) := by
  simp only [property]
  split
  · exact (Naming.refuses_validate h).bind fun _ _ => ok _
  · exact ok _

theorem refuses_own
    {plan : Plan} {t : NamedType}
    (h : ∀ p ∈ t.type.properties,
      Naming.isValid (nameOf plan.strategies (plan.options.ofClass t.name) p) = false →
        unusable (nameOf plan.strategies (plan.options.ofClass t.name) p) (p.subjectIn t.type)) :
    Refuses unusable (own plan t) :=
  (mapM fun p hp => refuses_property (h p hp)).bind fun _ _ => ok _

end Properties

theorem MemberName.refuses_check
    (typeAlias enclosing : String) (before members : List MemberName) :
    Refuses unusable (check typeAlias enclosing before members) := by
  induction members generalizing before with
  | nil => exact ok ()
  | cons m members ih =>
    unfold check
    dsimp only
    split
    · split
      · exact configuration nofun
      · split
        · split <;> exact configuration nofun
        · exact ih _
    · exact ih _

namespace Model

theorem refuses_checkPropertyNames
    (typeAlias : String) (before ps : List ModelProperty) :
    Refuses unusable (checkPropertyNames typeAlias before ps) := by
  induction ps generalizing before with
  | nil => exact ok ()
  | cons p ps ih =>
    unfold checkPropertyNames
    split
    · exact configuration nofun
    · exact ih _

theorem refuses_checkMembers
    (settings : Settings) (models : List Model) (m : Model) :
    Refuses unusable (checkMembers settings models m) := by
  have hextensions : Refuses unusable (if settings.propertyStyle.hasExtensionMethods then
      MemberName.check m.type.aliasName m.extensionsName [] (m.extensionMembers settings)
      else .ok ()) := by
    split
    · exact MemberName.refuses_check _ _ _ _
    · exact ok ()
  unfold checkMembers
  refine (refuses_checkPropertyNames _ _ _).bind fun _ _ =>
    (MemberName.refuses_check _ _ _ _).bind fun _ _ => ?_
  dsimp only
  split
  · exact (MemberName.refuses_check _ _ _ _).bind fun _ _ => hextensions
  · exact hextensions

end Model

/-! ## Models -/

namespace CodeModel

/--
Building a model from options whose aliases are not mapped yet only refuses, and calls unusable
only names of the content types of the schema and of their properties.
-/
theorem refuses_build
    {settings : Settings} {strategies : Strategies} {schema : List ContentType}
    {options : CodeOptions} (hmapped : options.contentTypes.mapped = false)
    (htypes : ∀ t ∈ schema,
      Naming.isValid (TypeNames.nameOf strategies options.contentTypes t) = false →
        unusable (TypeNames.nameOf strategies options.contentTypes t) t.subject)
    (hproperties : ∀ map mapped, options.contentTypes.mapAliases map = .ok mapped →
      ∀ className, ∀ t ∈ schema, ∀ p ∈ t.properties,
        Naming.isValid (Properties.nameOf strategies (mapped.ofClass className) p) = false →
          unusable (Properties.nameOf strategies (mapped.ofClass className) p) (p.subjectIn t)) :
    Refuses unusable (build settings strategies schema options) := by
  have hmap : ∀ map, Refuses unusable (options.contentTypes.mapAliases map) := by
    intro map
    unfold ContentTypeOptions.mapAliases
    rw [if_neg (by simp [hmapped])]
    exact ok _
  refine (Schema.refuses_checkTypes [] schema).bind fun _ hvalid =>
    (Schema.refuses_link schema).bind fun linked hlink => ?_
  refine (TypeNames.refuses_assignAll fun p hp => ?_).bind fun named hnamed =>
    (hmap _).bind fun mapped hok => ?_
  · exact htypes p.type (Hierarchy.type_mem_of_participant hlink hp)
  refine (mapM fun t ht => Properties.refuses_own fun p hp => ?_).bind fun _ _ =>
    (forM fun m _ => Model.refuses_checkMembers _ _ m).bind fun _ _ => ok _
  exact hproperties _ mapped hok t.name t.type (Named.type_mem ⟨hvalid, hlink, hnamed⟩ ht) p hp

/-- Building a model from options whose aliases are not mapped yet fails only by refusing. -/
theorem onlyRefuses_build
    {options : CodeOptions} (h : options.contentTypes.mapped = false) (settings : Settings)
    (strategies : Strategies) (schema : List ContentType) :
    OnlyRefuses (build settings strategies schema options) := by
  have hrefuses : Refuses (fun _ _ => True) (build settings strategies schema options) :=
    refuses_build h (fun _ _ _ => trivial) fun _ _ _ _ _ _ _ _ _ => trivial
  exact hrefuses.onlyRefuses

end CodeModel

end

/-- Declarations leave aliases unmapped. -/
theorem CodeOptions.mapped_ofDeclarations
    (ds : List Declaration) :
    (ofDeclarations ds).contentTypes.mapped = false := by
  have hdeclare : ∀ (o : ContentTypeOptions) d, (o.declare d).mapped = o.mapped := by
    intro o d
    cases d with
    | ignoreProperty key | renameProperty key | implementProperty key => cases key <;> rfl
    | _ => rfl
  unfold ofDeclarations
  rw [contentTypes_declareAll]
  suffices h : ∀ o : ContentTypeOptions,
      (ds.foldl ContentTypeOptions.declare o).mapped = o.mapped from h _
  intro o
  induction ds generalizing o with
  | nil => rfl
  | cons d ds ih => rw [List.foldl_cons, ih, hdeclare]

end ContentModels

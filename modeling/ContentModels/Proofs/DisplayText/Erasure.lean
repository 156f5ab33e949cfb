import ContentModels.Generation
import ContentModels.Proofs.Outcome

/-!
# Models without display text

Erasing the display names and descriptions of a schema commutes with building its model,
unless names are derived from display names: links, names, properties and checks look at
ids, aliases and value types only.  So two schemas that differ in display text alone fail
alike or have models that differ in display text alone.
-/

namespace ContentModels

/-! ### Erasure -/

namespace PropertyType

/-- A property without its display text. -/
def eraseDisplay (p : PropertyType) : PropertyType :=
  { p with name := "", description := none }

end PropertyType

namespace ContentType

/-- A content type without its display text. -/
def eraseDisplay (t : ContentType) : ContentType :=
  { t with
    name := ""
    description := none
    properties := t.properties.map (·.eraseDisplay) }

end ContentType

namespace ModelProperty

/-- A property of a model without its display text. -/
def eraseDisplay (p : ModelProperty) : ModelProperty :=
  { p with type := p.type.eraseDisplay }

end ModelProperty

namespace Participant

/-- A participant without its display text. -/
def eraseDisplay (p : Participant) : Participant :=
  { p with type := p.type.eraseDisplay }

end Participant

namespace NamedType

/-- A named type without its display text. -/
def eraseDisplay (t : NamedType) : NamedType :=
  { t with toParticipant := t.toParticipant.eraseDisplay }

end NamedType

namespace PropertiedType

/-- A type with its properties, without their display text. -/
def eraseDisplay (t : PropertiedType) : PropertiedType :=
  { t with
    toNamedType := t.toNamedType.eraseDisplay
    properties := t.properties.map (·.eraseDisplay) }

end PropertiedType

namespace Model

/-- A model without its display text. -/
def eraseDisplay (m : Model) : Model :=
  { m with toPropertiedType := m.toPropertiedType.eraseDisplay }

end Model

namespace CodeModel

/-- A code model without its display text. -/
def eraseDisplay (m : CodeModel) : CodeModel :=
  { m with models := m.models.map (·.eraseDisplay) }

end CodeModel

namespace Schema.LinkedType

/-- A linked type without its display text. -/
def eraseDisplay (t : LinkedType) : LinkedType :=
  { t with type := t.type.eraseDisplay }

end Schema.LinkedType

/-- Strategies that do not look at display text. -/
structure Strategies.IgnoresDisplay (s : Strategies) : Prop where
  typeName : ∀ aliasName name other, s.typeName aliasName name = s.typeName aliasName other
  propertyName : ∀ aliasName name other,
    s.propertyName aliasName name = s.propertyName aliasName other
  includes : ∀ t p, s.includes t.eraseDisplay p.eraseDisplay = s.includes t p
  baseClass : ∀ q, s.baseClass { q with type := q.type.eraseDisplay } = s.baseClass q

/-- The standard strategies look at display text only to derive names from it. -/
theorem Strategies.ignoresDisplay_standard
    {settings : Settings}
    (h : settings.nameSource ≠ .displayName) :
    (Strategies.standard settings).IgnoresDisplay := by
  have hderive : ∀ aliasName name other,
      Naming.derive settings.nameSource aliasName name =
        Naming.derive settings.nameSource aliasName other := by
    intro aliasName name other
    unfold Naming.derive
    cases hs : settings.nameSource with
    | pascalAlias => rfl
    | rawAlias => rfl
    | displayName => exact absurd hs h
  exact ⟨hderive, hderive, fun _ _ => rfl, fun _ => rfl⟩

namespace Outcome

variable {ε α β γ : Type}

theorem mapM_map_result
    (f : α → Except ε β) (e : β → γ) (as : List α) :
    (as.mapM fun a => (f a).map e) = (as.mapM f).map (List.map e) := by
  induction as with
  | nil => rfl
  | cons a as ih =>
    rw [List.mapM_cons, List.mapM_cons, ih]
    cases f a with
    | error x => rfl
    | ok b => cases as.mapM f <;> rfl

end Outcome

/-! ### The schema -/

namespace Schema

theorem checkProperties_eraseDisplay
    (type : String) (before ps : List PropertyType) :
    checkProperties type (before.map (·.eraseDisplay)) (ps.map (·.eraseDisplay)) =
      checkProperties type before ps := by
  induction ps generalizing before with
  | nil => rfl
  | cons p ps ih =>
    rw [List.map_cons, checkProperties, checkProperties, List.find?_map]
    have hstep := ih (before ++ [p])
    rw [List.map_append] at hstep
    rw [show ((fun q : PropertyType =>
        Text.agreeIgnoringCase q.aliasName p.eraseDisplay.aliasName) ∘
          PropertyType.eraseDisplay) =
        fun q => Text.agreeIgnoringCase q.aliasName p.aliasName from rfl]
    cases before.find? fun q => Text.agreeIgnoringCase q.aliasName p.aliasName with
    | none => exact hstep
    | some q => rfl

theorem checkType_eraseDisplay
    (before : List ContentType) (t : ContentType) :
    checkType (before.map (·.eraseDisplay)) t.eraseDisplay = checkType before t := by
  unfold checkType
  have hproperties := checkProperties_eraseDisplay t.aliasName [] t.properties
  rw [List.map_nil] at hproperties
  rw [List.find?_map, List.find?_map]
  rw [show ((fun s : ContentType => s.id == t.eraseDisplay.id) ∘ ContentType.eraseDisplay) =
      fun s => s.id == t.id from rfl,
    show ((fun s : ContentType =>
        Text.agreeIgnoringCase s.aliasName t.eraseDisplay.aliasName) ∘
          ContentType.eraseDisplay) =
      fun s => Text.agreeIgnoringCase s.aliasName t.aliasName from rfl,
    show checkProperties t.eraseDisplay.aliasName [] t.eraseDisplay.properties =
      checkProperties t.aliasName [] t.properties from hproperties]
  cases before.find? fun s => s.id == t.id with
  | none =>
    cases before.find? fun s => Text.agreeIgnoringCase s.aliasName t.aliasName <;> rfl
  | some s => rfl

theorem checkTypes_eraseDisplay
    (before types : List ContentType) :
    checkTypes (before.map (·.eraseDisplay)) (types.map (·.eraseDisplay)) =
      checkTypes before types := by
  induction types generalizing before with
  | nil => rfl
  | cons t types ih =>
    have hstep := ih (before ++ [t])
    rw [List.map_append] at hstep
    rw [List.map_cons, checkTypes, checkTypes, checkType_eraseDisplay]
    exact congrArg _ (funext fun _ => hstep)

theorem position?_eraseDisplay
    (types : List ContentType) (id : Int) :
    position? (types.map (·.eraseDisplay)) id = position? types id := by
  unfold position?
  rw [List.findIdx?_map]
  rfl

theorem linkType_eraseDisplay
    (types : List ContentType) (t : ContentType) :
    linkType (types.map (·.eraseDisplay)) t.eraseDisplay =
      (linkType types t).map (·.eraseDisplay) := by
  have hparent : linkParent (types.map (·.eraseDisplay)) t.eraseDisplay = linkParent types t := by
    unfold linkParent
    rw [show t.eraseDisplay.parent? = t.parent? from rfl]
    cases t.parent? with
    | none => rfl
    | some id =>
      simp only [position?_eraseDisplay]
      rfl
  have hcomposition : linkComposition (types.map (·.eraseDisplay)) t.eraseDisplay =
      linkComposition types t := by
    funext id
    unfold linkComposition
    rw [position?_eraseDisplay]
    rfl
  unfold linkType
  rw [hparent, hcomposition]
  cases linkParent types t with
  | error e => rfl
  | ok parent =>
    rw [show t.eraseDisplay.compositionIds = t.compositionIds from rfl,
      show t.eraseDisplay.id = t.id from rfl]
    cases hc : (t.compositionIds.filter (· != t.id)).mapM (linkComposition types t) with
    | error e => rfl
    | ok compositions =>
      rfl

theorem parentAt_eraseDisplay
    (types : List LinkedType) :
    parentAt (types.map (·.eraseDisplay)) = parentAt types := by
  funext i
  unfold parentAt
  rw [List.getElem?_map]
  cases types[i]? <;> rfl

theorem ancestors_eraseDisplay
    (types : List LinkedType) (i : Nat) :
    ancestors (types.map (·.eraseDisplay)) i = ancestors types i := by
  unfold ancestors
  rw [parentAt_eraseDisplay, List.length_map]

theorem link_eraseDisplay
    (types : List ContentType) :
    link (types.map (·.eraseDisplay)) = (link types).map (List.map (·.eraseDisplay)) := by
  have hlink : (types.map (·.eraseDisplay)).mapM (linkType (types.map (·.eraseDisplay))) =
      (types.mapM (linkType types)).map (List.map (·.eraseDisplay)) := by
    rw [List.mapM_map, ← Outcome.mapM_map_result]
    exact congrArg (types.mapM ·) (funext fun t => linkType_eraseDisplay types t)
  unfold link
  rw [hlink]
  cases types.mapM (linkType types) with
  | error e => rfl
  | ok linked =>
    have hfind : (linked.map (·.eraseDisplay)).zipIdx.find?
          (fun x => isCyclic (linked.map (·.eraseDisplay)) x.2) =
        (linked.zipIdx.find? fun x => isCyclic linked x.2).map
          fun x => (x.1.eraseDisplay, x.2) := by
      rw [List.zipIdx_map, List.find?_map]
      congr 2
      funext x
      simp [isCyclic, ancestors_eraseDisplay]
    simp only [Except.map, bind, Except.bind, hfind]
    cases linked.zipIdx.find? fun x => isCyclic linked x.2 <;> rfl

end Schema

/-! ### The hierarchy -/

namespace Hierarchy

open Schema (LinkedType)

variable {isIgnored : String → Bool} {types : List LinkedType}

theorem isDropped_eraseDisplay
    (isIgnored : String → Bool) (types : List LinkedType) (i : Nat) :
    isDropped isIgnored (types.map (·.eraseDisplay)) i = isDropped isIgnored types i := by
  unfold isDropped
  rw [Schema.ancestors_eraseDisplay]
  congr 1
  funext j
  rw [List.getElem?_map]
  cases types[j]? <;> rfl

theorem kept_eraseDisplay
    (isIgnored : String → Bool) (types : List LinkedType) :
    kept isIgnored (types.map (·.eraseDisplay)) = kept isIgnored types := by
  unfold kept
  rw [List.length_map]
  simp only [isDropped_eraseDisplay]

theorem place_eraseDisplay
    (types : List LinkedType) (positions : List Nat) (i : Nat) (t : LinkedType) :
    place (types.map (·.eraseDisplay)) positions i t.eraseDisplay =
      (place types positions i t).eraseDisplay := by
  unfold place
  rw [Schema.ancestors_eraseDisplay]
  rfl

theorem parentAt_eraseDisplay
    (ps : List Participant) :
    parentAt (ps.map (·.eraseDisplay)) = parentAt ps := by
  funext i
  unfold parentAt
  rw [List.getElem?_map]
  cases ps[i]? <;> rfl

theorem mixinPositions_eraseDisplay
    (ps : List Participant) :
    mixinPositions (ps.map (·.eraseDisplay)) = mixinPositions ps := by
  unfold mixinPositions ancestors
  rw [parentAt_eraseDisplay, List.length_map, List.flatMap_map]
  rfl

theorem participants_eraseDisplay
    (isIgnored : String → Bool) (types : List LinkedType) :
    participants isIgnored (types.map (·.eraseDisplay)) =
      (participants isIgnored types).map (·.eraseDisplay) := by
  have hplaced :
      ((kept isIgnored types).filterMap fun i =>
        (types.map (·.eraseDisplay))[i]?.map
          (place (types.map (·.eraseDisplay)) (kept isIgnored types) i)) =
      ((kept isIgnored types).filterMap fun i =>
        types[i]?.map (place types (kept isIgnored types) i)).map (·.eraseDisplay) := by
    rw [List.map_filterMap]
    congr 1
    funext i
    rw [List.getElem?_map]
    cases types[i]? with
    | none => rfl
    | some t => simp [place_eraseDisplay]
  unfold participants
  simp only [kept_eraseDisplay, hplaced, mixinPositions_eraseDisplay, List.zipIdx_map,
    List.map_map]
  rfl

theorem dropped_eraseDisplay
    (isIgnored : String → Bool) (types : List LinkedType) :
    dropped isIgnored (types.map (·.eraseDisplay)) =
      (dropped isIgnored types).map (·.eraseDisplay) := by
  unfold dropped
  simp only [isDropped_eraseDisplay, List.zipIdx_map, List.filter_map, List.map_map]
  rfl

theorem introduced_eraseDisplay
    (ps : List Participant) (i : Nat) :
    introduced (ps.map (·.eraseDisplay)) i = introduced ps i := by
  have hlinks : links (ps.map (·.eraseDisplay)) = links ps := by
    funext j
    unfold links
    rw [List.getElem?_map]
    cases ps[j]? <;> rfl
  have hcount : linkCount (ps.map (·.eraseDisplay)) = linkCount ps := by
    unfold linkCount
    rw [List.flatMap_map]
    rfl
  have hcovered : covered (ps.map (·.eraseDisplay)) = covered ps := by
    funext j
    unfold covered
    rw [hlinks, hcount]
  unfold introduced
  rw [hcovered, parentAt_eraseDisplay, List.length_map]

end Hierarchy

/-! ### Names and properties -/

namespace TypeNames

variable {strategies : Strategies}

theorem assign_eraseDisplay
    (h : strategies.IgnoresDisplay) (options : ContentTypeOptions) (p : Participant) :
    assign strategies options p.eraseDisplay =
      (assign strategies options p).map (·.eraseDisplay) := by
  have hname : nameOf strategies options p.eraseDisplay.type = nameOf strategies options p.type := by
    unfold nameOf
    rw [h.typeName _ p.eraseDisplay.type.name p.type.name]
    rfl
  unfold assign
  simp only [hname]
  rw [show p.eraseDisplay.type.aliasName = p.type.aliasName from rfl]
  cases Naming.validate (nameOf strategies options p.type)
    ("content type '" ++ p.type.aliasName ++ "'") with
  | error e => rfl
  | ok _ => rfl

theorem all_eraseDisplay
    (style : PropertyStyle) (ts : List NamedType) :
    all style (ts.map (·.eraseDisplay)) = all style ts := by
  unfold all
  rw [List.flatMap_map]
  rfl

theorem assignAll_eraseDisplay
    (h : strategies.IgnoresDisplay) (settings : Settings) (options : ContentTypeOptions)
    (ps : List Participant) :
    assignAll settings strategies options (ps.map (·.eraseDisplay)) =
      (assignAll settings strategies options ps).map (List.map (·.eraseDisplay)) := by
  have hassign : (ps.map (·.eraseDisplay)).mapM (assign strategies options) =
      (ps.mapM (assign strategies options)).map (List.map (·.eraseDisplay)) := by
    rw [List.mapM_map, ← Outcome.mapM_map_result]
    exact congrArg (ps.mapM ·) (funext fun p => assign_eraseDisplay h options p)
  unfold assignAll
  rw [hassign]
  cases ps.mapM (assign strategies options) with
  | error e => rfl
  | ok named =>
    simp only [Except.map, bind, Except.bind, all_eraseDisplay]
    cases checkDistinct .empty (all settings.propertyStyle named) <;> rfl

theorem byAlias_eraseDisplay
    (ts : List NamedType) :
    byAlias (ts.map (·.eraseDisplay)) = byAlias ts := by
  unfold byAlias
  rw [List.map_map]
  rfl

theorem placeholders_eraseDisplay
    (settings : Settings) (dropped : List ContentType) (ts : List NamedType) :
    placeholders settings (dropped.map (·.eraseDisplay)) (ts.map (·.eraseDisplay)) =
      placeholders settings dropped ts := by
  unfold placeholders
  rw [List.map_map, List.map_map]
  rfl

end TypeNames

namespace Properties

variable {plan : Plan}

theorem property_eraseDisplay
    (h : plan.strategies.IgnoresDisplay) (options : List PropertyOptions)
    (t : ContentType) (p : PropertyType) :
    property plan options t.eraseDisplay p.eraseDisplay =
      (property plan options t p).map (·.eraseDisplay) := by
  have hname : plan.strategies.propertyName p.eraseDisplay.aliasName p.eraseDisplay.name =
      plan.strategies.propertyName p.aliasName p.name := h.propertyName _ _ _
  unfold property
  simp only [hname, h.includes]
  rw [show t.eraseDisplay.aliasName = t.aliasName from rfl,
    show p.eraseDisplay.aliasName = p.aliasName from rfl,
    show p.eraseDisplay.valueType = p.valueType from rfl]
  generalize (options.findSome? fun o => o.name? p.aliasName).getD _ = name
  generalize state options p.aliasName _ = s
  by_cases hs : (s != .ignored) = true
  · rw [if_pos hs, if_pos hs]
    cases Naming.validate name
      ("property '" ++ p.aliasName ++ "' of content type '" ++ t.aliasName ++ "'") <;> rfl
  · rw [if_neg hs, if_neg hs]
    rfl

theorem own_eraseDisplay
    (h : plan.strategies.IgnoresDisplay) (t : NamedType) :
    own plan t.eraseDisplay = (own plan t).map (·.eraseDisplay) := by
  have hproperties :
      t.eraseDisplay.type.properties.mapM
          (property plan (plan.options.ofClass t.name) t.eraseDisplay.type) =
        (t.type.properties.mapM (property plan (plan.options.ofClass t.name) t.type)).map
          (List.map (·.eraseDisplay)) := by
    rw [show t.eraseDisplay.type.properties = t.type.properties.map (·.eraseDisplay) from rfl,
      List.mapM_map, ← Outcome.mapM_map_result]
    exact congrArg (t.type.properties.mapM ·)
      (funext fun p => property_eraseDisplay h _ t.type p)
  unfold own
  rw [show t.eraseDisplay.name = t.name from rfl]
  simp only [hproperties]
  cases t.type.properties.mapM (property plan (plan.options.ofClass t.name) t.type) <;> rfl

theorem mapM_own_eraseDisplay
    (h : plan.strategies.IgnoresDisplay) (ts : List NamedType) :
    (ts.map (·.eraseDisplay)).mapM (own plan) =
      (ts.mapM (own plan)).map (List.map (·.eraseDisplay)) := by
  rw [List.mapM_map, ← Outcome.mapM_map_result]
  exact congrArg (ts.mapM ·) (funext fun t => own_eraseDisplay h t)

theorem mixed_eraseDisplay
    (plan : Plan) (ts : List PropertiedType) (i : Nat) (t : PropertiedType) :
    mixed plan (ts.map (·.eraseDisplay)) i t.eraseDisplay = mixed plan ts i t := by
  have hparticipants : (ts.map (·.eraseDisplay)).map (·.toParticipant) =
      (ts.map (·.toParticipant)).map (·.eraseDisplay) := by
    rw [List.map_map, List.map_map]
    rfl
  unfold mixed
  rw [hparticipants, Hierarchy.introduced_eraseDisplay, show t.eraseDisplay.name = t.name from rfl]
  simp only
  congr 1
  funext m
  rw [List.getElem?_map]
  cases ts[m]? with
  | none => rfl
  | some x =>
    simp only [Option.map_some, Option.getD_some]
    rw [show x.eraseDisplay.properties = x.properties.map (·.eraseDisplay) from rfl,
      List.zipIdx_map, List.map_map]
    rfl

end Properties

/-! ### Models -/

namespace Inheritance

theorem mixinInterfaces_eraseDisplay
    (ts : List PropertiedType) (t : PropertiedType) :
    mixinInterfaces (ts.map (·.eraseDisplay)) t.eraseDisplay = mixinInterfaces ts t := by
  unfold mixinInterfaces
  congr 1
  funext m
  rw [List.getElem?_map]
  cases ts[m]? <;> rfl

theorem complete_eraseDisplay
    {plan : Properties.Plan}
    (h : plan.strategies.IgnoresDisplay) (modelsBaseClass : Option String)
    (ts : List PropertiedType) (i : Nat) (t : PropertiedType) :
    complete plan modelsBaseClass (ts.map (·.eraseDisplay)) i t.eraseDisplay =
      (complete plan modelsBaseClass ts i t).eraseDisplay := by
  have hparent : ∀ {β : Type} (f : PropertiedType → β), (∀ x, f x.eraseDisplay = f x) →
      (t.parent.bind fun p => (ts.map (·.eraseDisplay))[p]?.map f) =
        t.parent.bind fun p => ts[p]?.map f := by
    intro β f hf
    congr 1
    funext p
    rw [List.getElem?_map]
    cases ts[p]? with
    | none => rfl
    | some x => simp [hf]
  have hbase := h.baseClass {
    type := t.type
    parentName := t.parent.bind fun p => ts[p]?.map (·.name)
    declaredBase := plan.options.baseClass? t.name
    modelsBaseClass
    settings := plan.settings }
  unfold complete
  simp only [Properties.mixed_eraseDisplay, interfaces, interfaceBases,
    mixinInterfaces_eraseDisplay]
  rw [show t.eraseDisplay.parent = t.parent from rfl,
    hparent (·.name) (fun _ => rfl), hparent (·.interfaceName) (fun _ => rfl)]
  unfold Model.eraseDisplay
  simp only [Model.mk.injEq, true_and]
  exact ⟨hbase, rfl, rfl, rfl, rfl⟩

theorem map_complete_eraseDisplay
    {plan : Properties.Plan}
    (h : plan.strategies.IgnoresDisplay) (modelsBaseClass : Option String)
    (ts : List PropertiedType) :
    ((ts.map (·.eraseDisplay)).zipIdx.map fun x =>
      complete plan modelsBaseClass (ts.map (·.eraseDisplay)) x.2 x.1) =
      (ts.zipIdx.map fun x => complete plan modelsBaseClass ts x.2 x.1).map (·.eraseDisplay) := by
  rw [List.zipIdx_map, List.map_map, List.map_map]
  refine List.map_congr_left fun x _ => ?_
  exact complete_eraseDisplay h modelsBaseClass ts x.2 x.1

end Inheritance

namespace Model

theorem ownProperties_eraseDisplay
    (m : Model) :
    m.eraseDisplay.ownProperties = m.ownProperties.map (·.eraseDisplay) := by
  unfold ownProperties
  rw [show m.eraseDisplay.properties = m.properties.map (·.eraseDisplay) from rfl,
    List.filter_map]
  rfl

theorem mixedIn_eraseDisplay
    (models : List Model) (m : Model) :
    m.eraseDisplay.mixedIn (models.map (·.eraseDisplay)) =
      (m.mixedIn models).map (·.eraseDisplay) := by
  unfold mixedIn
  rw [show m.eraseDisplay.mixedProperties = m.mixedProperties from rfl, List.map_filterMap]
  congr 1
  funext x
  rw [List.getElem?_map]
  cases models[x.mixin]? with
  | none => rfl
  | some mixin =>
    simp only [Option.map_some, Option.bind_some]
    rw [show mixin.eraseDisplay.properties = mixin.properties.map (·.eraseDisplay) from rfl,
      List.getElem?_map]

theorem checkPropertyNames_eraseDisplay
    (typeAlias : String) (before ps : List ModelProperty) :
    checkPropertyNames typeAlias (before.map (·.eraseDisplay)) (ps.map (·.eraseDisplay)) =
      checkPropertyNames typeAlias before ps := by
  induction ps generalizing before with
  | nil => rfl
  | cons p ps ih =>
    have hstep := ih (before ++ [p])
    rw [List.map_append] at hstep
    rw [List.map_cons, checkPropertyNames, checkPropertyNames, List.find?_map,
      show ((fun q : ModelProperty => q.name == p.eraseDisplay.name) ∘
        ModelProperty.eraseDisplay) = fun q => q.name == p.name from rfl]
    cases before.find? fun q => q.name == p.name with
    | none => exact hstep
    | some q => rfl

theorem checkMembers_eraseDisplay
    (settings : Settings) (models : List Model) (m : Model) :
    checkMembers settings (models.map (·.eraseDisplay)) m.eraseDisplay =
      checkMembers settings models m := by
  have hmap : ∀ (f : ModelProperty → MemberName) (ps : List ModelProperty),
      (∀ p, f p.eraseDisplay = f p) → (ps.map (·.eraseDisplay)).map f = ps.map f := by
    intro f ps hf
    rw [List.map_map]
    exact List.map_congr_left fun p _ => hf p
  have hnames := checkPropertyNames_eraseDisplay m.type.aliasName []
    (m.ownProperties ++ m.mixedIn models)
  rw [List.map_append, List.map_nil] at hnames
  have hclass : m.eraseDisplay.classMembers settings (models.map (·.eraseDisplay)) =
      m.classMembers settings models := by
    unfold classMembers
    rw [mixedIn_eraseDisplay, ownProperties_eraseDisplay, ← List.map_append,
      hmap (MemberName.accessor settings) _ (fun _ => rfl),
      hmap (MemberName.getter settings (.one m.eraseDisplay.interfaceName)) _ (fun _ => rfl)]
    rfl
  have hinterface : m.eraseDisplay.interfaceMembers settings = m.interfaceMembers settings := by
    unfold interfaceMembers
    rw [ownProperties_eraseDisplay, hmap (MemberName.accessor settings) _ (fun _ => rfl)]
  have hextension : m.eraseDisplay.extensionMembers settings = m.extensionMembers settings := by
    unfold extensionMembers
    rw [ownProperties_eraseDisplay, List.filter_map,
      hmap (MemberName.getter settings (.extending m.eraseDisplay.extended)) _ (fun _ => rfl)]
    rfl
  unfold checkMembers
  rw [hclass, hinterface, hextension, ownProperties_eraseDisplay, mixedIn_eraseDisplay]
  simp only
  rw [show m.eraseDisplay.type.aliasName = m.type.aliasName from rfl, hnames]
  rfl

theorem forM_checkMembers_eraseDisplay
    (settings : Settings) (models : List Model) :
    (models.map (·.eraseDisplay)).forM (checkMembers settings (models.map (·.eraseDisplay))) =
      models.forM (checkMembers settings models) := by
  have hforM := List.forM_map (l := models) (g := Model.eraseDisplay)
    (f := checkMembers settings (models.map (·.eraseDisplay)))
  refine hforM.trans ?_
  congr 1
  funext m
  exact checkMembers_eraseDisplay settings models m

end Model

namespace CodeModel

/-- Erasing display text commutes with building a model. -/
theorem build_eraseDisplay
    {strategies : Strategies}
    (h : strategies.IgnoresDisplay) (settings : Settings) (schema : List ContentType)
    (options : CodeOptions) :
    build settings strategies (schema.map (·.eraseDisplay)) options =
      (build settings strategies schema options).map (·.eraseDisplay) := by
  unfold build
  have hvalid := Schema.checkTypes_eraseDisplay [] schema
  rw [List.map_nil] at hvalid
  rw [show Schema.validate (schema.map (·.eraseDisplay)) = Schema.validate schema from hvalid,
    Schema.link_eraseDisplay]
  cases Schema.validate schema with
  | error e => rfl
  | ok _ =>
  cases Schema.link schema with
  | error e => rfl
  | ok linked =>
  simp only [Except.map, bind, Except.bind, Hierarchy.participants_eraseDisplay,
    TypeNames.assignAll_eraseDisplay h, Hierarchy.dropped_eraseDisplay]
  cases TypeNames.assignAll settings strategies options.contentTypes
    (Hierarchy.participants options.contentTypes.isIgnored linked) with
  | error e => rfl
  | ok named =>
  simp only [TypeNames.byAlias_eraseDisplay, TypeNames.placeholders_eraseDisplay]
  cases options.contentTypes.mapAliases (TypeNames.byAlias named) with
  | error e => rfl
  | ok mapped =>
  have hstrategies : (Properties.Plan.mk settings strategies mapped
      (TypeNames.placeholders settings (Hierarchy.dropped options.contentTypes.isIgnored linked)
        named)).strategies.IgnoresDisplay := h
  simp only [Properties.mapM_own_eraseDisplay hstrategies]
  cases named.mapM (Properties.own ⟨settings, strategies, mapped, TypeNames.placeholders settings
    (Hierarchy.dropped options.contentTypes.isIgnored linked) named⟩) with
  | error e => rfl
  | ok propertied =>
  simp only [Except.map, Inheritance.map_complete_eraseDisplay hstrategies,
    Model.forM_checkMembers_eraseDisplay]
  generalize (propertied.zipIdx.map fun x =>
    Inheritance.complete _ options.modelsBaseClass propertied x.2 x.1) = models
  cases models.forM (Model.checkMembers settings models) <;> rfl

end CodeModel
end ContentModels

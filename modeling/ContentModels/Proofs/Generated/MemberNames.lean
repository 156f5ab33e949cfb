import Mathlib.Data.List.Perm.Basic
import Mathlib.Data.List.Perm.Subperm
import ContentModels.Proofs.CodeModel.Build
import ContentModels.Proofs.CodeModel.MemberNames
import ContentModels.Proofs.Generated.Written

/-!
# Names of generated members

The members of a generated type fit together: none but a constructor is named after the type,
and two of them share a name only if they are methods with different parameters.  The names
are checked before anything is written, and what is written is some of what was checked, in
another order.

The check leaves out the members that every class has.  So the members of a class fit exactly
if the class is not named after one of these (`fits_iff`).
-/

namespace ContentModels

/-- The name of a member, with the types of its parameters if it is a method. -/
structure Signature where
  name : String
  parameters : Option (List String)

namespace Signature

/-- Whether two members cannot stand in one type. -/
def Clashes (a b : Signature) : Prop :=
  a.name = b.name ∧ (a.parameters = none ∨ b.parameters = none ∨ a.parameters = b.parameters)

theorem Clashes.symm
    {a b : Signature}
    (h : a.Clashes b) :
    b.Clashes a := by
  obtain ⟨hname, h | h | h⟩ := h
  · exact ⟨hname.symm, .inr (.inl h)⟩
  · exact ⟨hname.symm, .inl h⟩
  · exact ⟨hname.symm, .inr (.inr h.symm)⟩

end Signature

/-- The types of parameters in the class of a model. -/
def Parameters.types (className : String) : Parameters → List String
  | .none => []
  | .one type => [type]
  | .extending type => [type]
  | .selector => ["Expression<Func<" ++ className ++ ", TValue>>"]

namespace MemberName

/-- The signature of a member that is checked for a class. -/
def signature (className : String) (n : MemberName) : Signature where
  name := n.name
  parameters := n.parameters.map (·.types className)

/-- Members clash by their signatures only if they do by their names and parameters. -/
theorem clashes_of_signature
    {className : String} {a b : MemberName}
    (hinj : ∀ p q, a.parameters = some p → b.parameters = some q →
      p.types className = q.types className → p = q)
    (h : (a.signature className).Clashes (b.signature className)) :
    a.clashes b = true := by
  obtain ⟨hname, h⟩ := h
  unfold clashes
  rw [Bool.and_eq_true, beq_iff_eq]
  refine ⟨hname, ?_⟩
  unfold signature at h
  cases ha : a.parameters with
  | none => rfl
  | some p =>
    cases hb : b.parameters with
    | none => rfl
    | some q =>
      rw [ha, hb] at h
      simp only [Option.map_some, Option.some.injEq, reduceCtorEq, false_or] at h
      simp [hinj p q ha hb h]

end MemberName

namespace Generated

/-- The signature of a member that is written. -/
def WrittenMember.signature (w : WrittenMember) : Signature where
  name := w.name
  parameters := w.parameters.map fun ps => ps.map (·.type)

/-- Members of a type that fit together. -/
structure WrittenType.Fits (w : WrittenType) : Prop where
  names : ∀ x ∈ w.members, x.isConstructor = false → x.name ≠ w.name
  pairs : w.members.Pairwise fun a b => ¬ a.signature.Clashes b.signature

namespace Layout

variable {l : Layout} {models : List Model} {m : Model} {p : ModelProperty}

/-! ### Written members have the names that are checked -/

theorem signature_interfaceProperty :
    (l.writtenInterfaceProperty p).signature =
      (MemberName.accessor l.settings p).signature m.name := by
  unfold writtenInterfaceProperty MemberName.accessor WrittenMember.signature
  cases l.settings.propertyStyle.hasProperties <;> rfl

/-- The name of a member of a class as it is checked. -/
def checkedName (l : Layout) (m : Model) : ClassMember → MemberName
  | .mixedAccessor _ p | .ownAccessor p => MemberName.accessor l.settings p
  | .staticGetter p => MemberName.getter l.settings (.one m.interfaceName) p

theorem signature_classMember
    (x : ClassMember) :
    (l.writtenClassMember m x).signature = (l.checkedName m x).signature m.name := by
  cases x with
  | staticGetter p => rfl
  | mixedAccessor mixin p | ownAccessor p =>
    unfold writtenClassMember writtenAccessor checkedName MemberName.accessor
      WrittenMember.signature
    cases l.settings.propertyStyle.hasProperties <;> rfl

theorem signature_helpers :
    (writtenHelpers m).map (·.signature) =
      MemberName.helpers.map (·.signature m.name) :=
  rfl

/-! ### Members of a class -/

/-- A property with an accessor is one that is not left out. -/
theorem filter_generate_sublist
    {α : Type} (state : α → PropertyState) (xs : List α) :
    (xs.filter fun x => state x == .generate).Sublist (xs.filter fun x => state x != .ignored) := by
  refine List.monotone_filter_right xs fun x hx => ?_
  rw [beq_iff_eq] at hx
  rw [hx]
  rfl

theorem mixedAccessors_sublist :
    ((mixedAccessors models m).map (l.checkedName m)).Sublist
      ((m.mixedIn models).map (MemberName.accessor l.settings)) := by
  unfold mixedAccessors Model.mixedIn
  rw [List.map_filterMap, List.map_filterMap]
  have hname : ∀ x : MixedProperty,
      (models[x.mixin]?.bind fun mixin =>
        mixin.properties[x.property]?.map (.mixedAccessor mixin)).map (l.checkedName m) =
      (models[x.mixin]?.bind fun mixin => mixin.properties[x.property]?).map
        (MemberName.accessor l.settings) := by
    intro x
    cases models[x.mixin]? with
    | none => rfl
    | some mixin =>
      simp only [Option.bind_some, Option.map_map]
      rfl
  simp only [hname]
  exact (filter_generate_sublist (·.state) m.mixedProperties).filterMap _

theorem ownAccessors_sublist
    (ps : List ModelProperty) :
    (ps.flatMap fun p => if p.state == .generate then [MemberName.accessor l.settings p] else []).Sublist
      (ps.map (MemberName.accessor l.settings)) := by
  induction ps with
  | nil => exact .slnil
  | cons p ps ih =>
    rw [List.flatMap_cons, List.map_cons]
    split
    · exact ih.cons_cons _
    · exact ih.cons _

/-- The members that are written for the properties of a class are some of those checked. -/
theorem subperm_checkedMembers :
    ((propertyMembers l.settings.propertyStyle models m).map (l.checkedName m)).Subperm
      (m.checkedMembers l.settings models) := by
  unfold propertyMembers Model.checkedMembers
  cases l.settings.propertyStyle.hasMembers with
  | false => simp
  | true =>
    simp only [if_true]
    rw [List.map_append, List.map_append, List.map_flatMap, List.append_assoc]
    refine mixedAccessors_sublist.subperm.append ?_
    -- Each accessor is followed by its static getter, but all accessors are checked first.
    have hperm := List.flatMap_append_perm m.ownProperties
      (fun p => if p.state == .generate then [MemberName.accessor l.settings p] else [])
      (fun p =>
        if m.isMixin then [MemberName.getter l.settings (.one m.interfaceName) p] else [])
    have hwritten : (m.ownProperties.flatMap fun p =>
        ((if p.state == .generate then [ClassMember.ownAccessor p] else []) ++
          if m.isMixin then [ClassMember.staticGetter p] else []).map (l.checkedName m)) =
        m.ownProperties.flatMap fun p =>
          (if p.state == .generate then [MemberName.accessor l.settings p] else []) ++
            if m.isMixin then [MemberName.getter l.settings (.one m.interfaceName) p] else [] := by
      refine congrArg (m.ownProperties.flatMap ·) (funext fun p => ?_)
      cases p.state == .generate <;> cases m.isMixin <;> rfl
    rw [hwritten]
    refine hperm.symm.subperm.trans ((ownAccessors_sublist _).subperm.append ?_)
    cases m.isMixin with
    | false => simp
    | true =>
      simp only [if_true, ← List.map_eq_flatMap]
      exact .refl _

theorem parameters_accessor
    {settings : Settings} {q : Parameters}
    (h : (MemberName.accessor settings p).parameters = some q) :
    q = .none := by
  unfold MemberName.accessor at h
  split at h
  · cases h
  · exact (Option.some.inj h).symm

/-- The parameters of the methods of a class. -/
theorem parameters_class
    {n : MemberName} {q : Parameters}
    (h : n ∈ MemberName.helpers ++ m.checkedMembers l.settings models)
    (hq : n.parameters = some q) :
    q = .none ∨ q = .selector ∨ q = .one m.interfaceName := by
  rcases List.mem_append.1 h with h | h
  · have hhelpers : ∀ n ∈ MemberName.helpers, n.parameters = none ∨ n.parameters = some .none ∨
        n.parameters = some .selector := by decide
    rcases hhelpers n h with hn | hn | hn <;> rw [hn] at hq <;> cases hq <;> simp
  · unfold Model.checkedMembers at h
    split at h
    · rcases List.mem_append.1 h with h | h
      · obtain ⟨p, -, rfl⟩ := List.mem_map.1 h
        exact .inl (parameters_accessor hq)
      · split at h
        · obtain ⟨p, -, rfl⟩ := List.mem_map.1 h
          exact .inr (.inr (Option.some.inj hq).symm)
        · cases h
    · cases h

/-- Methods of a class with parameters of the same types have the same parameters. -/
theorem parameters_class_inj
    {p q : Parameters}
    (hp : p = .none ∨ p = .selector ∨ p = .one m.interfaceName)
    (hq : q = .none ∨ q = .selector ∨ q = .one m.interfaceName)
    (h : p.types m.name = q.types m.name) :
    p = q := by
  have hselector : "Expression<Func<" ++ m.name ++ ", TValue>>" ≠ m.interfaceName := by
    intro heq
    have := congrArg (fun s : String => s.toList.head?) heq
    simp [NamedType.interfaceName] at this
  rcases hp with rfl | rfl | rfl <;> rcases hq with rfl | rfl | rfl <;>
    simp_all [Parameters.types, eq_comm]

/-! ### Members of written types -/

theorem members_writtenInterface :
    (l.writtenInterface m).members =
      if l.settings.propertyStyle.hasMembers then m.ownProperties.map l.writtenInterfaceProperty
      else [] := by
  unfold WrittenType.members writtenInterface
  cases l.settings.propertyStyle.hasMembers with
  | false => rfl
  | true => simp [members_blocks, List.flatMap_map, ← List.map_eq_flatMap]

theorem members_writtenExtensions :
    (l.writtenExtensions m).members = (extensionProperties m).map fun p =>
      l.writtenGetter (summary "\t\t" p.type.name p.type.description) true m.extended p := by
  unfold WrittenType.members writtenExtensions
  simp [members_blocks, List.flatMap_map, ← List.map_eq_flatMap]

theorem members_writtenClass :
    (l.writtenClass models m).members =
      writtenHelpers m ++
        (if m.omitsConstructor then [] else [l.writtenConstructor m]) ++
        (propertyMembers l.settings.propertyStyle models m).map (l.writtenClassMember m) := by
  unfold WrittenType.members writtenClass
  cases propertyMembers l.settings.propertyStyle models m <;> cases m.omitsConstructor <;>
    simp [List.flatMap_map, List.flatMap_assoc, ← List.map_eq_flatMap]

/-! ### Members that fit together -/

/-- Written members do not clash if the names that are checked for them do not. -/
theorem pairwise_of_names
    {className : String} {ws : List WrittenMember} {ns : List MemberName}
    (hsignature : ws.map (·.signature) = ns.map (·.signature className))
    (hinj : ∀ a ∈ ns, ∀ b ∈ ns, ∀ p q, a.parameters = some p → b.parameters = some q →
      p.types className = q.types className → p = q)
    (h : ns.Pairwise fun a b => a.clashes b = false) :
    ws.Pairwise fun a b => ¬ a.signature.Clashes b.signature := by
  have hns : (ns.map (·.signature className)).Pairwise fun a b => ¬ a.Clashes b := by
    rw [List.pairwise_map]
    refine h.imp_of_mem fun {a b} ha hb hclash hsame => ?_
    rw [MemberName.clashes_of_signature (hinj a ha b hb) hsame] at hclash
    cases hclash
  rw [← hsignature, List.pairwise_map] at hns
  exact hns

/-- Written members are named as the names that are checked for them. -/
theorem names_of_names
    {className name : String} {ws : List WrittenMember} {ns : List MemberName}
    (hsignature : ws.map (·.signature) = ns.map (·.signature className))
    (h : ∀ n ∈ ns, n.name ≠ name) :
    ∀ w ∈ ws, w.name ≠ name := by
  intro w hw
  have hmem : w.signature ∈ ns.map (·.signature className) := by
    rw [← hsignature]
    exact List.mem_map_of_mem hw
  obtain ⟨n, hn, heq⟩ := List.mem_map.1 hmem
  rw [show w.name = n.name from (congrArg Signature.name heq).symm]
  exact h n hn

theorem fits_writtenInterface
    (h : m.checkMembers l.settings models = .ok ()) (hmixin : m.isMixin = true) :
    (l.writtenInterface m).Fits := by
  by_cases hstyle : l.settings.propertyStyle.hasMembers = true
  · have hproperty : ∀ n ∈ m.interfaceMembers l.settings, n.property ≠ none := fun n hn => by
      obtain ⟨p, -, rfl⟩ := List.mem_map.1 hn
      exact Model.property_accessor p
    obtain ⟨hnames, -, hpairs⟩ := (MemberName.check_eq_ok_iff hproperty).1
      ((Model.checkMembers_eq_ok_iff.1 h).2.2.1 hmixin hstyle)
    have hsignature : (l.writtenInterface m).members.map (·.signature) =
        (m.interfaceMembers l.settings).map (·.signature m.name) := by
      rw [members_writtenInterface, if_pos hstyle, Model.interfaceMembers, List.map_map,
        List.map_map]
      exact congrArg (m.ownProperties.map ·) (funext fun p => signature_interfaceProperty)
    refine ⟨fun w hw _ => names_of_names hsignature hnames w hw,
      pairwise_of_names hsignature ?_ hpairs⟩
    intro a ha b hb p q hp hq _
    obtain ⟨x, -, rfl⟩ := List.mem_map.1 ha
    obtain ⟨y, -, rfl⟩ := List.mem_map.1 hb
    rw [parameters_accessor hp, parameters_accessor hq]
  · have hnone : (l.writtenInterface m).members = [] := by
      rw [members_writtenInterface, if_neg hstyle]
    exact ⟨by simp [hnone], by simp [hnone]⟩

theorem fits_writtenExtensions
    (h : m.checkMembers l.settings models = .ok ())
    (hstyle : l.settings.propertyStyle.hasExtensionMethods = true) :
    (l.writtenExtensions m).Fits := by
  have hproperty : ∀ n ∈ m.extensionMembers l.settings, n.property ≠ none := fun n hn => by
    obtain ⟨p, -, rfl⟩ := List.mem_map.1 hn
    exact Model.property_getter _ p
  obtain ⟨hnames, -, hpairs⟩ := (MemberName.check_eq_ok_iff hproperty).1
    ((Model.checkMembers_eq_ok_iff.1 h).2.2.2 hstyle)
  have hsignature : (l.writtenExtensions m).members.map (·.signature) =
      (m.extensionMembers l.settings).map (·.signature m.name) := by
    rw [members_writtenExtensions, Model.extensionMembers, List.map_map, List.map_map]
    rfl
  refine ⟨fun w hw _ => names_of_names hsignature hnames w hw,
    pairwise_of_names hsignature ?_ hpairs⟩
  intro a ha b hb p q hp hq _
  obtain ⟨x, -, rfl⟩ := List.mem_map.1 ha
  obtain ⟨y, -, rfl⟩ := List.mem_map.1 hb
  rw [← Option.some.inj hp, ← Option.some.inj hq]

/-- The members of a class besides its constructor. -/
def classMembers (l : Layout) (models : List Model) (m : Model) : List WrittenMember :=
  writtenHelpers m ++
    (propertyMembers l.settings.propertyStyle models m).map (l.writtenClassMember m)

/-- The names that the members of a class have as they are checked. -/
def classNames (l : Layout) (models : List Model) (m : Model) : List MemberName :=
  MemberName.helpers ++ (propertyMembers l.settings.propertyStyle models m).map (l.checkedName m)

theorem signature_classMembers :
    (l.classMembers models m).map (·.signature) =
      (l.classNames models m).map (·.signature m.name) := by
  unfold classMembers classNames
  rw [List.map_append, List.map_append, signature_helpers, List.map_map, List.map_map]
  exact congrArg (_ ++ ·) (List.map_congr_left fun x _ => signature_classMember x)

theorem classNames_subperm :
    (l.classNames models m).Subperm
      (MemberName.helpers ++ m.checkedMembers l.settings models) :=
  (List.subperm_append_left _).2 subperm_checkedMembers

theorem pairwise_classMembers
    (h : (MemberName.helpers ++ m.checkedMembers l.settings models).Pairwise
      fun a b => a.clashes b = false) :
    (l.classMembers models m).Pairwise fun a b => ¬ a.signature.Clashes b.signature := by
  refine pairwise_of_names signature_classMembers ?_ ?_
  · intro a ha b hb p q hp hq
    exact parameters_class_inj (parameters_class (classNames_subperm.subset ha) hp)
      (parameters_class (classNames_subperm.subset hb) hq)
  · obtain ⟨ns, hperm, hsub⟩ := (classNames_subperm : (l.classNames models m).Subperm _)
    exact hperm.pairwise (h.sublist hsub) fun {a b} hab => by rwa [MemberName.clashes_comm]

theorem writtenClass_members_perm :
    ((if m.omitsConstructor then [] else [l.writtenConstructor m]) ++
      l.classMembers models m).Perm (l.writtenClass models m).members := by
  rw [members_writtenClass, classMembers, ← List.append_assoc]
  exact List.perm_append_comm.append_right _

theorem isConstructor_helpers :
    ∀ w ∈ writtenHelpers m, w.isConstructor = false := by
  simp only [writtenHelpers, List.forall_mem_cons]
  exact ⟨rfl, rfl, rfl, rfl, nofun⟩

/-- The members of a class fit exactly if it is not named after one that every class has. -/
theorem fits_writtenClass_iff
    (h : m.checkMembers l.settings models = .ok ()) :
    (l.writtenClass models m).Fits ↔ m.name ∉ MemberName.helpers.map (·.name) := by
  have hchecked := (Model.checkMembers_eq_ok_iff.1 h).2.1
  rw [Model.classMembers_eq] at hchecked
  obtain ⟨hnames, hpairs⟩ :=
    MemberName.check_helpers_eq_ok hchecked fun n hn => Model.property_checkedMembers hn
  have hperm := @writtenClass_members_perm l models m
  constructor
  · intro hfits hname
    have hwritten : MemberName.helpers.map (·.name) = (writtenHelpers m).map (·.name) := rfl
    rw [hwritten] at hname
    obtain ⟨w, hw, heq⟩ := List.mem_map.1 hname
    refine hfits.names w (hperm.subset ?_) (isConstructor_helpers w hw) heq
    simp [classMembers, hw]
  · intro hname
    have hfree : ∀ n ∈ l.classNames models m, n.name ≠ m.name := by
      intro n hn
      rcases List.mem_append.1 (classNames_subperm.subset hn) with hn | hn
      · exact fun heq => hname (heq ▸ List.mem_map_of_mem hn)
      · exact hnames n hn
    have hothers := names_of_names signature_classMembers hfree
    refine ⟨fun w hw hconstructor => ?_, hperm.pairwise ?_ fun hab hba => hab hba.symm⟩
    · rcases List.mem_append.1 (hperm.symm.subset hw) with hw | hw
      · split at hw
        · cases hw
        · rw [List.mem_singleton.1 hw] at hconstructor
          cases hconstructor
      · exact hothers w hw
    · refine List.pairwise_append.2 ⟨?_, pairwise_classMembers hpairs, fun c hc w hw hclash => ?_⟩
      · split <;> simp
      · split at hc
        · cases hc
        · rw [List.mem_singleton.1 hc] at hclash
          exact hothers w hw hclash.1.symm

end Layout

/-! ## Members of all types -/

theorem interfaceName_notMem_helpers
    (m : Model) :
    m.interfaceName ∉ MemberName.helpers.map (·.name) := by
  have hhead : ∀ name ∈ MemberName.helpers.map (·.name), name.toList.head? ≠ some 'I' := by decide
  exact fun h => hhead _ h (by simp [NamedType.interfaceName])

theorem extensionsName_notMem_helpers
    (m : Model) :
    m.extensionsName ∉ MemberName.helpers.map (·.name) := by
  have hend : ∀ name ∈ MemberName.helpers.map (·.name),
      ¬ "Extensions".toList <:+ name.toList := by decide
  exact fun h => hend _ h (by simp [NamedType.extensionsName])

variable {settings : Settings} {strategies : Strategies} {schema : List ContentType}
  {options : CodeOptions} {m : CodeModel}

/--
The types that are generated for a model are laid out from data, and the members of each of
them fit together exactly if it is not named after a member that every class has.
-/
theorem fits_iff
    (h : CodeModel.build settings strategies schema options = .ok m) {l : Layout}
    (hl : l.settings = settings) :
    ∀ t ∈ m.models, l.types m.models t = blocks ((l.writtenTypes m.models t).map (·.lines l)) ∧
      ∀ w ∈ l.writtenTypes m.models t, w.Fits ↔ w.name ∉ MemberName.helpers.map (·.name) := by
  obtain ⟨linked, named, mapped, propertied, hbuilt⟩ := CodeModel.exists_built h
  subst hl
  intro t ht
  have hcheck : t.checkMembers l.settings m.models = .ok () := Outcome.forM_eq_ok_iff.1 hbuilt.members t ht
  refine ⟨Layout.types_eq l m.models t, fun w hw => ?_⟩
  unfold Layout.writtenTypes at hw
  rw [List.mem_append, List.mem_append, List.mem_singleton] at hw
  rcases hw with (hw | rfl) | hw
  · split at hw
    · rename_i hmixin
      obtain rfl := List.mem_singleton.1 hw
      exact iff_of_true (Layout.fits_writtenInterface hcheck hmixin) (interfaceName_notMem_helpers t)
    · cases hw
  · exact Layout.fits_writtenClass_iff hcheck
  · split at hw
    · rename_i hstyle
      obtain rfl := List.mem_singleton.1 hw
      exact iff_of_true (Layout.fits_writtenExtensions hcheck hstyle) (extensionsName_notMem_helpers t)
    · cases hw

/-- What is generated for pages and news fits together. -/
theorem fits_iff_news :
    ∃ (m : CodeModel) (l : Layout),
      CodeModel.build .standard (.standard .standard) CodeModel.newsSchema .empty = .ok m ∧
      l.settings = .standard ∧ m.models ≠ [] ∧
      ∀ t ∈ m.models,
        l.types m.models t = blocks ((l.writtenTypes m.models t).map (·.lines l)) ∧
          ∀ w ∈ l.writtenTypes m.models t, w.Fits ↔ w.name ∉ MemberName.helpers.map (·.name) := by
  obtain ⟨m, hbuild, hshape⟩ := CodeModel.exists_build_newsSchema
  have hne : m.models ≠ [] := fun hnil => by
    rw [hnil] at hshape
    cases hshape
  exact ⟨m, ⟨.standard, true, []⟩, hbuild, rfl, hne, fits_iff hbuild rfl⟩

/-- A class that is named after a constant of all classes has a member with its own name. -/
theorem not_fits_modelTypeAlias :
    ∃ m, CodeModel.build .standard (.standard .standard)
        [CodeModel.typeWith 1 "modelTypeAlias" none []] .empty = .ok m ∧
      ∀ l : Layout, l.settings = .standard →
        ∀ t ∈ m.models, ¬ (l.writtenClass m.models t).Fits := by
  have hbuild : ∃ m, CodeModel.build .standard (.standard .standard)
      [CodeModel.typeWith 1 "modelTypeAlias" none []] .empty = .ok m ∧
        m.models.map (fun t : Model => t.name) = ["ModelTypeAlias"] :=
    Outcome.exists_of_toOption_map (by decide +kernel)
  obtain ⟨m, hbuild, hnames⟩ := hbuild
  obtain ⟨linked, named, mapped, propertied, hbuilt⟩ := CodeModel.exists_built hbuild
  refine ⟨m, hbuild, fun l hl t ht => ?_⟩
  have hcheck : t.checkMembers l.settings m.models = .ok () := by
    rw [hl]
    exact Outcome.forM_eq_ok_iff.1 hbuilt.members t ht
  have hname : t.name = "ModelTypeAlias" := by
    have hmem := List.mem_map_of_mem (f := fun t : Model => t.name) ht
    rw [hnames] at hmem
    exact List.mem_singleton.1 hmem
  rw [Layout.fits_writtenClass_iff hcheck, hname]
  decide

end Generated
end ContentModels

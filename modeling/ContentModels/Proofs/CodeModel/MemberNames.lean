import ContentModels.Proofs.Outcome
import ContentModels.CodeModel.Members

/-!
# Names of members that are checked

The members of a model are checked one after the other, each against the members before it.
Those that pass have names of their own: none is named after the type around it, and no two
of them clash.
-/

namespace ContentModels

open Outcome

namespace MemberName

variable {typeAlias enclosing : String} {before ms : List MemberName}

theorem clashes_comm
    (a b : MemberName) :
    a.clashes b = b.clashes a := by
  have hname : (a.name == b.name) = (b.name == a.name) := Bool.beq_comm
  have hparameters : (a.parameters == b.parameters) = (b.parameters == a.parameters) :=
    Bool.beq_comm
  unfold clashes
  rw [hname, hparameters, Bool.or_comm a.parameters.isNone]

/-- The member of a property passes the check if its name is free. -/
theorem check_cons_eq_ok_iff
    {m : MemberName} (hm : m.property ≠ none) :
    check typeAlias enclosing before (m :: ms) = .ok () ↔
      m.name ≠ enclosing ∧ (∀ b ∈ before, b.clashes m = false) ∧
        check typeAlias enclosing (before ++ [m]) ms = .ok () := by
  obtain ⟨property, hm⟩ := Option.ne_none_iff_exists'.1 hm
  have hfree : (∀ b ∈ before, b.clashes m = false) ↔ before.find? m.clashes = none := by
    simp [clashes_comm m]
  rw [hfree, check]
  simp only [hm]
  by_cases hname : (m.name == enclosing) = true
  · rw [if_pos hname]
    exact iff_of_false nofun fun h => h.1 (by simpa using hname)
  · rw [if_neg hname, and_iff_right (by simpa using hname)]
    cases before.find? m.clashes with
    | none => exact (and_iff_right rfl).symm
    | some other =>
      refine iff_of_false ?_ fun h => nomatch h.1
      dsimp only
      cases other.property <;> exact nofun

/-- Members of properties pass the check if they have names of their own. -/
theorem check_eq_ok_iff
    (hproperty : ∀ m ∈ ms, m.property ≠ none) :
    check typeAlias enclosing before ms = .ok () ↔
      (∀ m ∈ ms, m.name ≠ enclosing) ∧ (∀ b ∈ before, ∀ m ∈ ms, b.clashes m = false) ∧
        ms.Pairwise fun a b => a.clashes b = false := by
  induction ms generalizing before with
  | nil => simp [check]
  | cons m ms ih =>
    obtain ⟨hm, hms⟩ := List.forall_mem_cons.1 hproperty
    rw [check_cons_eq_ok_iff hm, ih hms, List.forall_mem_cons, List.pairwise_cons]
    simp only [List.forall_mem_append, List.forall_mem_singleton, List.forall_mem_cons, forall_and]
    grind

/-- The order of members of properties does not matter. -/
theorem check_perm
    {ms' : List MemberName} (h : ms.Perm ms') (hproperty : ∀ m ∈ ms, m.property ≠ none) :
    check typeAlias enclosing before ms = .ok () ↔ check typeAlias enclosing before ms' = .ok () := by
  rw [check_eq_ok_iff hproperty, check_eq_ok_iff fun m hm => hproperty m (h.mem_iff.2 hm),
    h.pairwise_iff fun hab => by rwa [clashes_comm]]
  simp only [h.mem_iff]

/-- The members that every class has are passed over. -/
theorem check_helpers :
    check typeAlias enclosing [] (helpers ++ ms) = check typeAlias enclosing helpers ms :=
  rfl

theorem check_helpers_perm
    {ms' : List MemberName} (h : ms.Perm ms') (hproperty : ∀ m ∈ ms, m.property ≠ none) :
    check typeAlias enclosing [] (helpers ++ ms) = .ok () ↔
      check typeAlias enclosing [] (helpers ++ ms') = .ok () := by
  rw [check_helpers, check_helpers]
  exact check_perm h hproperty

/-- Names that are checked behind the members that every class has. -/
theorem check_helpers_eq_ok
    (h : check typeAlias enclosing [] (helpers ++ ms) = .ok ())
    (hproperty : ∀ m ∈ ms, m.property ≠ none) :
    (∀ m ∈ ms, m.name ≠ enclosing) ∧ (helpers ++ ms).Pairwise fun a b => a.clashes b = false := by
  rw [check_helpers] at h
  obtain ⟨hnames, hbefore, hpairs⟩ := (check_eq_ok_iff hproperty).1 h
  refine ⟨hnames, List.pairwise_append.2 ⟨by decide, hpairs, hbefore⟩⟩

end MemberName

namespace Model

variable {settings : Settings} {models : List Model} {m : Model}

/-- The members that a class has for its properties, as they are checked. -/
def checkedMembers (settings : Settings) (models : List Model) (m : Model) : List MemberName :=
  if settings.propertyStyle.hasMembers then
    (m.mixedIn models ++ m.ownProperties).map (MemberName.accessor settings) ++
      if m.isMixin then
        m.ownProperties.map (MemberName.getter settings (.one m.interfaceName))
      else []
  else []

theorem classMembers_eq :
    m.classMembers settings models = MemberName.helpers ++ m.checkedMembers settings models := by
  unfold classMembers checkedMembers
  cases settings.propertyStyle.hasMembers <;> simp

theorem property_getter
    (parameters : Parameters) (p : ModelProperty) :
    (MemberName.getter settings parameters p).property ≠ none :=
  nofun

theorem property_accessor
    (p : ModelProperty) :
    (MemberName.accessor settings p).property ≠ none := by
  unfold MemberName.accessor
  split <;> nofun

theorem property_checkedMembers
    {n : MemberName} (hn : n ∈ m.checkedMembers settings models) :
    n.property ≠ none := by
  unfold checkedMembers at hn
  split at hn
  · rcases List.mem_append.1 hn with hn | hn
    · obtain ⟨p, -, rfl⟩ := List.mem_map.1 hn
      exact property_accessor p
    · split at hn
      · obtain ⟨p, -, rfl⟩ := List.mem_map.1 hn
        exact property_getter _ p
      · cases hn
  · cases hn

/-- Properties pass the check if they have different names. -/
theorem checkPropertyNames_eq_ok_iff
    {typeAlias : String} {before ps : List ModelProperty} :
    checkPropertyNames typeAlias before ps = .ok () ↔
      (∀ b ∈ before, ∀ p ∈ ps, b.name ≠ p.name) ∧ (ps.map (·.name)).Nodup := by
  induction ps generalizing before with
  | nil => simp [checkPropertyNames]
  | cons p ps ih =>
    have hfree : (∀ b ∈ before, b.name ≠ p.name) ↔
        before.find? (fun b => b.name == p.name) = none := by
      simp [List.find?_eq_none]
    have hstep : checkPropertyNames typeAlias before (p :: ps) = .ok () ↔
        (∀ b ∈ before, b.name ≠ p.name) ∧
          checkPropertyNames typeAlias (before ++ [p]) ps = .ok () := by
      rw [hfree, checkPropertyNames]
      cases before.find? fun b => b.name == p.name with
      | none => exact (and_iff_right rfl).symm
      | some other => exact iff_of_false nofun nofun
    rw [hstep, ih, List.map_cons, List.nodup_cons, List.mem_map]
    simp only [List.forall_mem_append, List.forall_mem_singleton, List.forall_mem_cons, forall_and]
    grind

/-- The checks that the names of all members of a model pass. -/
theorem checkMembers_eq_ok_iff :
    m.checkMembers settings models = .ok () ↔
      ((m.ownProperties ++ m.mixedIn models).map (·.name)).Nodup ∧
      MemberName.check m.type.aliasName m.name [] (m.classMembers settings models) = .ok () ∧
      (m.isMixin = true → settings.propertyStyle.hasMembers = true →
        MemberName.check m.type.aliasName m.interfaceName [] (m.interfaceMembers settings) =
          .ok ()) ∧
      (settings.propertyStyle.hasExtensionMethods = true →
        MemberName.check m.type.aliasName m.extensionsName [] (m.extensionMembers settings) =
          .ok ()) := by
  have hnames : ((m.ownProperties ++ m.mixedIn models).map (·.name)).Nodup ↔
      checkPropertyNames m.type.aliasName [] (m.ownProperties ++ m.mixedIn models) = .ok () := by
    rw [checkPropertyNames_eq_ok_iff]
    exact (and_iff_right nofun).symm
  rw [hnames, checkMembers, then_eq_ok, then_eq_ok, ← and_imp, ← Bool.and_eq_true]
  refine and_congr_right fun _ => and_congr_right fun _ => ?_
  cases m.isMixin && settings.propertyStyle.hasMembers <;>
    cases settings.propertyStyle.hasExtensionMethods <;> simp [then_eq_ok, pure, Except.pure]

end Model

end ContentModels

import ContentModels.Facts
import ContentModels.Proofs.Outcome

/-!
# Facts about declared types

Base classes and constructors are declared by the parts of types in the code of users: by
entries of base lists that are taken for base classes, and by members that are constructors
of models.  Markers declare neither.
-/

namespace ContentModels

open CSharp Outcome

/-- Whether a declaration is about what a type in code is derived from or constructed by. -/
def Declaration.isStructural : Declaration → Bool
  | .baseClass _ _ | .interface _ _ | .constructor _ => true
  | _ => false

namespace FactReader

variable {r : FactReader} {c : Compilation} {d : Declaration}

theorem not_isStructural_of_assemblyFact
    {scope : Scope} {file : String} {a : AttributeUse} {m : Marker}
    (h : .ok d ∈ assemblyFact c scope file a m) :
    d.isStructural = false := by
  cases m <;> simp only [assemblyFact] at h <;> (try split at h) <;>
    simp only [List.mem_cons, List.not_mem_nil, or_false, Except.ok.injEq, reduceCtorEq] at h <;>
      subst h <;> rfl

theorem not_isStructural_of_typeFact
    {className file : String} {a : AttributeUse} {m : Marker}
    (h : .ok d ∈ typeFact className file a m) :
    d.isStructural = false := by
  cases m <;> simp only [typeFact] at h <;> (try split at h) <;>
    simp only [List.mem_cons, List.not_mem_nil, or_false, Except.ok.injEq, reduceCtorEq] at h <;>
      subst h <;> rfl

theorem not_isStructural_of_memberFact
    {t : TypeDeclaration} {file : String} {m : Member} {a : AttributeUse}
    (h : .ok d ∈ memberFact c t file m a) :
    d.isStructural = false := by
  unfold memberFact at h
  split at h
  · split at h
    · split at h <;>
        simp only [List.mem_cons, List.not_mem_nil, or_false, Except.ok.injEq, reduceCtorEq] at h <;>
          subst h <;> rfl
    · split at h <;>
        simp only [List.mem_cons, List.not_mem_nil, or_false, Except.ok.injEq, reduceCtorEq] at h <;>
          subst h <;> rfl
    · simp [Marker.fail] at h
  · cases h

/-- What a type declares about its base classes, interfaces and constructors. -/
theorem mem_typeFacts_iff
    {file : String} {t : TypeDeclaration} (hd : d.isStructural = true) :
    .ok d ∈ r.typeFacts c file t ↔
      (∃ x ∈ t.baseList.zipIdx, .ok d ∈ r.baseFact c t x.2 x.1) ∨
        (∃ m ∈ t.members, r.isModelConstructor m = true) ∧ d = .constructor t.name := by
  unfold typeFacts
  rw [List.mem_append, List.mem_append, List.mem_flatMap, List.mem_flatMap, List.mem_flatMap]
  constructor
  · rintro ((⟨a, -, h⟩ | h) | ⟨m, hm, h⟩)
    · split at h
      · rw [not_isStructural_of_typeFact h] at hd
        cases hd
      · cases h
    · exact .inl h
    · unfold memberFacts at h
      rcases List.mem_append.1 h with h | h
      · split at h
        · rename_i hconstructor
          exact .inr ⟨⟨m, hm, hconstructor⟩, by simpa using h⟩
        · cases h
      · obtain ⟨a, -, h⟩ := List.mem_flatMap.1 h
        rw [not_isStructural_of_memberFact h] at hd
        cases hd
  · rintro (h | ⟨⟨m, hm, hconstructor⟩, rfl⟩)
    · exact .inl (.inr h)
    · refine .inr ⟨m, hm, ?_⟩
      unfold memberFacts
      rw [if_pos hconstructor]
      exact List.mem_append_left _ List.mem_cons_self

/-- The types in the code of users that can be parts of models. -/
def modelParts (c : Compilation) : List TypeDeclaration :=
  (c.units.filter fun u => !u.isGenerated).flatMap fun u => u.types.filter isModelDeclaration

/-- What files declare about base classes, interfaces and constructors. -/
theorem mem_findings_iff
    (hd : d.isStructural = true) :
    .ok d ∈ r.findings c ↔
      ∃ t ∈ modelParts c, (∃ x ∈ t.baseList.zipIdx, .ok d ∈ r.baseFact c t x.2 x.1) ∨
        (∃ m ∈ t.members, r.isModelConstructor m = true) ∧ d = .constructor t.name := by
  unfold findings modelParts
  simp only [List.mem_flatMap, List.mem_filter]
  constructor
  · rintro ⟨u, hu, h⟩
    unfold unitFacts at h
    split at h
    · cases h
    · rename_i hgenerated
      rcases List.mem_append.1 h with h | h
      · obtain ⟨a, -, h⟩ := List.mem_flatMap.1 h
        split at h
        · rw [not_isStructural_of_assemblyFact h] at hd
          cases hd
        · cases h
      · obtain ⟨t, ht, h⟩ := List.mem_flatMap.1 h
        exact ⟨t, ⟨u, ⟨hu, by simpa using hgenerated⟩, List.mem_filter.1 ht⟩,
          (mem_typeFacts_iff hd).1 h⟩
  · rintro ⟨t, ⟨u, ⟨hu, hgenerated⟩, ht⟩, h⟩
    refine ⟨u, hu, ?_⟩
    unfold unitFacts
    rw [if_neg (by simpa using hgenerated)]
    exact List.mem_append_right _
      (List.mem_flatMap.2 ⟨t, List.mem_filter.2 ht, (mem_typeFacts_iff hd).2 h⟩)

theorem mem_of_mapM_id
    {fs : List Finding} {ds : List Declaration}
    (h : fs.mapM id = .ok ds) :
    d ∈ ds ↔ .ok d ∈ fs := by
  induction fs generalizing ds with
  | nil =>
    cases h
    simp
  | cons f fs ih =>
    obtain ⟨b, cs, hb, hcs, rfl⟩ := mapM_cons_eq_ok.1 h
    rw [List.mem_cons, List.mem_cons, ih hcs, show f = .ok b from hb]
    simp

end FactReader
end ContentModels

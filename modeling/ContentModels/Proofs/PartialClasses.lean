import ContentModels.Proofs.CodeModel.Build
import ContentModels.Proofs.Facts
import ContentModels.Proofs.Options
import ContentModels.Proofs.Regeneration

/-!
# Parts of partial classes
-/

namespace ContentModels

open CSharp Outcome

theorem Settings.not_isStructural
    {s : Settings} {d : Declaration}
    (h : d ∈ s.declarations) :
    d.isStructural = false := by
  unfold declarations at h
  simp only [List.mem_append, List.mem_map, List.mem_flatMap] at h
  obtain ((⟨_, -, rfl⟩ | ⟨_, -, _, -, rfl⟩) | ⟨_, -, rfl⟩) | ⟨_, -, _, -, rfl⟩ := h <;> rfl

namespace Generator

variable {g : Generator} {schema : List ContentType} {sources : SourceFiles} {options : CodeOptions}

/-- What a pass collects is what settings, the code of users and the host declare. -/
theorem collect_eq_ok
    (h : g.collect sources = .ok options) :
    ∃ c ds, g.reader.compile sources = .ok c ∧ options = .ofDeclarations ds ∧
      ∀ d, d ∈ ds ↔
        (d ∈ g.settings.declarations ∨ .ok d ∈ g.reader.findings c) ∨ d ∈ g.declarations := by
  obtain ⟨facts, hread, h⟩ := bind_eq_ok.1 h
  obtain ⟨c, hc, hfacts⟩ := bind_eq_ok.1 hread
  cases h
  refine ⟨c, _, hc, rfl, fun d => ?_⟩
  rw [List.mem_append, List.mem_append, FactReader.mem_of_mapM_id hfacts]

/-- What a pass collects about base classes, interfaces and constructors is what code declares. -/
theorem collect_structural
    (h : g.collect sources = .ok options) (hhost : ∀ d ∈ g.declarations, d.isStructural = false) :
    ∃ c ds, g.reader.compile sources = .ok c ∧ options = .ofDeclarations ds ∧
      ∀ d, d.isStructural = true → (d ∈ ds ↔ .ok d ∈ g.reader.findings c) := by
  obtain ⟨c, ds, hc, hoptions, hmem⟩ := collect_eq_ok h
  refine ⟨c, ds, hc, hoptions, fun d hd => (hmem d).trans ⟨?_, fun h => .inl (.inr h)⟩⟩
  rintro ((h | h) | h)
  · rw [Settings.not_isStructural h] at hd
    cases hd
  · exact h
  · rw [hhost d h] at hd
    cases hd

end Generator

namespace FactReader

variable {r : FactReader} {c : Compilation} {ds : List Declaration} {name : String}

/-- Parts of models whose names are the same up to the case of letters. -/
def namedParts (c : Compilation) (name : String) : List TypeDeclaration :=
  (modelParts c).filter fun t => Text.lowercase t.name == Text.lowercase name

theorem mem_namedParts
    {t : TypeDeclaration} :
    t ∈ namedParts c name ↔ t ∈ modelParts c ∧ Text.lowercase t.name = Text.lowercase name := by
  simp [namedParts]

/-- A constructor is taken for declared if some part has one. -/
theorem hasConstructor_iff
    (h : ∀ d, d.isStructural = true → (d ∈ ds ↔ .ok d ∈ r.findings c)) :
    (CodeOptions.ofDeclarations ds).contentTypes.hasConstructor name = true ↔
      ∃ t ∈ namedParts c name, ∃ m ∈ t.members, r.isModelConstructor m = true := by
  rw [CodeOptions.hasConstructor_ofDeclarations]
  constructor
  · rintro ⟨_, hd, n, rfl, hn⟩
    obtain ⟨t, ht, ⟨x, -, hx⟩ | ⟨hm, heq⟩⟩ := (mem_findings_iff rfl).1 ((h _ rfl).1 hd)
    · rw [baseFact_eq_roleFindings] at hx
      cases hrole : r.baseRole c t x.2 x.1 <;> rw [hrole] at hx <;> simp [roleFindings] at hx
    · cases heq
      exact ⟨t, mem_namedParts.2 ⟨ht, hn⟩, hm⟩
  · rintro ⟨t, ht, hm⟩
    obtain ⟨ht, hn⟩ := mem_namedParts.1 ht
    exact ⟨.constructor t.name, (h _ rfl).2 ((mem_findings_iff rfl).2 ⟨t, ht, .inr ⟨hm, rfl⟩⟩),
      t.name, rfl, hn⟩

/-- A base class is taken for declared if some part has an entry that is taken for one. -/
theorem baseClass?_iff
    (h : ∀ d, d.isStructural = true → (d ∈ ds ↔ .ok d ∈ r.findings c)) :
    ((CodeOptions.ofDeclarations ds).contentTypes.baseClass? name).isSome = true ↔
      ∃ t ∈ namedParts c name, ∃ x ∈ t.baseList.zipIdx, r.baseRole c t x.2 x.1 = .declaredBase := by
  rw [CodeOptions.baseClass?_ofDeclarations]
  constructor
  · rintro ⟨_, hd, n, b, rfl, hn⟩
    obtain ⟨t, ht, ⟨x, hx, hfact⟩ | ⟨-, heq⟩⟩ := (mem_findings_iff rfl).1 ((h _ rfl).1 hd)
    · rw [baseFact_eq_roleFindings] at hfact
      cases hrole : r.baseRole c t x.2 x.1 <;> rw [hrole] at hfact <;>
        simp [roleFindings] at hfact
      obtain ⟨rfl, -⟩ := hfact
      exact ⟨t, mem_namedParts.2 ⟨ht, hn⟩, x, hx, hrole⟩
    · cases heq
  · rintro ⟨t, ht, x, hx, hrole⟩
    obtain ⟨ht, hn⟩ := mem_namedParts.1 ht
    refine ⟨.baseClass t.name x.1.displayName,
      (h _ rfl).2 ((mem_findings_iff rfl).2 ⟨t, ht, .inl ⟨x, hx, ?_⟩⟩), _, _, rfl, hn⟩
    rw [baseFact_eq_roleFindings, hrole]
    exact List.mem_cons_self

end FactReader

namespace CodeModel

variable {settings : Settings} {strategies : Strategies} {schema : List ContentType}
  {options : CodeOptions} {m : CodeModel} {linked : List Schema.LinkedType}
  {named : List NamedType} {mapped : ContentTypeOptions} {propertied : List PropertiedType}
  {t : Model}

namespace Built

theorem omitsConstructor_eq
    (h : Built settings strategies schema options linked named mapped propertied m)
    (ht : t ∈ m.models) :
    t.omitsConstructor = options.contentTypes.hasConstructor t.name := by
  obtain ⟨i, hi⟩ := List.mem_iff_getElem?.1 ht
  rw [← ContentTypeOptions.hasConstructor_mapAliases h.map]
  exact congrArg Model.omitsConstructor (h.model_eq hi).2

theorem declaredBase_eq
    (h : Built settings strategies schema options linked named mapped propertied m)
    (ht : t ∈ m.models) :
    t.declaredBase = options.contentTypes.baseClass? t.name := by
  obtain ⟨i, hi⟩ := List.mem_iff_getElem?.1 ht
  rw [← ContentTypeOptions.baseClass?_mapAliases h.map]
  exact congrArg Model.declaredBase (h.model_eq hi).2

/-- By the standard choice a class has a generated base class exactly if code declares none. -/
theorem isSome_baseClass
    (h : Built settings strategies schema options linked named mapped propertied m)
    (hstrategies : strategies.baseClass = BaseClassQuery.standard) (ht : t ∈ m.models) :
    t.baseClass.isSome = !t.declaredBase.isSome := by
  obtain ⟨i, hi⟩ := List.mem_iff_getElem?.1 ht
  have hbase := congrArg Model.baseClass (h.model_eq hi).2
  have hdeclared := congrArg Model.declaredBase (h.model_eq hi).2
  rw [hbase, hdeclared]
  simp only [Inheritance.complete, planOf, hstrategies, BaseClassQuery.standard]
  split
  · rename_i hsome
    simp [hsome]
  · rename_i hnone _
    simp [hnone]
  · rename_i hnone _
    simp only [hnone]
    split <;> rfl

end Built
end CodeModel
end ContentModels

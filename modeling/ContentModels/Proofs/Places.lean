import ContentModels.Proofs.InertFiles

/-!
# Where facts stand

What a marker declares depends on its arguments and on what names denote, and on nothing else:
the name of the file and the line show in failures only.
-/

namespace ContentModels

open CSharp Outcome

namespace Outcome

variable {ε α : Type} {x y : Except ε α}

/-- Steps with the same result, or that both fail. -/
theorem both_ok_or_error
    (h : x.toOption = y.toOption) :
    (∃ a, x = .ok a ∧ y = .ok a) ∨ ∃ e e', x = .error e ∧ y = .error e' := by
  cases x with
  | error e =>
    cases y with
    | error e' => exact .inr ⟨e, e', rfl, rfl⟩
    | ok b => cases h
  | ok a =>
    cases y with
    | error e' => cases h
    | ok b =>
      cases h
      exact .inl ⟨a, rfl, rfl⟩

end Outcome

namespace Marker

variable {a b : AttributeUse} (file file' : String)

theorem toOption_textsFrom
    (values : List AttributeValue) (position : Nat) :
    (textsFrom file a position values).toOption = (textsFrom file' b position values).toOption := by
  induction values generalizing position with
  | nil => rfl
  | cons value values ih =>
    cases value with
    | str s =>
      unfold textsFrom
      rcases both_ok_or_error (ih (position + 1)) with ⟨l, h, h'⟩ | ⟨e, e', h, h'⟩
      · rw [h, h']
      · rw [h, h']
        rfl
    | typeOf t => rfl
    | expr text => rfl

theorem positional_eq
    (hab : b.arguments = a.arguments) :
    b.positional = a.positional := by
  unfold AttributeUse.positional
  rw [hab]

theorem textArguments_placed
    (hab : b.arguments = a.arguments) (m : Marker) (counts : List Nat) :
    (∃ l, m.textArguments a file counts = .ok l ∧ m.textArguments b file' counts = .ok l) ∨
      ∃ e e', m.textArguments a file counts = .error e ∧
        m.textArguments b file' counts = .error e' := by
  refine both_ok_or_error ?_
  unfold textArguments
  dsimp only
  rw [positional_eq hab]
  split
  · exact toOption_textsFrom file file' _ 1
  · rfl

theorem typeArgument_placed
    (hab : b.arguments = a.arguments) (m : Marker) :
    (∃ t, m.typeArgument a file = .ok t ∧ m.typeArgument b file' = .ok t) ∨
      ∃ e e', m.typeArgument a file = .error e ∧ m.typeArgument b file' = .error e' := by
  refine both_ok_or_error ?_
  unfold typeArgument
  rw [positional_eq hab]
  split <;> rfl

end Marker

namespace FactReader

variable {r : FactReader} {c d : Compilation} {a b : AttributeUse} (file file' : String)

/-- What is declared, without the failures to read it. -/
def declared (fs : List Finding) : List (Option Declaration) :=
  fs.map Except.toOption

theorem declared_flatMap
    {α : Type} {as : List α} {f g : α → List Finding}
    (h : ∀ a ∈ as, declared (f a) = declared (g a)) :
    declared (as.flatMap f) = declared (as.flatMap g) := by
  unfold declared
  rw [List.map_flatMap, List.map_flatMap]
  exact flatMap_congr h

theorem declared_assemblyFact
    {scope scope' : Scope} (m : Marker) (hab : b.arguments = a.arguments)
    (hbase : m = .modelsBaseClass → ∀ name ∈ a.typeArguments,
      (c.resolve name scope).map (·.fullName) = (d.resolve name scope').map (·.fullName)) :
    declared (assemblyFact c scope file a m) = declared (assemblyFact d scope' file' b m) := by
  have hone := m.textArguments_placed file file' hab [1]
  have htwo := m.textArguments_placed file file' hab [2]
  have hthree := m.textArguments_placed file file' hab [3]
  have htype := m.typeArgument_placed file file' hab
  cases m with
  | ignoreContentType | modelsNamespace | modelsUsing =>
    rcases hone with ⟨l, h, h'⟩ | ⟨e, e', h, h'⟩
    · simp only [assemblyFact, h, h']
    · simp only [assemblyFact, h, h']
      rfl
  | renameContentType | ignoreProperty =>
    rcases htwo with ⟨l, h, h'⟩ | ⟨e, e', h, h'⟩
    · simp only [assemblyFact, h, h']
    · simp only [assemblyFact, h, h']
      rfl
  | renameProperty =>
    rcases hthree with ⟨l, h, h'⟩ | ⟨e, e', h, h'⟩
    · simp only [assemblyFact, h, h']
    · simp only [assemblyFact, h, h']
      rfl
  | modelsBaseClass =>
    rcases htype with ⟨name, h, h'⟩ | ⟨e, e', h, h'⟩
    · have hfull := hbase rfl name (Marker.mem_typeArguments h)
      simp only [assemblyFact, h, h']
      cases hc : c.resolve name scope with
      | none =>
        cases hd : d.resolve name scope' with
        | none => rfl
        | some s => simp [hc, hd] at hfull
      | some s =>
        cases hd : d.resolve name scope' with
        | none => simp [hc, hd] at hfull
        | some s' =>
          have : s.fullName = s'.fullName := by simpa [hc, hd] using hfull
          simp only [this]
    · simp only [assemblyFact, h, h']
      rfl
  | implementProperty | implementContentType | publishedModel => rfl

theorem declared_typeFact
    (className : String) (m : Marker) (hab : b.arguments = a.arguments) :
    declared (typeFact className file a m) = declared (typeFact className file' b m) := by
  have hone := m.textArguments_placed file file' hab [1]
  have htwo := m.textArguments_placed file file' hab [2]
  cases m with
  | implementContentType | publishedModel | ignoreProperty =>
    rcases hone with ⟨l, h, h'⟩ | ⟨e, e', h, h'⟩
    · simp only [typeFact, h, h']
    · simp only [typeFact, h, h']
      rfl
  | renameProperty =>
    rcases htwo with ⟨l, h, h'⟩ | ⟨e, e', h, h'⟩
    · simp only [typeFact, h, h']
    · simp only [typeFact, h, h']
      rfl
  | _ => rfl

theorem declared_memberFact
    {t t' : TypeDeclaration} {m m' : Member} (hab : b.arguments = a.arguments)
    (hname : t'.name = t.name) (hkind : m'.kind = m.kind)
    (hmarker : Marker.identify? a c (.ofType t) = Marker.identify? b d (.ofType t')) :
    declared (memberFact c t file m a) = declared (memberFact d t' file' m' b) := by
  have harguments := Marker.implementProperty.textArguments_placed file file' hab [1, 2]
  unfold memberFact
  rw [hmarker, hkind, hname]
  split
  · split
    · rcases harguments with ⟨l, h, h'⟩ | ⟨e, e', h, h'⟩
      · simp only [h, h']
      · simp only [h, h']
        rfl
    · rcases harguments with ⟨l, h, h'⟩ | ⟨e, e', h, h'⟩
      · simp only [h, h']
      · simp only [h, h']
        rfl
    · rfl
  · rfl

end FactReader
end ContentModels

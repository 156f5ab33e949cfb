import ContentModels.Facts
import ContentModels.Proofs.Outcome
import Mathlib.Data.List.Pairwise

/-!
# Files that compile

Files compile if each of them can be read and no type is declared twice, except by parts that
are all partial (`exists_ofUnits_iff`).  Which of two declarations comes first does not matter.
-/

namespace ContentModels

open Outcome

namespace CSharp

/-! ### The names of files -/

/-- A file is read alike under all names. -/
theorem parseSource_eq_map
    (file source : String) (version : LanguageVersion) :
    parseSource file source version =
      (parseSource "" source version).map fun u => { u with file } := by
  unfold parseSource
  cases tokenize source with
  | error d => rfl
  | ok lexed =>
    show (checkTokens version lexed.tokens >>= _) =
      (checkTokens version lexed.tokens >>= _).map fun u : CompilationUnit => { u with file }
    cases checkTokens version lexed.tokens with
    | error d => rfl
    | ok _ =>
      show (Parse.fileContents _ lexed.tokens >>= _) =
        (Parse.fileContents _ lexed.tokens >>= _).map fun u : CompilationUnit => { u with file }
      cases Parse.fileContents _ lexed.tokens <;> rfl

theorem parseUnit_eq_ok_iff
    {file source : String} {version : LanguageVersion} {u : CompilationUnit} :
    parseUnit file source version = .ok u ↔
      ∃ v, parseUnit "" source version = .ok v ∧ u = { v with file } := by
  unfold parseUnit
  rw [parseSource_eq_map]
  cases parseSource "" source version with
  | error d => simp [Except.map]
  | ok v => simp [Except.map, eq_comm]

theorem file_of_parseUnit
    {file source : String} {version : LanguageVersion} {u : CompilationUnit}
    (h : parseUnit file source version = .ok u) :
    u.file = file := by
  obtain ⟨v, -, rfl⟩ := parseUnit_eq_ok_iff.1 h
  rfl

/-! ### Declarations of one type -/

namespace Compilation

/-- Two declarations can stand next to each other: as partial ones if they are of one type. -/
def Fits (a b : TypeDeclaration) : Prop :=
  sameType a b = true → a.isPartial = true ∧ b.isPartial = true

variable {a b t : TypeDeclaration}

theorem sameType_iff :
    sameType a b = true ↔ a.arity = b.arity ∧ a.fullName = b.fullName := by
  unfold sameType
  rw [Bool.and_eq_true, beq_iff_eq, beq_iff_eq]

theorem sameType_comm :
    sameType a b = sameType b a := by
  rw [Bool.eq_iff_iff, sameType_iff, sameType_iff, eq_comm, eq_comm (a := a.fullName)]

theorem sameType_trans
    (hab : sameType a b = true) (hbt : sameType b t = true) :
    sameType a t = true := by
  rw [sameType_iff] at *
  exact ⟨hab.1.trans hbt.1, hab.2.trans hbt.2⟩

theorem Fits.symm
    (h : Fits a b) :
    Fits b a := fun hba => (h (sameType_comm.trans hba)).symm

instance : Std.Symm Fits := ⟨fun _ _ => Fits.symm⟩

/-- What is of one type with a declaration that fits, and is partial, fits as well. -/
theorem forall_fits_of_sameType
    {ts : List TypeDeclaration} (hfits : ts.Pairwise Fits) (ha : a ∈ ts)
    (hsame : sameType t a = true) (hpartial : a.isPartial = true ∧ t.isPartial = true) :
    ∀ b ∈ ts, Fits t b := by
  intro b hb htb
  refine ⟨hpartial.2, ?_⟩
  by_cases hab : a = b
  · exact hab ▸ hpartial.1
  · have hfit := hfits.forall ha hb hab
    exact (hfit (sameType_trans (sameType_comm.trans hsame) htb)).2

/--
Declarations pass behind others exactly if all fit each other.  Only the first part of a type is
kept to compare with: what fits it fits the later ones too.
-/
theorem checkDuplicates_eq_ok_iff
    {before : List TypeDeclaration} {declared : List (String × TypeDeclaration)}
    (hbefore : before.Pairwise Fits) :
    checkDuplicates before declared = .ok () ↔ (before ++ declared.map (·.2)).Pairwise Fits := by
  induction declared generalizing before with
  | nil => simpa [checkDuplicates] using hbefore
  | cons x declared ih =>
    obtain ⟨file, t⟩ := x
    rw [checkDuplicates, List.map_cons]
    cases hfind : before.find? (sameType t) with
    | none =>
      have hfresh : ∀ b ∈ before, Fits b t := fun b hb hsame => by
        rw [sameType_comm] at hsame
        exact absurd hsame (List.find?_eq_none.1 hfind b hb)
      have hall : (before ++ [t]).Pairwise Fits :=
        List.pairwise_append.2 ⟨hbefore, List.pairwise_singleton _ _, by simpa using hfresh⟩
      rw [ih hall, List.append_assoc, List.singleton_append]
    | some earlier =>
      have hmem := List.mem_of_find?_eq_some hfind
      have hsame : sameType t earlier = true := by simpa using List.find?_some hfind
      dsimp only
      split
      · rename_i hpartial
        rw [ih hbefore]
        rw [List.pairwise_middle Fits.symm, List.pairwise_cons]
        rw [Bool.and_eq_true] at hpartial
        exact ⟨fun h => ⟨forall_fits_of_sameType h (List.mem_append_left _ hmem) hsame hpartial, h⟩,
          And.right⟩
      · rename_i hpartial
        refine iff_of_false nofun fun h => hpartial ?_
        have hfit : Fits earlier t := (List.pairwise_append.1 h).2.2 _ hmem _ List.mem_cons_self
        rw [Bool.and_eq_true]
        exact hfit (sameType_comm.trans hsame)

theorem map_declarations
    (units : List CompilationUnit) :
    (declarations units).map (·.2) = units.flatMap (·.types) := by
  unfold declarations
  rw [List.map_flatMap]
  congr 1
  funext u
  rw [List.map_map]
  exact List.map_id u.types

/-- Files compile exactly if all that they declare fits. -/
theorem exists_ofUnits_iff
    (units : List CompilationUnit) (references : List Assembly) :
    (∃ c, ofUnits units references = .ok c) ↔ (units.flatMap (·.types)).Pairwise Fits := by
  have hcheck := @checkDuplicates_eq_ok_iff [] (declarations units) .nil
  rw [List.nil_append, map_declarations] at hcheck
  rw [← hcheck]
  unfold ofUnits
  constructor
  · rintro ⟨c, h⟩
    obtain ⟨_, hok, -⟩ := bind_eq_ok.1 h
    exact hok
  · intro hok
    exact ⟨_, bind_eq_ok.2 ⟨(), hok, rfl⟩⟩

/-- What a name denotes depends on what the full names that it may stand for denote. -/
theorem resolve_eq_of_candidates
    {c d : Compilation} {name : TypeName} {scope : Scope}
    (h : ∀ x ∈ scope.candidates name, c.symbol? x.1 x.2 = d.symbol? x.1 x.2) :
    c.resolve name scope = d.resolve name scope := by
  unfold resolve
  generalize scope.candidates name = xs at h
  induction xs with
  | nil => rfl
  | cons x xs ih =>
    obtain ⟨hx, hxs⟩ := List.forall_mem_cons.1 h
    rw [List.findSome?_cons, List.findSome?_cons, hx, ih hxs]

theorem resolve_congr
    {c d : Compilation}
    (h : ∀ fullName arity, c.symbol? fullName arity = d.symbol? fullName arity)
    (name : TypeName) (scope : Scope) :
    c.resolve name scope = d.resolve name scope :=
  resolve_eq_of_candidates fun x _ => h x.1 x.2

theorem resolveAttribute_congr
    {c d : Compilation}
    (h : ∀ fullName arity, c.symbol? fullName arity = d.symbol? fullName arity)
    (name : TypeName) (scope : Scope) :
    c.resolveAttribute name scope = d.resolveAttribute name scope := by
  unfold resolveAttribute
  simp only [resolve_congr h]

theorem units_of_ofUnits
    {units : List CompilationUnit} {references : List Assembly} {c : Compilation}
    (h : ofUnits units references = .ok c) :
    c.units = units := by
  obtain ⟨_, -, h⟩ := bind_eq_ok.1 h
  cases h
  rfl

end Compilation
end CSharp

namespace FactReader

open CSharp

variable {r : FactReader} {sources : SourceFiles} {c : Compilation}

/-- The steps of reading and compiling files. -/
theorem compile_eq_ok_iff :
    r.compile sources = .ok c ↔
      (sources.entries.mapM fun e => parseUnit e.1 e.2 r.version) = .ok c.units ∧
        Compilation.ofUnits c.units r.references = .ok c := by
  constructor
  · intro h
    obtain ⟨units, hunits, hc⟩ := bind_eq_ok.1 h
    obtain rfl := Compilation.units_of_ofUnits hc
    exact ⟨hunits, hc⟩
  · rintro ⟨hunits, hc⟩
    exact bind_eq_ok.2 ⟨c.units, hunits, hc⟩

theorem compile_eq_ok
    (h : r.compile sources = .ok c) :
    (sources.entries.mapM fun e => parseUnit e.1 e.2 r.version) = .ok c.units :=
  (compile_eq_ok_iff.1 h).1

end FactReader
end ContentModels

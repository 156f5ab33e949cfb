import ContentModels.Proofs.Parsing.Spelling

/-!
# Reading types with type arguments

The one type with type arguments that is generated of itself: that of an expression which
selects a property.
-/

namespace ContentModels
namespace CSharp
namespace Parse

variable {version : LanguageVersion} {ctx : ParseContext} {ts us rest : List Token}

/-- Tokens that are read as a type name up to what does not go on with it. -/
structure ReadsType
    (version : LanguageVersion) (ks : List TokenKind) (good : TypeName → Prop) : Prop where
  reads : Reads version typeName ks endsType good
  head : ∃ k, ks.head? = some k ∧ (k = .punct .openParen ∨ ∃ w b, k = .ident w b)

theorem readsType_of_spellsType
    {ks : List TokenKind} {name : TypeName}
    (h : SpellsType ks name) :
    ReadsType version ks (· = name) := by
  refine ⟨h.reads version, ?_⟩
  rcases h.head with hk | ⟨w, b, hk⟩
  · exact ⟨_, hk, .inl rfl⟩
  · exact ⟨_, hk, .inr ⟨w, b, rfl⟩⟩

theorem ReadsType.any
    {ks : List TokenKind} {good : TypeName → Prop}
    (h : ReadsType version ks good) :
    ReadsType version ks anyResult :=
  ⟨h.reads.mono fun _ _ => trivial, h.head⟩

/-- A word is a type name under every bound. -/
theorem typeNameAt_word
    {w : String} {b : Bool} {l : Nat}
    (hdot : endsType (headKind us)) (depth : Nat) :
    typeNameAt (depth + 1) ctx (⟨.ident w b, l⟩ :: us) =
      .ok (⟨render [⟨.ident w b, l⟩], [w], 0, false⟩, us) := by
  have hmark : headKind us ≠ some (.punct .doubleColon) := by
    intro h
    simp [endsType, isMark, h] at hdot
  refine typeNameAt_succ_eq_ok.2 ⟨[w], 0, false, ?_, by simp⟩
  rw [nameAt_of_word rfl fun _ => by simpa using hmark]
  unfold namePath
  rw [bind_of_ok (loop_of_done (nameRound_last _ [] w b l (endsSegments_of_endsType hdot)))]
  exact bind_eq_ok.2 ⟨(), us, typeSuffixes_eq_ok.2 (dropTypeSuffixes_of_endsType hdot _), rfl⟩

theorem reads_typeNameAt_word
    (depth : Nat) (w : String) (b : Bool) :
    Reads version (typeNameAt (depth + 1)) [.ident w b] endsType anyResult := by
  intro endLine toks rest hk hrest
  obtain ⟨l, us, rfl, hus⟩ := kindsOf_eq_cons.1 hk
  obtain rfl := kindsOf_eq_nil.1 hus
  exact ⟨_, typeNameAt_word hrest depth, trivial⟩

/-- A word with type arguments is a type name. -/
theorem reads_typeNameAt_generic
    {depth : Nat} {arguments : List TokenKind}
    (h : Reads version (typeArgumentsAt depth) arguments anything anyResult)
    (hless : arguments.head? = some (.punct .less)) (w : String) (b : Bool) :
    Reads version (typeNameAt (depth + 1)) (.ident w b :: arguments) endsType anyResult := by
  intro endLine toks rest hk hrest
  obtain ⟨l, us, rfl, hus⟩ := kindsOf_eq_cons.1 hk
  obtain ⟨arity, harity, -⟩ := h endLine us rest hus trivial
  have hhead := @headKind_of_kindsOf arguments us rest _ hus hless
  have hgoes : ¬ goesOn rest := (endsSegments_spec (endsSegments_of_endsType hrest)).1
  have hround : nameRound (typeArgumentsAt depth) [] ⟨version, endLine⟩
      (⟨.ident w b, l⟩ :: (us ++ rest)) = .ok (.done ([w], arity), rest) := by
    rw [nameRound_ident, if_pos hhead, harity]
    simp only [afterSegment]
    rw [if_neg hgoes]
    rfl
  refine ⟨_, typeNameAt_succ_eq_ok.2 ⟨[w], arity, false, ?_, rfl⟩, trivial⟩
  rw [List.cons_append, nameAt_of_word rfl fun _ => by simp [hhead]]
  unfold namePath
  rw [bind_of_ok (loop_of_done hround)]
  exact bind_eq_ok.2 ⟨(), rest, typeSuffixes_eq_ok.2 (dropTypeSuffixes_of_endsType hrest _), rfl⟩

/-- The ends of a type argument. -/
def endsTypeArgument (k : Option TokenKind) : Prop :=
  k = some (.punct .comma) ∨ k = some (.punct .greater)

section Arguments

variable {depth : Nat} {w : String} {ks js : List TokenKind}

theorem reads_argumentRound
    (h : Reads version (typeNameAt depth) (.ident w false :: ks) endsType anyResult)
    (hw : w ≠ "in" ∧ w ≠ "out") (arity : Nat) :
    Reads version (argumentRound depth arity) (.ident w false :: ks) endsTypeArgument
      (isAgain (· = arity)) := by
  intro endLine toks rest hk hrest
  have hends : endsType (headKind rest) := by
    rcases hrest with hr | hr <;> simp [hr, endsType, isMark]
  obtain ⟨name, hname, -⟩ := h endLine toks rest hk hends
  have hhead := @headKind_of_kindsOf (.ident w false :: ks) toks rest _ hk rfl
  have hitem : argumentItem depth ⟨version, endLine⟩ (toks ++ rest) = .ok ((), rest) := by
    rw [argumentItem_apply, hhead, if_neg (by simp [isVariance, TokenKind.keyword?, hw]),
      attributedType_apply, hhead, if_neg (by simp), bind_of_ok hname]
    rfl
  refine ⟨.again arity, ?_, arity, rfl, rfl⟩
  rw [argumentRound_apply, hhead, if_neg (by simp), if_neg (by simp), hitem]
  exact if_pos hrest

/-- The last type argument. -/
theorem reads_lastArgument
    (h : Reads version (typeNameAt depth) (.ident w false :: ks) endsType anyResult)
    (hw : w ≠ "in" ∧ w ≠ "out") (arity : Nat) :
    Reads version (loop arity (argumentRound depth)) ((.ident w false :: ks) ++ [.punct .greater])
      anything anyResult := by
  refine (reads_argumentRound h hw arity).loop_again (by simp) rfl (by simp [endsTypeArgument])
    fun _ _ => ?_
  refine .loop_done ?_
  unfold argumentRound
  refine .look (looks_accept rfl nofun) ?_
  refine (reads_accept .greater).bind_last fun _ hb => ?_
  rw [hb]
  exact .pure ⟨_, rfl, trivial⟩

/-- A type argument with others behind it. -/
theorem reads_nextArgument
    (h : Reads version (typeNameAt depth) (.ident w false :: ks) endsType anyResult)
    (hw : w ≠ "in" ∧ w ≠ "out") {k : TokenKind} (hk : js.head? = some k)
    (h' : ∀ arity, Reads version (loop arity (argumentRound depth)) js anything anyResult)
    (arity : Nat) :
    Reads version (loop arity (argumentRound depth))
      ((.ident w false :: ks) ++ ([.punct .comma] ++ js)) anything anyResult := by
  refine (reads_argumentRound h hw arity).loop_again (by simp) rfl (by simp [endsTypeArgument])
    fun _ _ => ?_
  refine Reads.loop_again (?_ : Reads _ _ _ anything (isAgain anyResult)) (by simp) hk trivial
    fun s _ => h' s
  unfold argumentRound
  refine (reads_accept .comma).bind_last fun _ hb => ?_
  rw [hb]
  exact .pure ⟨_, rfl, trivial⟩

theorem reads_typeArgumentsAt
    {k : TokenKind} (hk : js.head? = some k)
    (h : Reads version (loop 1 (argumentRound depth)) js anything anyResult) :
    Reads version (typeArgumentsAt (depth + 1)) ([.punct .less] ++ js) anything anyResult := by
  rw [typeArgumentsAt_succ]
  exact (reads_expect .less).bind hk trivial fun _ _ => h

end Arguments

/-- The tokens of a type with type arguments. -/
def genericKinds (w : String) (arguments : List TokenKind) : List TokenKind :=
  .ident w false :: ([.punct .less] ++ (arguments ++ [.punct .greater]))

/-- The type of an expression that selects a property of a type. -/
theorem readsType_selector
    {n v : String} (hn : n ≠ "in" ∧ n ≠ "out") (hv : v ≠ "in" ∧ v ≠ "out") :
    ReadsType version
      (genericKinds "Expression"
        (genericKinds "Func" ([.ident n false] ++ ([.punct .comma] ++ [.ident v false]))))
      anyResult := by
  refine ⟨?_, _, rfl, .inr ⟨_, _, rfl⟩⟩
  intro endLine toks rest hk hrest
  have hlength : toks.length = 9 := by
    simpa [genericKinds] using congrArg List.length hk
  obtain ⟨m, hm⟩ : ∃ m, (toks ++ rest).length = m + 6 := ⟨toks.length + rest.length - 6, by
    rw [List.length_append]
    omega⟩
  unfold typeName nested
  rw [hm]
  have hfunc : ∀ m, Reads version (typeNameAt (m + 3)) (genericKinds "Func" ([.ident n false] ++ ([.punct .comma] ++ [.ident v false]))) endsType anyResult := by
    intro m
    refine reads_typeNameAt_generic (reads_typeArgumentsAt rfl ?_) rfl _ _
    refine reads_nextArgument (reads_typeNameAt_word m n false) hn rfl ?_ 1
    exact reads_lastArgument (reads_typeNameAt_word m v false) hv
  have hexpression := reads_typeNameAt_generic (reads_typeArgumentsAt rfl (reads_lastArgument (hfunc (m + 2)) ⟨by decide, by decide⟩ 1)) rfl "Expression" false
  exact hexpression endLine toks rest hk hrest

/-- A list of one type parameter. -/
theorem reads_typeArguments
    {v : String} (hv : v ≠ "in" ∧ v ≠ "out") :
    Reads version typeArguments [.punct .less, .ident v false, .punct .greater] anything
      anyResult := by
  intro endLine toks rest hk hrest
  have hlength : toks.length = 3 := by
    simpa using congrArg List.length hk
  obtain ⟨m, hm⟩ : ∃ m, (toks ++ rest).length + 1 = m + 2 := ⟨rest.length + 2, by
    rw [List.length_append]
    omega⟩
  unfold typeArguments nested
  rw [hm]
  exact reads_typeArgumentsAt rfl (reads_lastArgument (reads_typeNameAt_word m v false) hv 1)
    endLine toks rest hk hrest

end Parse
end CSharp
end ContentModels

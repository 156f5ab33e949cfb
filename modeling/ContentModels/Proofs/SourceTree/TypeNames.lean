import ContentModels.Proofs.Parsing.Following
import ContentModels.Proofs.SourceTree.Flattening

/-!
# Reading the types of a tree

The tokens of a type are read as its name wherever no further part of a name follows them
(`TypeTree.reads_typeName`), and those of type parameters as a list of as many.  The name and
its type arguments are gone through along the tree; a bound on the nesting that is at least
the number of tokens is enough at every depth.
-/

namespace ContentModels
namespace CSharp
namespace SourceTree

open Parse

variable {version : LanguageVersion} {next : Option TokenKind → Prop}
variable {ks js : List TokenKind} {k : Option TokenKind} {depth : Nat}

theorem kindsOf_map
    (ks : List TokenKind) :
    kindsOf (ks.map fun k => ⟨k, 0⟩) = ks := by
  rw [kindsOf, List.map_map]
  exact List.map_id ks

/-- The text of tokens depends on their kinds only. -/
theorem render_eq_textOf
    {toks : List Token}
    (h : kindsOf toks = ks) :
    render toks = textOf ks :=
  render_eq (h.trans (kindsOf_map ks).symm)

/-! ## Words that no type starts with -/

/-- A keyword that neither names a type nor starts a name at the global namespace. -/
def IsOtherKeyword (w : String) : Prop :=
  w ≠ "global" ∧ w ∉ builtInTypes ∧ ¬ IsIdentifier w

instance (w : String) : Decidable (IsOtherKeyword w) :=
  inferInstanceAs (Decidable (_ ∧ _ ∧ _))

/-- The tokens that a type can start with. -/
def StartsType : TokenKind → Prop
  | .ident w false => ¬ IsOtherKeyword w
  | .punct p => p = .openParen
  | _ => False

theorem StartsType.keyword?_ne
    {j : TokenKind} (h : StartsType j) {w : String} (hw : IsOtherKeyword w) :
    j.keyword? ≠ some w := by
  intro heq
  cases j with
  | ident v b =>
    cases b with
    | false =>
      cases heq
      exact h hw
    | true => cases heq
  | str | character | number | punct => cases heq

theorem StartsType.ne_punct
    {j : TokenKind} (h : StartsType j) {p : Punct} (hp : p ≠ .openParen) :
    j ≠ .punct p := by
  rintro rfl
  exact hp h

/-- None of some keywords comes next. -/
theorem StartsType.startsNone
    {j : TokenKind} (h : StartsType j) {ws : List String} (hws : ∀ w ∈ ws, IsOtherKeyword w) :
    startsNone ws (some j) := by
  rintro w hw heq
  cases heq
  exact h (hws w hw)

theorem TypeWord.not_isOtherKeyword
    (w : TypeWord) :
    ¬ IsOtherKeyword w.text :=
  fun h => w.isWord.elim h.2.1 h.2.2

theorem Identifier.not_isOtherKeyword
    (i : Identifier) :
    ¬ IsOtherKeyword i.text :=
  fun h => h.2.2 i.isIdentifier

theorem TypeWord.ne_global
    (w : TypeWord) :
    w.text ≠ "global" := by
  intro h
  have hglobal : ¬ ("global" ∈ builtInTypes ∨ IsIdentifier "global") := by decide
  exact hglobal (h ▸ w.isWord)

/-! ## How types start -/

theorem PathTree.exists_word
    (p : PathTree) :
    ∃ (w : TypeWord) (ws : List TokenKind), p.kinds = .ident w.text false :: ws := by
  cases p with
  | last word arguments => exact ⟨word, _, by rw [PathTree.kinds]⟩
  | qualified word arguments rest => exact ⟨word, _, by rw [PathTree.kinds]⟩

theorem TypeTree.exists_head
    (t : TypeTree) :
    ∃ j, t.kinds.head? = some j ∧ StartsType j := by
  cases t with
  | tuple elements suffixes =>
    rw [TypeTree.kinds]
    exact ⟨.punct .openParen, rfl, rfl⟩
  | named fromGlobal path suffixes =>
    obtain ⟨w, ws, hw⟩ := path.exists_word
    rw [TypeTree.kinds, hw]
    cases fromGlobal with
    | true => exact ⟨_, rfl, fun h => h.1 rfl⟩
    | false => exact ⟨_, rfl, w.not_isOtherKeyword⟩

/-- A type comes first. -/
theorem TypeTree.shows
    (t : TypeTree) (h : Shows next (t.kinds ++ js) 0 k) :
    ∃ j, k = some j ∧ StartsType j := by
  obtain ⟨j, hj, hstarts⟩ := t.exists_head
  exact ⟨j, shows_of_head? (by simp [hj]) h, hstarts⟩

/-- What comes behind some suffixes or is one of them. -/
theorem shows_suffixes
    {suffixes : List TypeSuffix}
    (h : Shows next (suffixes.flatMap TypeSuffix.kinds ++ js) 0 k) :
    isMark [.question, .star, .openBracket] k ∨ Shows next js 0 k := by
  cases suffixes with
  | nil => exact .inr h
  | cons suffix suffixes =>
    left
    cases suffix <;>
    · rw [show k = _ from h]
      simp [isMark]

theorem shows_angled
    {kss : List (List TokenKind)}
    (h : Shows next (angled kss ++ js) 0 k) :
    k = some (.punct .less) ∨ kss = [] ∧ Shows next js 0 k := by
  cases kss with
  | nil => exact .inr ⟨rfl, h⟩
  | cons ks kss => exact .inl h

theorem PathTree.shows_second
    (p : PathTree) (h : Shows next (p.kinds ++ js) 1 k) :
    isMark [.dot, .less] k ∨ Shows next js 0 k := by
  cases p with
  | last word arguments =>
    rw [PathTree.kinds] at h
    rcases shows_angled (h : Shows next (angled arguments.kinds ++ js) 0 k) with rfl | ⟨-, h⟩
    · simp [isMark]
    · exact .inr h
  | qualified word arguments rest =>
    rw [PathTree.kinds, List.cons_append, shows_cons_succ, List.append_assoc] at h
    rcases shows_angled h with rfl | ⟨-, h⟩
    · simp [isMark]
    · rw [show k = _ from h]
      simp [isMark]

/-- Behind the first word of a type it goes on, or what follows the type comes. -/
theorem TypeTree.shows_second
    {t : TypeTree} {w : String} {b : Bool}
    (hw : t.kinds.head? = some (.ident w b)) (h : Shows next (t.kinds ++ js) 1 k) :
    ¬ endsType k ∨ Shows next js 0 k := by
  have hgoes : ∀ {marks : List Punct}, (∀ p ∈ marks, p ∈ [Punct.dot, .doubleColon, .less,
      .question, .star, .openBracket]) → isMark marks k → ¬ endsType k := by
    intro marks hmarks hk hends
    refine hends ?_
    unfold isMark at hk ⊢
    split at hk
    · exact hmarks _ hk
    · exact hk.elim
  cases t with
  | tuple elements suffixes =>
    rw [TypeTree.kinds] at hw
    cases hw
  | named fromGlobal path suffixes =>
    rw [TypeTree.kinds] at h
    cases fromGlobal with
    | true =>
      left
      obtain rfl : k = some (.punct .doubleColon) := h
      simp [endsType, isMark]
    | false =>
      simp only [globalKinds, Bool.false_eq_true, if_false, List.nil_append,
        List.append_assoc] at h
      rcases path.shows_second h with hk | h
      · exact .inl (hgoes (by decide) hk)
      · rcases shows_suffixes h with hk | h
        · exact .inl (hgoes (by decide) hk)
        · exact .inr h

/-! ## Suffixes -/

theorem dropTypeSuffixes_commas
    {commas : Nat} {toks : List Token}
    (h : kindsOf toks = List.replicate commas (.punct .comma) ++ [.punct .closeBracket])
    (endLine : Nat) (rest : List Token) :
    dropTypeSuffixes endLine true (toks ++ rest) = dropTypeSuffixes endLine false rest := by
  induction commas generalizing toks with
  | zero =>
    obtain ⟨l, us, rfl, hus⟩ := kindsOf_eq_cons.1 h
    obtain rfl := kindsOf_eq_nil.1 hus
    rfl
  | succ n ih =>
    rw [List.replicate_succ, List.cons_append] at h
    obtain ⟨l, us, rfl, hus⟩ := kindsOf_eq_cons.1 h
    exact (ih hus :)

/-- A suffix of a type is passed over. -/
theorem dropTypeSuffixes_suffix
    {suffix : TypeSuffix} {toks : List Token}
    (h : kindsOf toks = suffix.kinds) (endLine : Nat) (rest : List Token) :
    dropTypeSuffixes endLine false (toks ++ rest) = dropTypeSuffixes endLine false rest := by
  cases suffix with
  | nullable | pointer =>
    obtain ⟨l, us, rfl, hus⟩ := kindsOf_eq_cons.1 h
    obtain rfl := kindsOf_eq_nil.1 hus
    rfl
  | rank commas =>
    obtain ⟨l, us, rfl, hus⟩ := kindsOf_eq_cons.1 h
    have hahead : (us ++ rest).head?.any (Token.isOneOf [.closeBracket, .comma]) = true := by
      cases commas <;>
      · obtain ⟨l', vs, rfl, -⟩ := kindsOf_eq_cons.1 hus
        rfl
    rw [List.cons_append, dropTypeSuffixes]
    simp only
    rw [if_pos hahead]
    exact dropTypeSuffixes_commas hus endLine rest

theorem reads_typeSuffixes
    (suffixes : List TypeSuffix) :
    Reads version typeSuffixes (suffixes.flatMap TypeSuffix.kinds) endsType anyResult := by
  intro endLine toks rest hk hrest
  refine ⟨(), typeSuffixes_eq_ok.2 ?_, trivial⟩
  change dropTypeSuffixes endLine false (toks ++ rest) = .ok rest
  induction suffixes generalizing toks with
  | nil =>
    obtain rfl := kindsOf_eq_nil.1 hk
    exact dropTypeSuffixes_of_endsType hrest endLine
  | cons suffix suffixes ih =>
    rw [List.flatMap_cons] at hk
    obtain ⟨us, vs, rfl, hus, hvs⟩ := kindsOf_eq_append.1 hk
    rw [List.append_assoc, dropTypeSuffixes_suffix hus]
    exact ih vs hvs

/-! ## Lists in angle brackets -/

/-- A token with which no list in angle brackets goes on. -/
def startsArgument (k : Option TokenKind) : Prop :=
  k ≠ some (.punct .comma) ∧ k ≠ some (.punct .greater)

/-- Tokens that are read as one type argument or type parameter. -/
structure ReadsItem (version : LanguageVersion) (depth : Nat) (ks : List TokenKind) : Prop where
  reads : Reads version (argumentItem depth) ks endsTypeArgument anyResult
  head : ∃ j, ks.head? = some j ∧ startsArgument (some j)

/-- What is read behind an argument. -/
theorem ReadsItem.reads_argumentRound
    (h : ReadsItem version depth ks) (arity : Nat) :
    Reads version (argumentRound depth arity) ks endsTypeArgument (isAgain (· = arity)) := by
  obtain ⟨j, hj, hcomma, hgreater⟩ := h.head
  intro endLine toks rest hk hrest
  obtain ⟨u, hu, -⟩ := h.reads endLine toks rest hk hrest
  refine ⟨.again arity, ?_, arity, rfl, rfl⟩
  rw [argumentRound_apply, headKind_of_kindsOf hk hj, if_neg hcomma, if_neg hgreater, hu]
  exact if_pos hrest

/-- A list of arguments is read to its end, and they are counted. -/
theorem reads_argumentRounds
    {kss : List (List TokenKind)}
    (h : ∀ ks ∈ kss, ReadsItem version depth ks) (hne : kss ≠ []) (arity : Nat) :
    Reads version (loop arity (argumentRound depth)) (listedKinds kss ++ [.punct .greater])
      anything (· + 1 = arity + kss.length) := by
  induction kss generalizing arity with
  | nil => exact absurd rfl hne
  | cons ks kss ih =>
    have hitem := h ks List.mem_cons_self
    have hks : ks ≠ [] := by
      rintro rfl
      obtain ⟨j, hj, -⟩ := hitem.head
      cases hj
    cases kss with
    | nil =>
      refine (hitem.reads_argumentRound arity).loop_next hks ?_ ?_
      · rintro k rfl
        exact .inr rfl
      · rintro _ rfl
        refine .loop_done ?_
        unfold argumentRound
        refine .declines (by rintro k rfl; nofun) ?_
        exact .accept (.pure ⟨_, rfl, rfl⟩)
    | cons ks' kss =>
      have hrest := ih (fun js hjs => h js (List.mem_cons_of_mem _ hjs)) (by simp) (arity + 1)
      change Reads _ _ ((ks ++ ([.punct .comma] ++ listedKinds (ks' :: kss))) ++ _) _ _
      rw [List.append_assoc, List.append_assoc]
      refine (hitem.reads_argumentRound arity).loop_next hks ?_ ?_
      · rintro k rfl
        exact .inl rfl
      · intro s hs
        refine Reads.loop_next (?_ : Reads _ _ _ anything (isAgain (· = arity + 1))) (by simp)
          (fun _ _ => trivial) ?_
        · rw [hs]
          exact .accept (.pure ⟨_, rfl, rfl⟩)
        · rintro s hs
          rw [hs]
          exact hrest.mono fun n hn => by
            simp only [List.length_cons] at hn ⊢
            omega

/-- A list in angle brackets is read as what it lists. -/
theorem reads_typeArgumentsAt_angled
    {kss : List (List TokenKind)}
    (h : ∀ ks ∈ kss, ReadsItem version depth ks) (hne : kss ≠ []) :
    Reads version (typeArgumentsAt (depth + 1)) (angled kss) anything (· = kss.length) := by
  rw [typeArgumentsAt_succ, angled, if_neg (by simpa using hne)]
  refine .expect ((reads_argumentRounds h hne 1).mono fun n hn => ?_)
  have : n + 1 = 1 + kss.length := hn
  omega

/-- A type as an argument. -/
theorem readsItem_type
    {t : TypeTree} {good : TypeName → Prop}
    (h : Reads version (typeNameAt depth) t.kinds endsType good) :
    ReadsItem version depth t.kinds := by
  obtain ⟨j, hj, hstarts⟩ := t.exists_head
  refine ⟨?_, j, hj, ?_, ?_⟩
  · intro endLine toks rest hk hrest
    have hends : endsType (headKind rest) := by
      rcases hrest with hr | hr <;> simp [hr, endsType, isMark]
    obtain ⟨name, hname, -⟩ := h endLine toks rest hk hends
    have hhead := @headKind_of_kindsOf _ toks rest _ hk hj
    refine ⟨(), ?_, trivial⟩
    rw [argumentItem_apply, hhead, if_neg, attributedType_apply, hhead, if_neg,
      bind_of_ok hname]
    · rfl
    · simpa using hstarts.ne_punct (by decide)
    · rintro (hv | hv)
      · exact hstarts.keyword?_ne (by decide) hv
      · exact hstarts.keyword?_ne (by decide) hv
  · simpa using hstarts.ne_punct (by decide)
  · simpa using hstarts.ne_punct (by decide)

/-! ## Names -/

section Segments

variable {arguments : Parse Nat} {kss : List (List TokenKind)}

/-- A word with the type arguments behind it. -/
theorem nameRound_word
    {ctx : ParseContext} {us rest : List Token} {arity : Nat}
    (h : kss ≠ [] → arguments ctx (us ++ rest) = .ok (arity, rest))
    (hnone : kss = [] → arity = 0) (hus : kindsOf us = angled kss)
    (hrest : headKind rest ≠ some (.punct .less)) (before : List String) (w : String) (l : Nat) :
    nameRound arguments before ctx (⟨.ident w false, l⟩ :: (us ++ rest)) =
      afterSegment (before ++ [w]) arity rest := by
  rw [nameRound_ident]
  cases kss with
  | nil =>
    obtain rfl := kindsOf_eq_nil.1 hus
    rw [List.nil_append, if_neg hrest, hnone rfl]
  | cons ks kss =>
    rw [if_pos (headKind_of_kindsOf hus rfl), h (by simp)]

/-- The last word of a name. -/
theorem reads_nameRound_last
    (h : kss ≠ [] → Reads version arguments (angled kss) anything (· = kss.length))
    (before : List String) (w : String) :
    Reads version (nameRound arguments before) (.ident w false :: angled kss) endsSegments
      (isDone (· = (before ++ [w], kss.length))) := by
  intro endLine toks rest hk hrest
  obtain ⟨l, us, rfl, hus⟩ := kindsOf_eq_cons.1 hk
  obtain ⟨hgoes, hless⟩ := endsSegments_spec hrest
  have harguments : kss ≠ [] → arguments ⟨version, endLine⟩ (us ++ rest) =
      .ok (kss.length, rest) := by
    intro hne
    obtain ⟨_, harity, rfl⟩ := h hne endLine us rest hus trivial
    exact harity
  refine ⟨.done (before ++ [w], kss.length), ?_, _, rfl, rfl⟩
  rw [List.cons_append, nameRound_word harguments (fun h => by simp [h]) hus hless,
    afterSegment, if_neg hgoes]

/-- A word of a name that is not the last one. -/
theorem reads_nameRound_again
    (h : kss ≠ [] → Reads version arguments (angled kss) anything (· = kss.length))
    (before : List String) (w : String) :
    Reads version (nameRound arguments before)
      (.ident w false :: (angled kss ++ [.punct .dot])) (fun k => ∃ v b, k = some (.ident v b))
      (isAgain (· = before ++ [w])) := by
  intro endLine toks rest hk hrest
  obtain ⟨l, us, rfl, hus⟩ := kindsOf_eq_cons.1 hk
  obtain ⟨us, vs, rfl, hangled, hvs⟩ := kindsOf_eq_append.1 hus
  obtain ⟨l', nothing, rfl, hnothing⟩ := kindsOf_eq_cons.1 hvs
  obtain rfl := kindsOf_eq_nil.1 hnothing
  obtain ⟨v, b, hv⟩ := hrest
  have harguments : kss ≠ [] → arguments ⟨version, endLine⟩ (us ++ ⟨.punct .dot, l'⟩ :: rest) =
      .ok (kss.length, ⟨.punct .dot, l'⟩ :: rest) := by
    intro hne
    obtain ⟨_, harity, rfl⟩ := h hne endLine us (⟨.punct .dot, l'⟩ :: rest) hangled trivial
    exact harity
  have hgoes : goesOn (⟨.punct .dot, l'⟩ :: rest) :=
    ⟨.inl rfl, by rw [List.drop_succ_cons, List.drop_zero, hv]; rfl⟩
  refine ⟨.again (before ++ [w]), ?_, _, rfl, rfl⟩
  rw [List.cons_append, List.append_assoc, List.singleton_append,
    nameRound_word harguments (fun h => by simp [h]) hangled (by simp), afterSegment,
    if_pos hgoes]
  rfl

end Segments

/-- A name with its suffixes, given how its words are read. -/
theorem reads_namePath
    {arguments : Parse Nat} {path : PathTree}
    (h : Reads version (loop [] (nameRound arguments)) path.kinds endsSegments
      (· = (path.segments, path.arity)))
    (fromGlobal : Bool) (suffixes : List TypeSuffix) :
    Reads version (namePath arguments fromGlobal)
      (path.kinds ++ suffixes.flatMap TypeSuffix.kinds) endsType
      (· = (path.segments, path.arity, fromGlobal)) := by
  unfold namePath
  refine h.step ?_ ?_
  · intro k hk
    rw [← List.append_nil (suffixes.flatMap TypeSuffix.kinds)] at hk
    rcases shows_suffixes hk with hk | hk
    · unfold endsSegments isMark at *
      split at hk
      · rename_i p
        simp only [List.mem_cons, List.not_mem_nil, or_false] at hk ⊢
        rcases hk with rfl | rfl | rfl <;> simp
      · exact hk.elim
    · exact endsSegments_of_endsType hk
  · rintro _ rfl
    exact (reads_typeSuffixes suffixes).returning fun _ _ => rfl

/-- A name at the global namespace or not. -/
theorem reads_nameAt_named
    {arguments : Parse Nat} {path : PathTree}
    (h : Reads version (loop [] (nameRound arguments)) path.kinds endsSegments
      (· = (path.segments, path.arity)))
    (fromGlobal : Bool) (suffixes : List TypeSuffix) :
    Reads version (nameAt arguments) (TypeTree.named fromGlobal path suffixes).kinds endsType
      (· = (path.segments, path.arity, fromGlobal)) := by
  have hpath := reads_namePath h fromGlobal suffixes
  rw [TypeTree.kinds]
  intro endLine toks rest hk hrest
  cases fromGlobal with
  | true =>
    obtain ⟨l, us, rfl, hus⟩ := kindsOf_eq_cons.1 hk
    obtain ⟨l', vs, rfl, hvs⟩ := kindsOf_eq_cons.1 hus
    obtain ⟨a, ha, hgood⟩ := hpath endLine vs rest hvs hrest
    refine ⟨a, ?_, hgood⟩
    rw [nameAt_apply, if_neg (by simp), if_pos ⟨rfl, rfl⟩]
    exact ha
  | false =>
    obtain ⟨a, ha, hgood⟩ := hpath endLine toks rest hk hrest
    obtain ⟨w, ws, hw⟩ := path.exists_word
    have hhead : headKind (toks ++ rest) = some (.ident w.text false) :=
      headKind_of_kindsOf hk (by simp [globalKinds, hw])
    refine ⟨a, ?_, hgood⟩
    rw [nameAt_of_word (by rw [hhead]; rfl), ha]
    rw [hhead]
    intro hglobal
    exact absurd (Option.some.inj hglobal) w.ne_global

theorem reads_nameAt_tuple
    {arguments : Parse Nat} (elements : Group) (suffixes : List TypeSuffix) :
    Reads version (nameAt arguments) (TypeTree.tuple elements suffixes).kinds endsType
      (· = (["ValueTuple"], 0, false)) := by
  rw [TypeTree.kinds]
  unfold nameAt
  refine .sees (by rintro k rfl; rfl) ?_
  refine (reads_skipGroup rfl elements.balanced).step (fun _ _ => trivial) fun _ _ => ?_
  exact (reads_typeSuffixes suffixes).returning fun _ _ => rfl

/-- A type name is read with its text. -/
theorem reads_typeNameAt
    {path : List String} {arity : Nat} {fromGlobal : Bool}
    (h : Reads version (nameAt (typeArgumentsAt depth)) ks endsType
      (· = (path, arity, fromGlobal))) :
    Reads version (typeNameAt (depth + 1)) ks endsType
      (· = ⟨textOf ks, path, arity, fromGlobal⟩) := by
  intro endLine toks rest hk hrest
  obtain ⟨_, ha, rfl⟩ := h endLine toks rest hk hrest
  refine ⟨_, typeNameAt_succ_eq_ok.2 ⟨path, arity, fromGlobal, ha, rfl⟩, ?_⟩
  rw [List.length_append, Nat.add_sub_cancel, List.take_left, render_eq_textOf hk]

theorem length_angled
    (kss : List (List TokenKind)) (hne : kss ≠ []) :
    (angled kss).length = (listedKinds kss).length + 2 := by
  simp [angled, hne]

/-- A listed thing is not longer than the list. -/
theorem length_le_listedKinds
    {kss : List (List TokenKind)}
    (h : ks ∈ kss) :
    ks.length ≤ (listedKinds kss).length := by
  induction kss with
  | nil => cases h
  | cons js kss ih =>
    have hle : js.length ≤ (listedKinds (js :: kss)).length ∧
        (listedKinds kss).length ≤ (listedKinds (js :: kss)).length := by
      cases kss <;> simp [listedKinds]
      omega
    rcases List.mem_cons.1 h with rfl | h
    · exact hle.1
    · exact Nat.le_trans (ih h) hle.2

mutual

/-- The tokens of a type are read as its name. -/
theorem TypeTree.reads_typeNameAt
    (t : TypeTree) (depth : Nat) (hdepth : t.kinds.length ≤ depth) :
    Reads version (typeNameAt depth) t.kinds endsType (· = t.name) := by
  obtain ⟨depth, rfl⟩ : ∃ d, depth = d + 1 := by
    obtain ⟨j, hj, -⟩ := t.exists_head
    cases hks : t.kinds with
    | nil =>
      rw [hks] at hj
      cases hj
    | cons i js =>
      rw [hks, List.length_cons] at hdepth
      exact ⟨depth - 1, by omega⟩
  match t with
  | .tuple elements suffixes =>
    exact SourceTree.reads_typeNameAt (reads_nameAt_tuple elements suffixes)
  | .named fromGlobal path suffixes =>
    rw [TypeTree.kinds, List.length_append, List.length_append] at hdepth
    refine SourceTree.reads_typeNameAt (reads_nameAt_named ?_ fromGlobal suffixes)
    exact (path.reads_nameRounds depth (by omega) []).mono fun _ h => h

/-- The words of a name are read one by one. -/
theorem PathTree.reads_nameRounds
    (p : PathTree) (depth : Nat) (hdepth : p.kinds.length ≤ depth + 1) (before : List String) :
    Reads version (loop before (nameRound (typeArgumentsAt depth))) p.kinds endsSegments
      (· = (before ++ p.segments, p.arity)) := by
  match p with
  | .last word arguments =>
    rw [PathTree.kinds, List.length_cons] at hdepth
    rw [PathTree.kinds]
    exact .loop_done (reads_nameRound_last
      (fun hne => arguments.reads_typeArgumentsAt hne depth (by omega)) before word.text)
  | .qualified word arguments rest =>
    rw [PathTree.kinds] at hdepth
    simp only [List.length_cons, List.length_append] at hdepth
    have hcons : PathTree.kinds (.qualified word arguments rest) =
        (.ident word.text false :: (angled arguments.kinds ++ [.punct .dot])) ++ rest.kinds := by
      rw [PathTree.kinds]
      simp
    obtain ⟨w, ws, hw⟩ := rest.exists_word
    rw [hcons]
    refine (reads_nameRound_again
      (fun hne => arguments.reads_typeArgumentsAt hne depth (by omega)) before word.text).loop_next
      (by simp) ?_ ?_
    · intro k hk
      exact ⟨w.text, false, shows_of_head? (by rw [hw]; rfl) hk⟩
    · rintro _ rfl
      refine (rest.reads_nameRounds depth (by omega) (before ++ [word.text])).mono fun r hr => ?_
      rw [hr, PathTree.segments, PathTree.arity, List.append_assoc]
      rfl

/-- Type arguments are read and counted. -/
theorem TypeTrees.reads_typeArgumentsAt
    (ts : TypeTrees) (hne : ts.kinds ≠ []) (depth : Nat)
    (hdepth : (angled ts.kinds).length ≤ depth) :
    Reads version (typeArgumentsAt depth) (angled ts.kinds) anything (· = ts.kinds.length) := by
  rw [length_angled _ hne] at hdepth
  obtain ⟨depth, rfl⟩ : ∃ d, depth = d + 1 := ⟨depth - 1, by omega⟩
  refine reads_typeArgumentsAt_angled (fun ks hks => ?_) hne
  exact ts.readsItem depth ks hks (Nat.le_trans (length_le_listedKinds hks) (by omega))

/-- Each type argument is read as one. -/
theorem TypeTrees.readsItem
    (ts : TypeTrees) (depth : Nat) (ks : List TokenKind) (hks : ks ∈ ts.kinds)
    (hdepth : ks.length ≤ depth) :
    ReadsItem version depth ks := by
  match ts with
  | .nil =>
    rw [TypeTrees.kinds] at hks
    cases hks
  | .cons t rest =>
    rw [TypeTrees.kinds, List.mem_cons] at hks
    rcases hks with rfl | hks
    · exact readsItem_type (t.reads_typeNameAt depth hdepth)
    · exact rest.readsItem depth ks hks hdepth

end

/-- A type is read as its name where no further part of a name follows. -/
theorem TypeTree.reads_typeName
    (t : TypeTree) :
    Reads version typeName t.kinds endsType (· = t.name) :=
  .nested fun depth hdepth => t.reads_typeNameAt depth (by omega)

/-- The tokens of a type spell its name. -/
theorem TypeTree.spellsType
    (t : TypeTree) :
    SpellsType t.kinds t.name := by
  obtain ⟨_, hname, rfl⟩ := (t.reads_typeName : Reads .standard _ _ _ _) 0 _ []
    (kindsOf_map t.kinds) (by simp [endsType, isMark])
  rw [List.append_nil] at hname
  have hspells := spellsType_of_typeName hname
  rwa [kindsOf_map] at hspells

/-! ## Type parameters -/

/-- A type parameter starts with a word. -/
theorem TypeParameter.exists_head
    (p : TypeParameter) :
    ∃ w, p.kinds.head? = some (.ident w false) := by
  unfold TypeParameter.kinds
  split <;> exact ⟨_, rfl⟩

theorem TypeParameter.readsItem
    (p : TypeParameter) (depth : Nat) :
    ReadsItem version (depth + 1) p.kinds := by
  have hword : ∀ (ctx : ParseContext) (l : Nat) (rest : List Token),
      endsTypeArgument (headKind rest) →
      attributedType (depth + 1) ctx (⟨.ident p.name.text false, l⟩ :: rest) = .ok ((), rest) := by
    intro ctx l rest hrest
    have hends : endsType (headKind rest) := by
      rcases hrest with hr | hr <;> simp [hr, endsType, isMark]
    rw [attributedType_apply, if_neg (by simp), bind_of_ok (typeNameAt_word hends depth)]
    rfl
  have hname : ¬ isVariance (some (.ident p.name.text false)) := by
    rintro (h | h) <;>
      exact p.name.not_isOtherKeyword ((Option.some.inj h).symm ▸ by decide)
  refine ⟨?_, ?_⟩
  · intro endLine toks rest hk hrest
    refine ⟨(), ?_, trivial⟩
    unfold TypeParameter.kinds at hk
    rw [argumentItem_apply]
    cases hv : p.variance with
    | none =>
      rw [hv] at hk
      obtain ⟨l, us, rfl, hus⟩ := kindsOf_eq_cons.1 hk
      obtain rfl := kindsOf_eq_nil.1 hus
      rw [List.singleton_append, headKind_cons, Identifier.kind, if_neg hname]
      exact hword _ _ _ hrest
    | some goesIn =>
      obtain ⟨w, hkinds, hw⟩ : ∃ w, kindsOf toks = [.ident w false, p.name.kind] ∧
          isVariance (some (.ident w false)) := by
        rw [hv] at hk
        cases goesIn with
        | true => exact ⟨_, hk, .inl rfl⟩
        | false => exact ⟨_, hk, .inr rfl⟩
      obtain ⟨l, us, rfl, hus⟩ := kindsOf_eq_cons.1 hkinds
      obtain ⟨l', vs, rfl, hvs⟩ := kindsOf_eq_cons.1 hus
      obtain rfl := kindsOf_eq_nil.1 hvs
      rw [List.cons_append, headKind_cons, if_pos hw]
      exact hword _ _ _ hrest
  · obtain ⟨w, hw⟩ := p.exists_head
    exact ⟨_, hw, by simp, by simp⟩

/-- Type parameters between angle brackets are read and counted. -/
theorem reads_typeArguments
    {ps : List TypeParameter} (hne : ps ≠ []) :
    Reads version typeArguments (angled (ps.map TypeParameter.kinds)) anything
      (· = ps.length) := by
  refine .nested fun depth hdepth => ?_
  rw [length_angled _ (by simpa using hne)] at hdepth
  obtain ⟨depth, rfl⟩ : ∃ d, depth = d + 2 := ⟨depth - 2, by omega⟩
  refine (reads_typeArgumentsAt_angled (fun ks hks => ?_) (by simpa using hne)).mono
    fun n hn => ?_
  · obtain ⟨p, -, rfl⟩ := List.mem_map.1 hks
    exact p.readsItem depth
  · rw [hn, List.length_map]

/-- Type parameters are read and counted, if there are any. -/
theorem reads_typeParameters
    (ps : List TypeParameter) :
    Reads version typeParameters (angled (ps.map TypeParameter.kinds))
      (· ≠ some (.punct .less)) (· = ps.length) := by
  unfold typeParameters
  cases ps with
  | nil => exact .misses (fun _ hk => hk) (.pure rfl)
  | cons p ps =>
    refine .look (looks_sees rfl rfl) ?_
    exact (reads_typeArguments (by simp)).follow_mono fun _ _ => trivial

end SourceTree
end CSharp
end ContentModels

import ContentModels.Proofs.Parsing.Attributes
import ContentModels.Proofs.SourceTree.Syntax

/-!
# How names of types are written

A name that starts with a word is written as segments with dots or double colons between them,
and question marks, stars and ranks behind the last one (`exists_written`).  Each segment is a
word, perhaps with type arguments, which are read as such by themselves, whatever follows them.
-/

namespace ContentModels
namespace CSharp

open Parse

/-- A segment of a name: a word, and the tokens of its type arguments with their number. -/
structure NameSegment where
  word : String
  verbatim : Bool
  line : Nat
  arguments : List Token
  arity : Nat

namespace NameSegment

def tokens (s : NameSegment) : List Token :=
  ⟨.ident s.word s.verbatim, s.line⟩ :: s.arguments

/-- There are no type arguments, or they are read as so many. -/
def IsRead (ctx : ParseContext) (s : NameSegment) : Prop :=
  (s.arguments = [] ∧ s.arity = 0) ∨ typeArguments ctx s.arguments = .ok (s.arity, [])

end NameSegment

/-- The marks between segments. -/
def separators : List Punct :=
  [.dot, .doubleColon]

/-- The marks that suffixes of a type are made of. -/
def suffixMarks : List Punct :=
  [.question, .star, .openBracket, .comma, .closeBracket]

/-- A segment that qualifies a name, with the mark behind it. -/
structure Qualifier extends NameSegment where
  mark : Token

def Qualifier.tokens (q : Qualifier) : List Token :=
  q.toNameSegment.tokens ++ [q.mark]

/-- A name as it is written. -/
structure WrittenName where
  /-- What makes the name start at the global namespace. -/
  start : List Token
  qualifiers : List Qualifier
  last : NameSegment
  suffixes : List Token

namespace WrittenName

/-- The last segment with what stands behind it. -/
def lastTokens (n : WrittenName) : List Token :=
  n.last.tokens ++ n.suffixes

def tokens (n : WrittenName) : List Token :=
  n.start ++ (n.qualifiers.flatMap Qualifier.tokens ++ n.lastTokens)

/-- The name that is read. -/
def typeName (n : WrittenName) : TypeName where
  text := render n.tokens
  path := n.qualifiers.map (·.word) ++ [n.last.word]
  arity := n.last.arity
  fromGlobal := !n.start.isEmpty

/-- Each part of the name is read as what it is. -/
structure IsRead (ctx : ParseContext) (n : WrittenName) : Prop where
  start : n.start = [] ∨ kindsOf n.start = SourceTree.globalKinds true
  qualifiers : ∀ q ∈ n.qualifiers, q.IsRead ctx ∧ isMark separators (some q.mark.kind)
  last : n.last.IsRead ctx
  suffixes : ∀ t ∈ n.suffixes, isMark suffixMarks (some t.kind)

theorem simpleName_typeName
    (n : WrittenName) :
    n.typeName.simpleName = n.last.word := by
  simp [TypeName.simpleName, typeName]

end WrittenName

/-! ## Reading names -/

namespace Parse

variable {ctx : ParseContext} {ts rest : List Token}

/-- Type arguments are read by themselves as they are read in front of other tokens. -/
theorem typeArguments_of_typeArgumentsAt
    {depth arity : Nat}
    (h : typeArgumentsAt depth ctx ts = .ok (arity, rest)) :
    ∃ toks, ts = toks ++ rest ∧ typeArguments ctx toks = .ok (arity, []) := by
  obtain ⟨toks, rfl, -, -, hreads⟩ := (isStable_readers depth).2.1 ctx ts arity rest h trivial
  obtain ⟨_, hread, rfl⟩ :=
    hreads (toks.length + 1) (Nat.le_succ _) ctx.version ctx.endLine toks [] rfl trivial
  rw [List.append_nil] at hread
  exact ⟨toks, rfl, hread⟩

/-- What a round reads: a segment, with the mark behind it if the name goes on. -/
theorem exists_segment
    {depth : Nat} {path : List String} {r : Round (List String) (List String × Nat)}
    (h : nameRound (typeArgumentsAt depth) path ctx ts = .ok (r, rest)) :
    ∃ s : NameSegment, s.IsRead ctx ∧
      ((r = .done (path ++ [s.word], s.arity) ∧ ts = s.tokens ++ rest) ∨
        ∃ mark : Token, isMark separators (some mark.kind) ∧ r = .again (path ++ [s.word]) ∧
          ts = s.tokens ++ mark :: rest) := by
  obtain ⟨w, b, l, us, rfl⟩ := nameRound_eq_ok h
  have hnext : ∀ s : NameSegment, s.word = w → ∀ mid,
      ⟨.ident w b, l⟩ :: us = s.tokens ++ mid →
      afterSegment (path ++ [w]) s.arity mid = .ok (r, rest) →
      ((r = .done (path ++ [s.word], s.arity) ∧ ⟨.ident w b, l⟩ :: us = s.tokens ++ rest) ∨
        ∃ mark : Token, isMark separators (some mark.kind) ∧ r = .again (path ++ [s.word]) ∧
          ⟨.ident w b, l⟩ :: us = s.tokens ++ mark :: rest) := by
    rintro s rfl mid htokens hafter
    unfold afterSegment at hafter
    split at hafter
    · rename_i hgoes
      obtain ⟨p, l', w', b', l'', vs, hp, rfl⟩ := goesOn_iff.1 hgoes
      cases hafter
      exact .inr ⟨⟨.punct p, l'⟩, by simpa [isMark, separators] using hp, rfl, htokens⟩
    · cases hafter
      exact .inl ⟨rfl, htokens⟩
  rw [nameRound_ident] at h
  split at h
  · split at h
    · cases h
    · rename_i arity mid harguments
      obtain ⟨toks, rfl, hread⟩ := typeArguments_of_typeArgumentsAt harguments
      exact ⟨⟨w, b, l, toks, arity⟩, .inr hread, hnext ⟨w, b, l, toks, arity⟩ rfl mid rfl h⟩
  · exact ⟨⟨w, b, l, [], 0⟩, .inl ⟨rfl, rfl⟩, hnext ⟨w, b, l, [], 0⟩ rfl us rfl h⟩

/-- What all rounds read: qualifying segments and a last one. -/
theorem exists_segments
    {depth n : Nat} {before path : List String} {arity : Nat}
    (h : rounds (nameRound (typeArgumentsAt depth)) n before ctx ts = .ok ((path, arity), rest)) :
    ∃ (qs : List Qualifier) (last : NameSegment),
      (∀ q ∈ qs, q.IsRead ctx ∧ isMark separators (some q.mark.kind)) ∧ last.IsRead ctx ∧
        path = before ++ (qs.map (·.word) ++ [last.word]) ∧ arity = last.arity ∧
        ts = qs.flatMap Qualifier.tokens ++ (last.tokens ++ rest) := by
  refine rounds_induction
    (motive := fun before ts => ∃ (qs : List Qualifier) (last : NameSegment),
      (∀ q ∈ qs, q.IsRead ctx ∧ isMark separators (some q.mark.kind)) ∧ last.IsRead ctx ∧
        path = before ++ (qs.map (·.word) ++ [last.word]) ∧ arity = last.arity ∧
        ts = qs.flatMap Qualifier.tokens ++ (last.tokens ++ rest)) h ?_ ?_
  · intro before ts hdone
    obtain ⟨s, hs, ⟨hr, rfl⟩ | ⟨mark, -, hr, -⟩⟩ := exists_segment hdone
    · cases hr
      exact ⟨[], s, nofun, hs, rfl, rfl, rfl⟩
    · cases hr
  · intro before ts before' mid hagain ih
    obtain ⟨s, hs, ⟨hr, -⟩ | ⟨mark, hmark, hr, rfl⟩⟩ := exists_segment hagain
    · cases hr
    · cases hr
      obtain ⟨qs, last, hqs, hlast, hpath, harity, rfl⟩ := ih
      refine ⟨⟨s, mark⟩ :: qs, last, List.forall_mem_cons.2 ⟨⟨hs, hmark⟩, hqs⟩, hlast, ?_,
        harity, ?_⟩
      · rw [hpath]
        simp
      · simp [Qualifier.tokens]

theorem exists_suffixes
    {endLine : Nat} {inRank : Bool}
    (h : dropTypeSuffixes endLine inRank ts = .ok rest) :
    ∃ suffixes, ts = suffixes ++ rest ∧
      ∀ t ∈ suffixes, isMark suffixMarks (some t.kind) := by
  induction ts generalizing inRank with
  | nil =>
    cases inRank <;> cases h
    exact ⟨[], rfl, nofun⟩
  | cons t ts ih =>
    have hcons : ∀ next p, t.kind = .punct p → p ∈ suffixMarks →
        dropTypeSuffixes endLine next ts = .ok rest →
        ∃ suffixes, t :: ts = suffixes ++ rest ∧
          ∀ t ∈ suffixes, isMark suffixMarks (some t.kind) := by
      intro next p hk hp hnext
      obtain ⟨suffixes, rfl, hsuffixes⟩ := ih hnext
      refine ⟨t :: suffixes, rfl, List.forall_mem_cons.2 ⟨?_, hsuffixes⟩⟩
      rw [hk]
      exact hp
    cases inRank <;> rw [dropTypeSuffixes] at h <;> split at h <;> rename_i hk
    · exact hcons false _ hk (by decide) h
    · exact hcons false _ hk (by decide) h
    · split at h
      · exact hcons true _ hk (by decide) h
      · cases h
        exact ⟨[], rfl, nofun⟩
    · cases h
      exact ⟨[], rfl, nofun⟩
    · exact hcons true _ hk (by decide) h
    · exact hcons false _ hk (by decide) h
    · cases h

/-- The parts of a name behind its start. -/
theorem exists_written_path
    {depth : Nat} {fromGlobal : Bool} {a : List String × Nat × Bool}
    (h : namePath (typeArgumentsAt depth) fromGlobal ctx ts = .ok (a, rest)) :
    ∃ n : WrittenName, n.start = [] ∧ n.IsRead ctx ∧ ts = n.tokens ++ rest ∧
      a = (n.typeName.path, n.typeName.arity, fromGlobal) := by
  obtain ⟨path, arity, fromGlobal'⟩ := a
  obtain ⟨k, mid, u, hrounds, hsuffixes, rfl⟩ := namePath_eq_ok h
  obtain ⟨qs, last, hqs, hlast, hpath, rfl, rfl⟩ := exists_segments hrounds
  obtain ⟨suffixes, rfl, hmarks⟩ := exists_suffixes (typeSuffixes_eq_ok.1 hsuffixes)
  dsimp only at hpath
  rw [List.nil_append] at hpath
  refine ⟨⟨[], qs, last, suffixes⟩, rfl, ⟨.inl rfl, hqs, hlast, hmarks⟩, ?_, ?_⟩
  · simp [WrittenName.tokens, WrittenName.lastTokens]
  · rw [hpath]
    rfl

/-- What makes a name start at the global namespace. -/
theorem exists_start
    (h : (headKind ts).bind TokenKind.keyword? = some "global" ∧
      headKind (ts.drop 1) = some (.punct .doubleColon)) :
    ∃ start, ts = start ++ ts.drop 2 ∧ kindsOf start = SourceTree.globalKinds true := by
  obtain ⟨hkeyword, hmark⟩ := h
  obtain ⟨k, hk, hkeyword⟩ := Option.bind_eq_some_iff.1 hkeyword
  obtain ⟨l, us, rfl⟩ := headKind_eq_some.1 hk
  rw [List.drop_succ_cons, List.drop_zero] at hmark
  obtain ⟨l', us, rfl⟩ := headKind_eq_some.1 hmark
  cases k with
  | ident w b =>
    cases b <;> cases hkeyword
    exact ⟨[⟨.ident "global" false, l⟩, ⟨.punct .doubleColon, l'⟩], rfl, rfl⟩
  | str | character | number | punct => cases hkeyword

/-- A name that starts with a word is read as the name that is written. -/
theorem exists_written
    {name : TypeName}
    (h : typeName ctx ts = .ok (name, rest))
    (hword : ((headKind ts).bind TokenKind.ident?).isSome = true) :
    ∃ n : WrittenName, n.IsRead ctx ∧ ts = n.tokens ++ rest ∧ name = n.typeName := by
  obtain ⟨path, arity, fromGlobal, hname, rfl⟩ := typeNameAt_succ_eq_ok.1 h
  have hparen : headKind ts ≠ some (.punct .openParen) := by
    intro hparen
    rw [hparen] at hword
    cases hword
  have hread : ∀ n : WrittenName, ts = n.tokens ++ rest →
      render (ts.take (ts.length - rest.length)) = n.typeName.text := by
    rintro n rfl
    rw [List.length_append, Nat.add_sub_cancel, List.take_left]
    rfl
  rw [nameAt_apply, if_neg hparen] at hname
  split at hname
  · rename_i hglobal
    obtain ⟨start, hts, hstart⟩ := exists_start hglobal
    obtain ⟨n, hnone, hn, hus, ha⟩ := exists_written_path hname
    have hwritten : ts = { n with start }.tokens ++ rest := by
      rw [hts, hus]
      simp [WrittenName.tokens, WrittenName.lastTokens, hnone]
    refine ⟨{ n with start }, ⟨.inr hstart, hn.qualifiers, hn.last, hn.suffixes⟩, hwritten, ?_⟩
    rw [hread _ hwritten]
    cases ha
    cases start with
    | nil => cases hstart
    | cons => rfl
  · obtain ⟨n, hstart, hn, rfl, ha⟩ := exists_written_path hname
    refine ⟨n, hn, rfl, ?_⟩
    rw [hread n rfl]
    cases ha
    simp [WrittenName.typeName, hstart]

end Parse
end CSharp
end ContentModels

import ContentModels.Proofs.Lexing.Values
import ContentModels.Proofs.Parsing.Remaining

/-!
# The names in a file

A word of a source text has no dot in it.  So a name that is read as one word is one segment
of every dotted name it becomes a part of, and a name that is read as a type name is as many
as it is written with (`answers_typeName`).  What readers answer, when the words they are given
are such, is stated by `Answers`, which goes from parts to sequences, choices and loops.
-/

namespace ContentModels
namespace CSharp

/-! ## Words -/

/-- What can stand between two dots. -/
def IsSegment (w : String) : Prop :=
  w ≠ "" ∧ '.' ∉ w.toList

/-- Every word among some tokens can stand between two dots. -/
def AreNamed (ts : List Token) : Prop :=
  ∀ t ∈ ts, ∀ w, t.kind.ident? = some w → IsSegment w

theorem AreNamed.suffix
    {ts rest : List Token} (h : AreNamed ts) (hsuffix : rest <:+ ts) :
    AreNamed rest :=
  fun t ht => h t (hsuffix.subset ht)

/-- A word that is read from a text has only the characters of words. -/
theorem TokenKind.WellFormed.isSegment
    {w : String} {verbatim : Bool} (h : (TokenKind.ident w verbatim).WellFormed) :
    IsSegment w := by
  obtain ⟨hstart, hpart⟩ := h
  constructor
  · rintro rfl
    cases hstart
  · intro hdot
    exact absurd (hpart '.' hdot) (by decide)

theorem areNamed_of_tokenizeFrom
    {p : Position} {cs : List Char} {l : Lexed} (h : tokenizeFrom p cs = .ok l) :
    AreNamed l.tokens := by
  rintro ⟨k, line⟩ ht w hw
  have hk := wellFormed_of_tokenizeFrom h _ ht
  cases k with
  | ident text verbatim =>
    cases hw
    exact hk.isSegment
  | _ => cases hw

namespace Parse

variable {α β σ : Type}

/-! ## What is answered -/

/-- Where the words can stand between dots, every answer of a reader is good. -/
def Answers (p : Parse α) (good : α → Prop) : Prop :=
  ∀ ctx ts a rest, AreNamed ts → p ctx ts = .ok (a, rest) → good a

namespace Answers

variable {good : α → Prop} {good' : β → Prop}

theorem pure
    {a : α} (h : good a) :
    Answers (pure a) good := by
  intro ctx ts _ rest _ hp
  cases hp
  exact h

theorem bind
    {p : Parse α} {f : α → Parse β} [hdrops : Drops p] (hp : Answers p good)
    (hf : ∀ a, good a → Answers (f a) good') :
    Answers (p >>= f) good' := by
  intro ctx ts b rest hnamed h
  obtain ⟨a, mid, ha, hb⟩ := bind_eq_ok.1 h
  exact hf a (hp ctx ts a mid hnamed ha) ctx mid b rest (hnamed.suffix (hdrops.suffix ha)) hb

/-- Behind a reader whose answer does not count. -/
theorem behind
    {p : Parse α} {f : α → Parse β} [Drops p] (hf : ∀ a, Answers (f a) good') :
    Answers (p >>= f) good' :=
  bind (fun _ _ _ _ _ _ => trivial : Answers p fun _ => True) fun a _ => hf a

theorem ite
    {c : Prop} [Decidable c] {p q : Parse α} (hp : Answers p good) (hq : Answers q good) :
    Answers (if c then p else q) good := by
  split
  · exact hp
  · exact hq

theorem fail
    (fault : Fault) :
    Answers (fail fault) good :=
  fun _ _ _ _ _ h => by cases h

/-- What would follow a failure is not read. -/
theorem fail_bind
    (fault : Fault) (f : α → Parse β) :
    Answers (Parse.fail fault >>= f) good' :=
  fun _ _ _ _ _ h => by cases h

theorem mono
    {p : Parse α} {weaker : α → Prop} (hp : Answers p good) (h : ∀ a, good a → weaker a) :
    Answers p weaker :=
  fun ctx ts a rest hnamed hread => h a (hp ctx ts a rest hnamed hread)

/-- What holds of every state of a loop, and of the result of its last round. -/
def RoundAnswers (state : σ → Prop) (good : β → Prop) : Round σ β → Prop
  | .again s => state s
  | .done b => good b

theorem loop
    {init : σ} {step : σ → Parse (Round σ β)} [hdrops : ∀ s, Drops (step s)] (state : σ → Prop)
    (hinit : state init) (hstep : ∀ s, state s → Answers (step s) (RoundAnswers state good')) :
    Answers (loop init step) good' := by
  intro ctx ts b rest hnamed h
  refine rounds_induction (motive := fun s ts => AreNamed ts → state s → good' b) h ?_ ?_ hnamed hinit
  · exact fun s ts hdone hnamed hs => hstep s hs ctx ts _ rest hnamed hdone
  · exact fun s ts s' mid hagain ih hnamed hs =>
      ih (hnamed.suffix ((hdrops s).suffix hagain)) (hstep s hs ctx ts _ mid hnamed hagain)

theorem nested
    {p : Nat → Parse α} (hp : ∀ depth, Answers (p depth) good) :
    Answers (nested p) good :=
  fun ctx ts a rest hnamed h => hp _ ctx ts a rest hnamed h

theorem withTokens
    {p : Parse α} [Drops p] (hp : Answers p good) :
    Answers (withTokens p) fun x => good x.1 := by
  unfold Parse.withTokens
  exact behind fun _ => hp.bind fun _ ha => behind fun _ => pure ha

end Answers

theorem answers_ident : Answers ident IsSegment := by
  intro ctx ts w rest hnamed h
  cases ts with
  | nil => cases h
  | cons t ts =>
    have hbind := @ident_bind String ctx (t :: ts) pure
    rw [bind_pure, h, headKind_cons, Option.bind_some] at hbind
    split at hbind
    · rename_i hw
      cases hbind
      exact hnamed t List.mem_cons_self _ hw
    · cases hbind

/-- The segments of a name. -/
def HasSegments (path : List String) : Prop :=
  path ≠ [] ∧ ∀ w ∈ path, IsSegment w

theorem answers_nameRound
    {arguments : Parse Nat} [Drops arguments] {path : List String}
    (hpath : ∀ w ∈ path, IsSegment w) :
    Answers (nameRound arguments path)
      (Answers.RoundAnswers (fun path => ∀ w ∈ path, IsSegment w) fun x => HasSegments x.1) := by
  unfold nameRound
  refine answers_ident.bind fun w hw => ?_
  have hmore : ∀ v ∈ path ++ [w], IsSegment v := by
    intro v hv
    rcases List.mem_append.1 hv with hv | hv
    · exact hpath v hv
    · exact List.mem_singleton.1 hv ▸ hw
  dsimp only
  refine .behind fun generic => ?_
  have hnext : ∀ arity, Answers
      (do if ((← sees .dot) || (← sees .doubleColon)) && (← seesIdent 1) then
            advance
            return .again (path ++ [w])
          return .done (path ++ [w], arity) :
        Parse (Round (List String) (List String × Nat)))
      (Answers.RoundAnswers (fun path => ∀ w ∈ path, IsSegment w) fun x => HasSegments x.1) := by
    intro arity
    refine .behind fun dot => .behind fun colons => .behind fun word => .ite ?_ ?_
    · exact .behind fun _ => .pure hmore
    · exact .pure ⟨by simp, hmore⟩
  exact .ite (.behind hnext) (.behind hnext)

theorem answers_nameAt
    {arguments : Parse Nat} [Drops arguments] :
    Answers (nameAt arguments) fun x => HasSegments x.1 := by
  unfold nameAt
  dsimp only
  refine .behind fun tuple => .ite ?_ ?_
  · have htuple : IsSegment "ValueTuple" := ⟨by decide, by decide⟩
    exact .behind fun _ => .behind fun _ => .pure ⟨by simp, by simpa using htuple⟩
  · refine .behind fun fromGlobal => .bind (.loop _ nofun fun path hpath => answers_nameRound hpath) ?_
    exact fun x hx => .behind fun _ => .pure hx

theorem answers_typeName : Answers typeName fun name => HasSegments name.path := by
  refine .nested fun depth => ?_
  cases depth with
  | zero =>
    unfold typeNameAt
    exact .fail _
  | succ depth =>
    rw [typeNameAt_succ]
    exact .bind answers_nameAt.withTokens fun x hx => .pure hx

end Parse
end CSharp
end ContentModels

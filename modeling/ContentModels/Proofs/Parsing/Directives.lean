import ContentModels.Proofs.Generated.Lines
import ContentModels.Proofs.Parsing.Moving

/-!
# Files behind a directive

A directive on a line in front of a file comes into scope for the whole file and moves it one
line down.  That it is marked as global makes no difference to the file: the mark is read,
and then dropped.
-/

namespace ContentModels

open CSharp CSharp.Parse Generated

namespace CSharp

/-! ## The directive as a line -/

/-- The line that brings a namespace into scope, marked as global or not. -/
def directiveLine (isGlobal : Bool) (name : String) : String :=
  (if isGlobal then "global " else "") ++ "using " ++ name ++ ";"

/-- The tokens of a line that brings a namespace into scope. -/
def directiveLineKinds (isGlobal : Bool) (segments : List String) (last : String) :
    List TokenKind :=
  (if isGlobal then [.ident "global" false] else []) ++ usingKinds segments last

/-- Lexemes up to a semicolon are read as they are also when nothing follows. -/
theorem kindsFrom_lexemes
    {xs : List Lexeme} (hvalid : ∀ x ∈ xs, x.Valid) (hchain : Lexeme.chain xs = true)
    (hlast : xs.getLast? = some (.mark .semicolon)) (fresh : Bool) :
    kindsFrom fresh (xs.flatMap Lexeme.text) = Lexeme.allKinds xs := by
  induction xs generalizing fresh with
  | nil => cases hlast
  | cons x xs ih =>
    cases xs with
    | nil =>
      obtain rfl : x = .mark .semicolon := by simpa using hlast
      cases fresh <;> decide +kernel
    | cons y ys =>
      rw [Lexeme.chain, Bool.and_eq_true] at hchain
      obtain ⟨d, ds, hd⟩ := Lexeme.text_ne_nil (hvalid y (by simp))
      have hx := Lexeme.readsBefore_of_fits (hvalid x List.mem_cons_self) (hvalid y (by simp))
        hchain.1 hd
      have hys := ih (fun z hz => hvalid z (List.mem_cons_of_mem _ hz)) hchain.2
        (by rwa [List.getLast?_cons_cons] at hlast)
      have htext : (y :: ys).flatMap Lexeme.text = d :: (ds ++ ys.flatMap Lexeme.text) := by
        rw [List.flatMap_cons, hd]
        rfl
      rw [htext] at hys
      rw [List.flatMap_cons, htext, hx, Lexeme.allKinds]
      simp only [hys]

/-- The words of a directive in front of the name. -/
def directiveFront (isGlobal : Bool) : List Lexeme :=
  (if isGlobal then [.word "global", .blank] else []) ++ [.word "using", .blank]

theorem valid_directiveFront
    (isGlobal : Bool) :
    ∀ x ∈ directiveFront isGlobal, x.Valid := by
  have husing : isWord "using" = true := by decide
  have hglobal : isWord "global" = true := by decide
  cases isGlobal <;> simp [directiveFront, husing, hglobal]

/-- The line of a directive is lexed as such. -/
theorem kindsFrom_directiveLine
    {segments : List String} {last : String} (hsegments : ∀ s ∈ segments, isIdentifier s = true)
    (hlast : isIdentifier last = true) (isGlobal : Bool) :
    kindsFrom true (directiveLine isGlobal (".".intercalate (segments ++ [last]))).toList =
      some (directiveLineKinds isGlobal segments last) := by
  have htext : (directiveLine isGlobal (".".intercalate (segments ++ [last]))).toList =
      (directiveFront isGlobal ++
        (Lexeme.dotted segments last ++ [Lexeme.mark .semicolon])).flatMap Lexeme.text := by
    rw [List.flatMap_append, List.flatMap_append, Lexeme.text_dotted, ← toList_intercalate_dot]
    cases isGlobal <;> simp [directiveLine, directiveFront, Lexeme.text, Punct.text]
  have hchain : Lexeme.chain (directiveFront isGlobal ++
      (Lexeme.dotted segments last ++ [Lexeme.mark .semicolon])) = true := by
    have hbehind : Lexeme.chain (.blank :: (Lexeme.dotted segments last ++ [.mark .semicolon])) =
        true := by
      rw [Lexeme.chain_dotted]
      rfl
    cases isGlobal
    · exact hbehind
    · exact hbehind
  have hvalid : ∀ x ∈ directiveFront isGlobal ++
      (Lexeme.dotted segments last ++ [Lexeme.mark .semicolon]), x.Valid := by
    intro x hx
    rcases List.mem_append.1 hx with hx | hx
    · exact valid_directiveFront isGlobal x hx
    · rcases List.mem_append.1 hx with hx | hx
      · exact Lexeme.valid_dotted (fun s hs => isWord_of_isIdentifier (hsegments s hs))
          (isWord_of_isIdentifier hlast) x hx
      · obtain rfl := List.mem_singleton.1 hx
        exact (by decide : Punct.semicolon ∈ Piece.simpleMarks)
  rw [htext, kindsFrom_lexemes hvalid hchain (by simp), Lexeme.allKinds_append,
    Lexeme.allKinds_dotted]
  cases isGlobal <;> simp [directiveFront, directiveLineKinds, usingKinds, dottedKinds,
    Lexeme.allKinds, Lexeme.kinds]

/-! ## The directive as a step in reading a file -/

/-- The text of a dotted name is the name. -/
theorem render_dotted
    {segments : List String} {last : String} {toks : List Token}
    (h : kindsOf toks = dottedKinds segments last) :
    render toks = ".".intercalate (segments ++ [last]) := by
  have hrenderings : ∀ (segments : List String) (toks : List Token),
      kindsOf toks = dottedKinds segments last →
        String.join (renderings false toks) = ".".intercalate (segments ++ [last]) := by
    intro segments
    induction segments with
    | nil =>
      intro toks h
      obtain ⟨l, ts, rfl, hts⟩ := kindsOf_eq_cons.1 h
      obtain rfl := kindsOf_eq_nil.1 hts
      simp [renderings, TokenKind.text]
    | cons s segments ih =>
      intro toks h
      obtain ⟨l, ts, rfl, hts⟩ := kindsOf_eq_cons.1 h
      obtain ⟨l', ts', rfl, hts'⟩ := kindsOf_eq_cons.1 hts
      rw [List.cons_append, String.intercalate_cons_of_ne_nil (by simp), ← ih ts' hts']
      simp [renderings, TokenKind.text, TokenKind.isWord, Punct.text, String.append_assoc]
  exact hrenderings segments toks h

/-- The directive that brings a namespace into scope. -/
def importing (segments : List String) (last : String) : UsingDirective :=
  ⟨.namespaceMembers, ".".intercalate (segments ++ [last]), segments ++ [last], 0, false⟩

/-- A dotted name is read as it is. -/
theorem reads_dottedName
    (version : LanguageVersion) (segments : List String) (last : String) :
    Reads version typeName (dottedKinds segments last) endsType
      (· = (importing segments last).target) := by
  intro endLine toks rest hk hrest
  have hname := @typeName_dotted ⟨version, endLine⟩ segments last toks hk
  obtain ⟨toks', htoks, -, -, hreads⟩ := repeats_typeName hname (by simp [endsType, isMark])
  rw [List.append_nil] at htoks
  subst htoks
  obtain ⟨name, hname', rfl⟩ := hreads version endLine toks rest rfl hrest
  exact ⟨_, hname', by rw [render_dotted hk]; rfl⟩

/-- A directive on a line of its own is read as such, if the version has its mark. -/
theorem reads_directive
    {version : LanguageVersion} {segments : List String} {last : String} {isGlobal : Bool}
    (hsegments : ∀ s ∈ segments ++ [last], s ≠ "static")
    (hversion : isGlobal = true → version.supports .globalUsing = true) :
    Reads version usingDirective (directiveLineKinds isGlobal segments last) anything
      (· = importing segments last) := by
  obtain ⟨w, k, hw, hmem, hk, hassign⟩ :=
    @exists_head_dotted [.punct .semicolon] segments last .semicolon rfl nofun
  have hstatic : ((TokenKind.ident w false).keyword? == some "static") = false := by
    simpa [TokenKind.keyword?] using hsegments w hmem
  have hbehind (line : Nat) : Reads version (do
      advance
      let kind ←
        if ← seesKeyword "static" then
          require .usingStatic line
          advance
          pure .staticMembers
        else if (← seesIdent) && (← sees .assign 1) then
          let name ← ident
          advance
          pure (.named name)
        else pure .namespaceMembers
      let target ← typeName
      expect .semicolon
      return (⟨kind, target⟩ : UsingDirective)) (usingKinds segments last) anything
      (· = importing segments last) := by
    refine (reads_advance _).bind hw trivial fun _ _ => ?_
    refine .look (looks_seesKeyword hw hstatic) ?_
    refine .look (looks_seesIdent hw rfl) ?_
    refine .look (looks_sees hk rfl) ?_
    rw [if_neg Bool.false_ne_true, if_neg (by simp [hassign])]
    refine (reads_dottedName version segments last).bind rfl (by simp [endsType, isMark]) ?_
    rintro _ rfl
    exact (reads_expect .semicolon).bind_last fun _ _ => .pure rfl
  unfold usingDirective
  refine .line fun line => ?_
  cases isGlobal with
  | true =>
    refine .look (looks_seesKeyword rfl rfl) ?_
    refine .require (hversion rfl) ?_
    exact (reads_advance _).bind rfl trivial fun _ _ => hbehind line
  | false => exact .look (looks_seesKeyword rfl rfl) (hbehind line)

/-- A directive is one step in reading a file. -/
theorem reads_directiveRound
    {version : LanguageVersion} {segments : List String} {last : String} {isGlobal : Bool}
    (hsegments : ∀ s ∈ segments ++ [last], s ≠ "static")
    (hversion : isGlobal = true → version.supports .globalUsing = true) (depth : Nat)
    (s : NamespaceState) :
    Reads version (namespaceRound depth false s) (directiveLineKinds isGlobal segments last) anything
      (· = .again (s.addUsing (importing segments last))) := by
  have hround : Reads version
      (do return .again (s.addUsing (← usingDirective)) : Parse (Round NamespaceState Contents))
      (directiveLineKinds isGlobal segments last) anything
      (· = .again (s.addUsing (importing segments last))) :=
    (reads_directive hsegments hversion).bind_last fun _ hd => .pure (by rw [hd])
  cases isGlobal with
  | true =>
    refine SourceTree.reads_namespaceRound (i := .ident "global" false) rfl nofun nofun false ?_
    exact SourceTree.reads_seesUsing (b := true) (by rintro _ _ rfl rfl; rfl) hround
  | false =>
    refine SourceTree.reads_namespaceRound (i := .ident "using" false) rfl nofun nofun false ?_
    exact SourceTree.reads_seesUsing (b := true) (by rintro _ _ rfl -; rfl) hround

/-! ## Bounds on nesting -/

/-- What one reader reads another one reads with the same answer. -/
def Extends {α : Type} (p q : Parse α) : Prop :=
  ∀ ctx ts x, p ctx ts = .ok x → q ctx ts = .ok x

namespace Extends

variable {α β σ : Type}

theorem rfl
    {p : Parse α} :
    Extends p p :=
  fun _ _ _ h => h

theorem bind
    {p q : Parse α} {f g : α → Parse β} (h : Extends p q) (hf : ∀ a, Extends (f a) (g a)) :
    Extends (p >>= f) (q >>= g) := by
  intro ctx ts x hx
  obtain ⟨a, mid, ha, hmid⟩ := bind_eq_ok.1 hx
  exact bind_eq_ok.2 ⟨a, mid, h _ _ _ ha, hf a _ _ _ hmid⟩

/-- What follows a reader may be extended. -/
theorem behind
    {p : Parse α} {f g : α → Parse β} (hf : ∀ a, Extends (f a) (g a)) :
    Extends (p >>= f) (p >>= g) :=
  rfl.bind hf

theorem ite
    {p q p' q' : Parse α} (c : Prop) [Decidable c] (h : Extends p q) (h' : Extends p' q') :
    Extends (if c then p else p') (if c then q else q') := by
  split
  · exact h
  · exact h'

theorem rounds
    {step step' : σ → Parse (Round σ β)} (h : ∀ s, Extends (step s) (step' s)) (n : Nat) (s : σ) :
    Extends (Parse.rounds step n s) (Parse.rounds step' n s) := by
  induction n generalizing s with
  | zero => exact rfl
  | succ n ih =>
    rw [rounds_succ, rounds_succ]
    refine (h s).bind fun round => ?_
    cases round with
    | again s => exact ih s
    | done b => exact rfl

end Extends

/-- A step in reading a namespace is extended where what is read of blocks inside is. -/
theorem extends_namespaceRound
    {i j : Nat}
    (h : ∀ name scope, Extends (namespaceMembersAt i name scope true)
      (namespaceMembersAt j name scope true))
    (inBlock : Bool) (s : NamespaceState) :
    Extends (namespaceRound i inBlock s) (namespaceRound j inBlock s) := by
  have hitem : Extends (SourceTree.itemRound i s) (SourceTree.itemRound j s) := by
    unfold SourceTree.itemRound
    refine .behind fun _ => .ite _ .rfl (.behind fun _ => .ite _ .rfl (.behind fun _ => .ite _ ?_ .rfl))
    refine .behind fun _ => .behind fun _ => .behind fun _ => .behind fun _ => .ite _ .rfl ?_
    exact .behind fun _ => (h _ _).bind fun _ => .rfl
  have hgoes : Extends
      (do
        if (← seesKeyword "extern") && (← seesKeyword "alias" 1) then
          skipStatement
          return .again s
        SourceTree.itemRound i s)
      (do
        if (← seesKeyword "extern") && (← seesKeyword "alias" 1) then
          skipStatement
          return .again s
        SourceTree.itemRound j s) :=
    .behind fun _ => .behind fun _ => .ite _ .rfl hitem
  unfold namespaceRound
  refine .behind fun _ => .ite _ .rfl ?_
  cases inBlock with
  | true => exact .behind fun _ => .ite _ .rfl hgoes
  | false => exact hgoes

/-- What is read of a namespace is read under every larger bound on nesting. -/
theorem extends_namespaceMembersAt
    {i j : Nat} (h : i ≤ j) (name : String) (scope : List UsingDirective) (inBlock : Bool) :
    Extends (namespaceMembersAt i name scope inBlock) (namespaceMembersAt j name scope inBlock) := by
  induction i generalizing j name scope inBlock with
  | zero =>
    intro ctx ts x hx
    unfold namespaceMembersAt at hx
    cases hx
  | succ i ih =>
    obtain ⟨j, rfl⟩ : ∃ k, j = k + 1 := ⟨j - 1, by omega⟩
    rw [namespaceMembersAt_succ, namespaceMembersAt_succ]
    exact fun ctx ts => Extends.rounds
      (extends_namespaceRound (fun _ _ => ih (by omega) _ _ _) inBlock) _ _ ctx ts

/-- Steps that read a part of a file up to its end read it under larger bounds. -/
theorem rounds_extend
    {i j k l : Nat} {s : NamespaceState} {ctx : ParseContext} {ts rest : List Token} {c : Contents}
    (h : rounds (namespaceRound i false) k s ctx ts = .ok (c, rest)) (hij : i ≤ j) (hkl : k ≤ l) :
    rounds (namespaceRound j false) l s ctx ts = .ok (c, rest) :=
  rounds_mono (Extends.rounds
    (extends_namespaceRound (fun _ _ => extends_namespaceMembersAt hij _ _ _) false) _ _ _ _ _ h) hkl

/-! ## The file behind the directive -/

section

variable {version : LanguageVersion} {segments : List String} {last : String} {isGlobal : Bool}

/-- Where the reader of a file stands behind a directive. -/
def behindDirective (d : UsingDirective) : NamespaceState :=
  ⟨"", [d], ⟨[d], [], []⟩⟩

/-- What is read of a file behind a directive. -/
theorem fileContents_directive
    (hsegments : ∀ s ∈ segments ++ [last], s ≠ "static")
    (hversion : isGlobal = true → version.supports .globalUsing = true)
    {toks : List Token} (htoks : kindsOf toks = directiveLineKinds isGlobal segments last)
    (endLine : Nat) (ts : List Token) :
    fileContents ⟨version, endLine⟩ (toks ++ ts) =
      rounds (namespaceRound (toks ++ ts).length false) (toks ++ ts).length
        (behindDirective (importing segments last)) ⟨version, endLine⟩ ts := by
  obtain ⟨r, hr, rfl⟩ := reads_directiveRound hsegments hversion (toks ++ ts).length
    ⟨"", [], .empty⟩ endLine toks ts htoks trivial
  show namespaceMembersAt ((toks ++ ts).length + 1) "" [] false _ _ = _
  rw [namespaceMembersAt_succ]
  unfold loop
  rw [rounds_succ, bind_of_ok hr]
  rfl

end

/-- Words and marks that need no feature may stand in front. -/
theorem checkTokens_append
    {toks : List Token} (h : ∀ k ∈ kindsOf toks, isFree k = true) (version : LanguageVersion)
    (ts : List Token) :
    checkTokens version (toks ++ ts) = checkTokens version ts := by
  induction toks with
  | nil => rfl
  | cons t toks ih =>
    rw [kindsOf_cons] at h
    rw [List.cons_append, checkTokens, neededFeatures_of_isFree (h _ List.mem_cons_self)]
    exact ih fun k hk => h k (List.mem_cons_of_mem _ hk)

theorem checkTokens_moved
    (version : LanguageVersion) (n : Nat) (ts : List Token) :
    checkTokens version (ts.map (.moved n)) = (checkTokens version ts).mapError (.moved n) := by
  induction ts with
  | nil => rfl
  | cons t ts ih =>
    have hhead : (ts.map (Token.moved n)).head?.map (·.kind) = ts.head?.map (·.kind) := by
      cases ts <;> rfl
    rw [List.map_cons, checkTokens, checkTokens, hhead, ih, show (t.moved n).kind = t.kind from rfl]
    split <;> rfl

/-- The line of the last token, on which a fault is reported where no token is left. -/
def endLine (ts : List Token) : Nat :=
  (ts.getLast?.map (·.line)).getD 1

theorem endLine_append
    (toks : List Token) {ts : List Token} (h : ts ≠ []) (n : Nat) :
    endLine (toks ++ ts.map (.moved n)) = endLine ts + n := by
  unfold endLine
  rw [List.getLast?_append_of_ne_nil _ (by simpa using h), List.getLast?_map,
    List.getLast?_eq_some_getLast h]
  rfl

/-- Behind a line the last token is further down, and where there is none it does not count. -/
theorem rounds_endLine
    {i k : Nat} (hk : 0 < k) (s : NamespaceState) (version : LanguageVersion) (n : Nat)
    (toks ts : List Token) :
    rounds (namespaceRound i false) k s ⟨version, endLine (toks ++ ts.map (.moved n))⟩
        (ts.map (.moved n)) =
      rounds (namespaceRound i false) k s (movedContext n ⟨version, endLine ts⟩)
        (ts.map (.moved n)) := by
  cases ts with
  | nil =>
    obtain ⟨k, rfl⟩ : ∃ m, k = m + 1 := ⟨k - 1, by omega⟩
    rfl
  | cons t ts =>
    rw [endLine_append toks (by simp)]
    rfl

/-- A file is read in three passes, of which the second one only checks. -/
theorem parseUnit_eq_ok
    {file source : String} {version : LanguageVersion} {u : CompilationUnit} :
    parseUnit file source version = .ok u ↔
      ∃ lexed c rest, tokenize source = .ok lexed ∧ checkTokens version lexed.tokens = .ok () ∧
        fileContents ⟨version, endLine lexed.tokens⟩ lexed.tokens = .ok (c, rest) ∧
        u = ⟨file, Text.occursIn generatedMark.toList lexed.leadingComments, c.usings,
          c.assemblyAttributes, c.types⟩ := by
  constructor
  · intro h
    have hparse : parseSource file source version = .ok u := by
      unfold parseUnit at h
      split at h
      · rename_i hparse
        rw [hparse, Except.ok.inj h]
      · cases h
    obtain ⟨lexed, hlexed, hparse⟩ := Outcome.bind_eq_ok.1 hparse
    obtain ⟨_, hcheck, hparse⟩ := Outcome.bind_eq_ok.1 hparse
    obtain ⟨⟨c, rest⟩, hread, hparse⟩ := Outcome.bind_eq_ok.1 hparse
    exact ⟨lexed, c, rest, hlexed, hcheck, hread, (Except.ok.inj hparse).symm⟩
  · rintro ⟨lexed, c, rest, hlexed, hcheck, hread, rfl⟩
    unfold parseUnit
    rw [parseSource_of_fileContents file hlexed hcheck hread]

/-! ## Texts behind the line of a directive -/

/-- No comment stands in front of a text that starts with a word. -/
theorem leadingComments_of_word
    {p : Position} {cs : List Char} {l : Lexed} (hcs : cs.head?.any Piece.isIdentStart = true)
    (h : tokenizeFrom p cs = .ok l) :
    l.leadingComments = [] := by
  cases cs with
  | nil => cases hcs
  | cons c cs =>
    rw [tokenizeFrom_cons, Piece.read_word (by simpa using hcs), Piece.readIdent] at h
    dsimp only at h
    generalize tokenizeFrom _ _ = r at h
    cases r with
    | error d => cases h
    | ok rest =>
      obtain rfl := Except.ok.inj h
      rfl

section

variable {segments : List String} {last : String}
variable (hsegments : ∀ s ∈ segments, isIdentifier s = true) (hlast : isIdentifier last = true)
include hsegments hlast

theorem ne_static_of_segments :
    ∀ s ∈ segments ++ [last], s ≠ "static" := by
  intro s hs
  rcases List.mem_append.1 hs with hs | hs
  · exact ne_of_isIdentifier (hsegments s hs) (by decide)
  · exact List.mem_singleton.1 hs ▸ ne_of_isIdentifier hlast (by decide)

/-- The tokens of the line of a directive need no feature by themselves. -/
theorem isFree_directiveLineKinds
    (isGlobal : Bool) :
    ∀ k ∈ directiveLineKinds isGlobal segments last, isFree k = true := by
  have hword : ∀ {w}, isIdentifier w = true → isFree (.ident w false) = true := by
    intro w hw
    simp [isFree, ne_of_isIdentifier hw (w := "default") (by decide)]
  intro k hk
  simp only [directiveLineKinds, usingKinds, dottedKinds, qualifierKinds, List.mem_append,
    List.mem_flatMap, List.mem_cons, List.not_mem_nil, or_false] at hk
  rcases hk with hk | rfl | (⟨s, hs, rfl | rfl⟩ | rfl) | rfl
  · cases isGlobal <;> simp at hk
    subst hk
    decide
  · decide
  · exact hword (hsegments s hs)
  · rfl
  · exact hword hlast
  · rfl

/-- The line of a directive is lexed without comments. -/
theorem exists_lexed_directiveLine
    (isGlobal : Bool) :
    ∃ l, tokenizeFrom .start
        (directiveLine isGlobal (".".intercalate (segments ++ [last]))).toList = .ok l ∧
      kindsOf l.tokens = directiveLineKinds isGlobal segments last ∧ l.leadingComments = [] ∧
      '\n' ∉ (directiveLine isGlobal (".".intercalate (segments ++ [last]))).toList := by
  have hkinds := toOption_tokenizeFrom .start
    (directiveLine isGlobal (".".intercalate (segments ++ [last]))).toList
  rw [show Position.start.fresh = true from rfl,
    kindsFrom_directiveLine hsegments hlast isGlobal] at hkinds
  obtain ⟨l, hl, hkinds⟩ := Option.map_eq_some_iff.1 hkinds
  have hl := Outcome.ok_of_toOption hl
  refine ⟨l, hl, hkinds, ?_, ?_⟩
  · refine leadingComments_of_word ?_ hl
    unfold directiveLine
    rw [String.toList_append, String.toList_append, String.toList_append]
    cases isGlobal <;> simp <;> decide
  · have hpart : ∀ {w}, isIdentifier w = true → '\n' ∉ w.toList := by
      intro w hw hmem
      obtain ⟨c, cs, htext, -, hpart⟩ := Lexeme.head_of_isWord (isWord_of_isIdentifier hw)
      have hfeed := hpart '\n' (htext ▸ hmem)
      revert hfeed
      decide
    have hname : '\n' ∉ (".".intercalate (segments ++ [last])).toList := by
      rw [toList_intercalate_dot]
      intro hmem
      rcases List.mem_append.1 hmem with hmem | hmem
      · obtain ⟨s, hs, hmem⟩ := List.mem_flatMap.1 hmem
        rcases List.mem_append.1 hmem with hmem | hmem
        · exact hpart (hsegments s hs) hmem
        · exact absurd (List.mem_singleton.1 hmem) (by decide)
      · exact hpart hlast hmem
    unfold directiveLine
    rw [String.toList_append, String.toList_append, String.toList_append]
    cases isGlobal <;> simp only [List.mem_append, hname] <;> decide

/-- A text behind the line of a directive is lexed as before, one line further down. -/
theorem exists_tokenize_directiveLine
    (isGlobal : Bool) :
    ∃ l : Lexed, kindsOf l.tokens = directiveLineKinds isGlobal segments last ∧
      l.leadingComments = [] ∧ l.tokens ≠ [] ∧ ∀ source,
        tokenize (directiveLine isGlobal (".".intercalate (segments ++ [last])) ++ "\n" ++ source) =
          ((tokenize source).mapError (.moved 1)).map fun m => l.append (m.moved 1) := by
  obtain ⟨l, hl, hkinds, hcomments, hline⟩ := exists_lexed_directiveLine hsegments hlast isGlobal
  refine ⟨l, hkinds, hcomments, ?_, fun source => ?_⟩
  · rintro hnil
    rw [hnil] at hkinds
    simp [directiveLineKinds, usingKinds, kindsOf] at hkinds
  · have htokens := tokenizeFrom_line hl hline source.toList
    unfold tokenize
    rwa [String.toList_append, String.toList_append, List.append_assoc]

/-- What a text behind the line of a directive is read as. -/
theorem parseUnit_directiveLine
    {version : LanguageVersion} (isGlobal : Bool)
    (hversion : isGlobal = true → version.supports .globalUsing = true) (file source : String)
    (u : CompilationUnit) :
    parseUnit file (directiveLine isGlobal (".".intercalate (segments ++ [last])) ++ "\n" ++ source)
        version = .ok u ↔
      ∃ lexed c rest, tokenize source = .ok lexed ∧ checkTokens version lexed.tokens = .ok () ∧
        rounds (namespaceRound ((directiveLineKinds isGlobal segments last).length +
            lexed.tokens.length) false)
          ((directiveLineKinds isGlobal segments last).length + lexed.tokens.length)
          (behindDirective (importing segments last))
          (movedContext 1 ⟨version, endLine lexed.tokens⟩) (lexed.tokens.map (.moved 1)) =
            .ok (c, rest) ∧
        u = ⟨file, false, c.usings, c.assemblyAttributes, c.types⟩ := by
  obtain ⟨l, hkinds, hcomments, hne, hlexed⟩ :=
    exists_tokenize_directiveLine hsegments hlast isGlobal
  rw [parseUnit_eq_ok, hlexed]
  cases tokenize source with
  | error d => simp [Except.mapError, Except.map]
  | ok lexed =>
    have hfront : Text.occursIn generatedMark.toList (l.append (lexed.moved 1)).leadingComments =
        false := by
      unfold Lexed.append
      rw [if_neg hne, hcomments]
      rfl
    have hcheck : checkTokens version (l.append (lexed.moved 1)).tokens = .ok () ↔
        checkTokens version lexed.tokens = .ok () := by
      rw [show (l.append (lexed.moved 1)).tokens = l.tokens ++ lexed.tokens.map (.moved 1) from rfl,
        checkTokens_append (hkinds ▸ isFree_directiveLineKinds hsegments hlast isGlobal),
        checkTokens_moved]
      cases checkTokens version lexed.tokens <;> simp [Except.mapError]
    have hread : fileContents ⟨version, endLine (l.append (lexed.moved 1)).tokens⟩
          (l.append (lexed.moved 1)).tokens =
        rounds (namespaceRound (l.tokens.length + lexed.tokens.length) false)
          (l.tokens.length + lexed.tokens.length) (behindDirective (importing segments last))
          (movedContext 1 ⟨version, endLine lexed.tokens⟩) (lexed.tokens.map (.moved 1)) := by
      have hcontents := fileContents_directive (ne_static_of_segments hsegments hlast) hversion
        hkinds (endLine (l.tokens ++ lexed.tokens.map (.moved 1))) (lexed.tokens.map (.moved 1))
      rw [List.length_append, List.length_map] at hcontents
      have hpos : 0 < l.tokens.length + lexed.tokens.length :=
        Nat.add_pos_left (List.length_pos_iff.2 hne) _
      exact hcontents.trans (rounds_endLine hpos _ version 1 l.tokens lexed.tokens)
    rw [← hkinds, length_kindsOf]
    constructor
    · rintro ⟨_, c, rest, hwhole, hchecked, hc, rfl⟩
      obtain rfl := Except.ok.inj hwhole
      exact ⟨lexed, c, rest, rfl, hcheck.1 hchecked, hread.symm.trans hc, by rw [hfront]⟩
    · rintro ⟨_, c, rest, hsource, hchecked, hc, rfl⟩
      obtain rfl := Except.ok.inj hsource
      exact ⟨_, c, rest, rfl, hcheck.2 hchecked, hread.trans hc, by rw [hfront]⟩

/-- It makes no difference that a directive is marked as global. -/
theorem parseUnit_global
    {version : LanguageVersion} (hversion : version.supports .globalUsing = true)
    {file source : String} {u v : CompilationUnit}
    (hu : parseUnit file (directiveLine false (".".intercalate (segments ++ [last])) ++ "\n" ++ source)
      version = .ok u)
    (hv : parseUnit file (directiveLine true (".".intercalate (segments ++ [last])) ++ "\n" ++ source)
      version = .ok v) :
    v = u := by
  obtain ⟨lexed, c, rest, hsource, -, hc, rfl⟩ :=
    (parseUnit_directiveLine hsegments hlast false nofun file source u).1 hu
  obtain ⟨lexed', c', rest', hsource', -, hc', rfl⟩ :=
    (parseUnit_directiveLine hsegments hlast true (fun _ => hversion) file source v).1 hv
  obtain rfl := Except.ok.inj (hsource.symm.trans hsource')
  -- The mark is one more token, and so leaves the reader one more round.
  have hmore : (directiveLineKinds false segments last).length ≤
      (directiveLineKinds true segments last).length := by
    simp [directiveLineKinds]
  have hextended := rounds_extend hc (Nat.add_le_add_right hmore _) (Nat.add_le_add_right hmore _)
  obtain ⟨rfl, -⟩ := Prod.mk.inj (Except.ok.inj (hextended.symm.trans hc'))
  rfl

/-- A directive on a line in front comes into scope and moves the file one line down. -/
theorem parseUnit_behind
    {version : LanguageVersion} {isGlobal : Bool}
    (hversion : isGlobal = true → version.supports .globalUsing = true)
    {file source : String} {u : CompilationUnit} (hu : parseUnit file source version = .ok u) :
    parseUnit file (directiveLine isGlobal (".".intercalate (segments ++ [last])) ++ "\n" ++ source)
      version = .ok (u.moved 1 [importing segments last]) := by
  obtain ⟨lexed, c, rest, hlexed, hcheck, hc, rfl⟩ := parseUnit_eq_ok.1 hu
  refine (parseUnit_directiveLine hsegments hlast isGlobal hversion file source _).2
    ⟨lexed, c.moved 1 [importing segments last] [importing segments last], rest.map (.moved 1),
      hlexed, hcheck, ?_, rfl⟩
  have hrounds : rounds (namespaceRound lexed.tokens.length false) (lexed.tokens.length + 1)
      ⟨"", [], .empty⟩ ⟨version, endLine lexed.tokens⟩ lexed.tokens = .ok (c, rest) := by
    have hread : namespaceMembersAt (lexed.tokens.length + 1) "" [] false
        ⟨version, endLine lexed.tokens⟩ lexed.tokens = .ok (c, rest) := hc
    rwa [namespaceMembersAt_succ] at hread
  have hmoved := Moves.rounds (@moves_namespaceRound 1 [importing segments last]
    [importing segments last] lexed.tokens.length (moves_namespaceMembersAt _) false)
    (lexed.tokens.length + 1) ⟨"", [], .empty⟩ ⟨version, endLine lexed.tokens⟩ lexed.tokens
  rw [hrounds] at hmoved
  have hpos : 0 < (directiveLineKinds isGlobal segments last).length := by
    simp [directiveLineKinds, usingKinds]
  exact rounds_extend hmoved (by omega) (by omega)

end

end CSharp
end ContentModels

import ContentModels.Generated.Layout
import ContentModels.Proofs.Lexing.Words
import ContentModels.Proofs.Parsing.Spelling

/-!
# Lines of generated code as lexemes

A line of generated code is a sequence of blanks, words and marks, and of pieces that come
from settings and schema: literals, types and the names of getters.  If each lexeme is
delimited by the next one, the tokens of the line are those of its lexemes, and the line
has a fault if one of its pieces does (`readsAs_lexemes`).
-/

namespace ContentModels
namespace Generated

open CSharp

/-- A word that is lexed as one identifier or keyword. -/
def isWord (w : String) : Bool :=
  w.toList.head?.any Piece.isIdentStart && w.toList.all Piece.isIdentPart

/-- A part of a line of generated code. -/
inductive Lexeme where
  | tab
  | blank
  | word (w : String)
  | mark (p : Punct)
  | arrow
  /-- A text with what it is read as in front of some characters. -/
  | piece (text : String) (r : Option (List TokenKind)) (next : List Char)

namespace Lexeme

/-- The characters of a lexeme. -/
def text : Lexeme → List Char
  | tab => ['\t']
  | blank => [' ']
  | word w => w.toList
  | mark p => p.text.toList
  | arrow => ['=', '>']
  | piece t _ _ => t.toList

/-- What a lexeme is read as. -/
def kinds : Lexeme → Option (List TokenKind)
  | tab | blank => some []
  | word w => some [.ident w false]
  | mark p => some [.punct p]
  | arrow => some [.punct .arrow]
  | piece _ r _ => r

/-- A lexeme that is read as it should be. -/
def Valid : Lexeme → Prop
  | tab | blank | arrow => True
  | word w => isWord w = true
  | mark p => p ∈ Piece.simpleMarks
  | piece t r next =>
    (∃ c cs, t.toList = c :: cs ∧ c ≠ '=') ∧ ∀ d ∈ next, ReadsBefore t.toList r d

@[simp] theorem valid_tab : tab.Valid := by
  trivial

@[simp] theorem valid_blank : blank.Valid := by
  trivial

@[simp] theorem valid_arrow : arrow.Valid := by
  trivial

@[simp] theorem valid_word
    {w : String} :
    (word w).Valid ↔ isWord w = true := by
  rfl

@[simp] theorem valid_mark
    {p : Punct} :
    (mark p).Valid ↔ p ∈ Piece.simpleMarks := by
  rfl

/-- Whether a lexeme is read as it should be in front of another one. -/
def fits : Lexeme → Lexeme → Bool
  | tab, _ | blank, _ | arrow, _ => true
  | word _, y =>
    match y with
    | tab | blank | mark _ => true
    | _ => false
  | mark p, y =>
    match y with
    | tab | blank | word _ => true
    | mark q => ((p.text ++ q.text).toList.tail.head?.bind fun d =>
        p.text.toList.head?.bind (Punct.ofChars? · d)).isNone
    | piece _ _ _ => p == .openParen || p == .less
    | arrow => false
  | piece _ _ next, y =>
    match y with
    | blank => next.contains ' '
    | mark p => p.text.toList.head?.any next.contains
    | _ => false

/-- Whether a lexeme is read as it should be at the end of a line. -/
def fitsEnd : Lexeme → Bool
  | piece _ _ next => next.contains '\n'
  | _ => true

/-- Whether each of some lexemes is delimited by the next one. -/
def chain : List Lexeme → Bool
  | [] => true
  | [x] => x.fitsEnd
  | x :: y :: xs => x.fits y && chain (y :: xs)

/-- What lexemes are read as, one after the other. -/
def allKinds : List Lexeme → Option (List TokenKind)
  | [] => some []
  | x :: xs => x.kinds.bind fun ks => (allKinds xs).map (ks ++ ·)

/-- Marks have one character each, which is no part of a word. -/
theorem text_simpleMark
    {p : Punct}
    (h : p ∈ Piece.simpleMarks) :
    ∃ c, p.text.toList = [c] ∧ Piece.isIdentPart c = false ∧ c.isDigit = false := by
  simp only [Piece.simpleMarks, List.mem_cons, List.not_mem_nil, or_false] at h
  rcases h with rfl | rfl | rfl | rfl | rfl | rfl | rfl | rfl | rfl | rfl | rfl | rfl | rfl <;>
    exact ⟨_, rfl, by decide, by decide⟩

theorem ofChars?_of_forall
    {c d : Char}
    (h : ∀ p : Punct, p.text.toList ≠ [c, d]) :
    Punct.ofChars? c d = none := by
  cases hp : Punct.ofChars? c d with
  | none => rfl
  | some p => exact absurd (Punct.text_ofChars? hp) (h p)

/-- No mark ends with a part of a word, a blank or the end of a line. -/
theorem ofChars?_eq_none
    {d : Char}
    (h : Piece.isIdentPart d = true ∨ d = ' ' ∨ d = '\t' ∨ d = '\n') (c : Char) :
    Punct.ofChars? c d = none := by
  refine ofChars?_of_forall fun p hp => ?_
  have hne : ∀ e, p.text.toList = [c, e] →
      Piece.isIdentPart e = false ∧ e ≠ ' ' ∧ e ≠ '\t' ∧ e ≠ '\n' := by
    intro e he
    cases p <;> simp only [Punct.text] at he <;>
      first
        | (exfalso; revert he; simp; done)
        | (obtain ⟨rfl, rfl⟩ : _ = c ∧ _ = e := by simpa using he
           decide)
  obtain ⟨hpart, hblank, htab, hline⟩ := hne d hp
  rcases h with h | rfl | rfl | rfl
  · rw [h] at hpart
    cases hpart
  · exact hblank rfl
  · exact htab rfl
  · exact hline rfl

/-- In front of a type or a literal the marks that open something stay marks. -/
theorem ofChars?_opening
    {p : Punct} {c d : Char}
    (hp : p = .openParen ∨ p = .less) (hc : p.text.toList = [c]) (hd : d ≠ '=') :
    Punct.ofChars? c d = none := by
  refine ofChars?_of_forall fun q hq => ?_
  obtain rfl | rfl := hp <;> obtain rfl : _ = c := by simpa [Punct.text] using hc
  all_goals
    cases q <;> simp [Punct.text] at hq
  exact hd hq.symm

theorem head_of_isWord
    {w : String}
    (h : isWord w = true) :
    ∃ c cs, w.toList = c :: cs ∧ Piece.isIdentStart c = true ∧
      ∀ x ∈ c :: cs, Piece.isIdentPart x = true := by
  unfold isWord at h
  rw [Bool.and_eq_true, List.all_eq_true] at h
  cases hw : w.toList with
  | nil =>
    rw [hw] at h
    cases h.1
  | cons c cs =>
    rw [hw] at h
    exact ⟨c, cs, rfl, h.1, h.2⟩

/-- A valid lexeme has a character. -/
theorem text_ne_nil
    {x : Lexeme}
    (h : x.Valid) :
    ∃ c cs, x.text = c :: cs := by
  cases x with
  | tab | blank | arrow => exact ⟨_, _, rfl⟩
  | word w =>
    obtain ⟨c, cs, hw, -⟩ := head_of_isWord h
    exact ⟨c, cs, hw⟩
  | mark p =>
    obtain ⟨c, hc, -⟩ := text_simpleMark h
    exact ⟨c, [], hc⟩
  | piece t r next =>
    obtain ⟨⟨c, cs, ht, -⟩, -⟩ := h
    exact ⟨c, cs, ht⟩

/-- A lexeme is read as it should be at the end of a line. -/
theorem readsBefore_newline
    {x : Lexeme}
    (h : x.Valid) (hend : x.fitsEnd = true) :
    ReadsBefore x.text x.kinds '\n' := by
  cases x with
  | tab => exact .blank (by decide) '\n'
  | blank => exact .blank (by decide) '\n'
  | arrow => exact .arrow '\n'
  | word w =>
    obtain ⟨c, cs, hw, hstart, hpart⟩ := head_of_isWord h
    have hread := @ReadsBefore.word (c :: cs) '\n' (by simpa using hstart) hpart (by decide)
    rw [← hw, String.ofList_toList] at hread
    exact hread
  | mark p =>
    obtain ⟨c, hc, -⟩ := text_simpleMark h
    have hread := ReadsBefore.mark (d := '\n') h hc (ofChars?_eq_none (by simp) c)
      (fun _ => by decide)
    rw [← hc] at hread
    exact hread
  | piece t r next => exact h.2 '\n' (by simpa [fitsEnd] using hend)

/-- A lexeme is read as it should be in front of one that it fits. -/
theorem readsBefore_of_fits
    {x y : Lexeme} {d : Char} {ds : List Char}
    (hx : x.Valid) (hy : y.Valid) (hfits : x.fits y = true) (hd : y.text = d :: ds) :
    ReadsBefore x.text x.kinds d := by
  have hword : ∀ w, y = .word w → Piece.isIdentStart d = true := by
    rintro w rfl
    obtain ⟨c, cs, hw, hstart, -⟩ := head_of_isWord hy
    obtain ⟨rfl, -⟩ := List.cons.inj (hw.symm.trans hd)
    exact hstart
  have hmark : ∀ p, y = .mark p → p.text.toList = [d] ∧ Piece.isIdentPart d = false ∧
      d.isDigit = false := by
    rintro p rfl
    obtain ⟨c, hc, hpart, hdigit⟩ := text_simpleMark hy
    obtain ⟨rfl, -⟩ := List.cons.inj (hc.symm.trans hd)
    exact ⟨hc, hpart, hdigit⟩
  cases x with
  | tab => exact .blank (by decide) d
  | blank => exact .blank (by decide) d
  | arrow => exact .arrow d
  | word w =>
    obtain ⟨c, cs, hw, hstart, hpart⟩ := head_of_isWord hx
    have hnot : Piece.isIdentPart d = false := by
      cases y with
      | tab | blank =>
        obtain ⟨rfl, -⟩ := List.cons.inj hd
        decide
      | mark p => exact (hmark p rfl).2.1
      | word | piece | arrow => cases hfits
    have hread := @ReadsBefore.word (c :: cs) d (by simpa using hstart) hpart hnot
    rw [← hw, String.ofList_toList] at hread
    exact hread
  | mark p =>
    obtain ⟨c, hc, -⟩ := text_simpleMark hx
    have hnext : Punct.ofChars? c d = none ∧ (p = .dot → d.isDigit = false) := by
      cases y with
      | tab | blank =>
        obtain ⟨rfl, -⟩ := List.cons.inj hd
        exact ⟨ofChars?_eq_none (by simp) c, fun _ => by decide⟩
      | word w =>
        exact ⟨ofChars?_eq_none (.inl (Piece.isIdentPart_of_isIdentStart (hword w rfl))) c,
          fun _ => Piece.not_isDigit_of_isIdentStart (hword w rfl)⟩
      | mark q =>
        obtain ⟨hq, -, hdigit⟩ := hmark q rfl
        refine ⟨?_, fun _ => hdigit⟩
        simpa [fits, hc, hq] using hfits
      | piece t r next =>
        obtain ⟨⟨e, es, ht, he⟩, -⟩ := hy
        obtain ⟨rfl, -⟩ := List.cons.inj (ht.symm.trans hd)
        have hp : p = .openParen ∨ p = .less := by simpa [fits] using hfits
        refine ⟨ofChars?_opening hp hc he, ?_⟩
        rintro rfl
        simp at hp
      | arrow => cases hfits
    have hread := ReadsBefore.mark (d := d) hx hc hnext.1 hnext.2
    rw [← hc] at hread
    exact hread
  | piece t r next =>
    refine hx.2 d ?_
    cases y with
    | blank =>
      obtain ⟨rfl, -⟩ := List.cons.inj hd
      simpa [fits] using hfits
    | mark p =>
      obtain ⟨hp, -⟩ := hmark p rfl
      simpa [fits, hp] using hfits
    | tab | word | piece | arrow => cases hfits

/-- Lexemes that are delimited are read one after the other. -/
theorem readsBefore_chain
    {x : Lexeme} {xs : List Lexeme}
    (hvalid : ∀ y ∈ x :: xs, y.Valid) (hchain : chain (x :: xs) = true) :
    ReadsBefore ((x :: xs).flatMap text) (allKinds (x :: xs)) '\n' := by
  induction xs generalizing x with
  | nil =>
    have hread := readsBefore_newline (hvalid x List.mem_cons_self) hchain
    have hkinds : allKinds [x] = x.kinds := by
      unfold allKinds allKinds
      cases x.kinds <;> simp
    rw [hkinds]
    simpa using hread
  | cons y ys ih =>
    rw [chain, Bool.and_eq_true] at hchain
    have hy := hvalid y (by simp)
    have hys := ih (fun z hz => hvalid z (List.mem_cons_of_mem _ hz)) hchain.2
    obtain ⟨d, ds, hd⟩ := text_ne_nil hy
    have hx := readsBefore_of_fits (hvalid x List.mem_cons_self) hy hchain.1 hd
    rw [List.flatMap_cons]
    exact hx.append hys (by rw [List.flatMap_cons, hd]; rfl)

end Lexeme

/-! ### Literals -/

/-- What a text is read as when it is written as a string literal. -/
def literalKinds (s : String) : Option (List TokenKind) :=
  if '\n' ∈ s.toList then none else some [.str s false false]

theorem readString_escapeLiteral
    (cs rest : List Char) :
    ∃ fault, Literal.readString ⟨false, false⟩ .text (cs.flatMap escapeLiteral ++ '"' :: rest) =
      if '\n' ∈ cs then .error fault
      else .ok (cs, (cs.flatMap escapeLiteral).length + 1) := by
  induction cs with
  | nil =>
    refine ⟨.newlineInConstant, ?_⟩
    rw [List.flatMap_nil, List.nil_append, Literal.readString.eq_def]
    simp
  | cons c cs ih =>
    obtain ⟨fault, ih⟩ := ih
    -- A character that is not the end of a line is read and decoded to itself.
    have step : c ≠ '\n' →
        Literal.readString ⟨false, false⟩ .text
            ((c :: cs).flatMap escapeLiteral ++ '"' :: rest) =
          Literal.push c (escapeLiteral c).length
            (Literal.readString ⟨false, false⟩ .text (cs.flatMap escapeLiteral ++ '"' :: rest)) := by
      intro hline
      rw [List.flatMap_cons, List.append_assoc]
      generalize cs.flatMap escapeLiteral ++ '"' :: rest = more
      unfold escapeLiteral
      split
      · simp [Literal.readString, Literal.decodeEscape]
      · simp [Literal.readString, Literal.decodeEscape]
      · rename_i hslash hquote
        have hslash' : c ≠ '\\' := fun h => hslash h
        have hquote' : c ≠ '"' := fun h => hquote h
        rw [List.singleton_append, Literal.readString.eq_def]
        simp [hline, hslash', hquote']
    by_cases hline : c = '\n'
    · subst hline
      refine ⟨.newlineInConstant, ?_⟩
      rw [List.flatMap_cons, if_pos List.mem_cons_self]
      change Literal.readString _ _ ('\n' :: (_ ++ _)) = _
      rw [Literal.readString.eq_def]
      simp
    · refine ⟨fault, ?_⟩
      rw [step hline, ih]
      have hmem : '\n' ∈ c :: cs ↔ '\n' ∈ cs := by simp [Ne.symm hline]
      simp only [hmem]
      split
      · rfl
      · rw [List.flatMap_cons, List.length_append]
        simp only [Literal.push, Except.map]
        congr 2
        omega

/-- A text that is written as a literal is read as it is, if it is one line. -/
theorem readsBefore_literal
    (s : String) {d : Char} (hd : d ≠ '"') :
    ReadsBefore (literal s).toList (literalKinds s) d := by
  intro fresh ds
  obtain ⟨fault, hread⟩ := readString_escapeLiteral s.toList (d :: ds)
  have htext : (literal s).toList ++ d :: ds =
      '"' :: (s.toList.flatMap escapeLiteral ++ '"' :: d :: ds) := by
    simp [literal]
  have hquotes : (List.takeWhile (· == '"')
      ('"' :: (s.toList.flatMap escapeLiteral ++ '"' :: d :: ds))).length < 3 := by
    cases s.toList with
    | nil => simp [hd]
    | cons c cs =>
      have hhead : ∃ e es, escapeLiteral c = e :: es ∧ e ≠ '"' := by
        unfold escapeLiteral
        split
        · exact ⟨_, _, rfl, by decide⟩
        · exact ⟨_, _, rfl, by decide⟩
        · rename_i hquote
          exact ⟨c, [], rfl, fun h => hquote h⟩
      obtain ⟨e, es, hc, he⟩ := hhead
      simp [hc, he]
  have hstring : Literal.string? ('"' :: (s.toList.flatMap escapeLiteral ++ '"' :: d :: ds)) =
      some (if '\n' ∈ s.toList then .error fault
        else .ok (.str s false false, (s.toList.flatMap escapeLiteral).length + 2)) := by
    unfold Literal.string? Literal.readMarks Literal.readQuoted
    simp only [if_true, Option.map_some, List.drop_zero]
    rw [if_neg (by omega), List.drop_succ_cons, List.drop_zero, hread]
    split
    · rfl
    · simp [Except.map]
  have hpiece : ∀ r, Literal.string? ('"' :: (s.toList.flatMap escapeLiteral ++ '"' :: d :: ds)) =
      some r → ∀ b, Piece.read b '"' (s.toList.flatMap escapeLiteral ++ '"' :: d :: ds) =
        r.map (Prod.map Piece.token id) := by
    intro r hr b
    have hspace : Piece.isSpace '"' = false := by decide
    unfold Piece.read Piece.readToken
    simp only [hspace, hr]
    rfl
  unfold literalKinds
  by_cases hline : '\n' ∈ s.toList
  · rw [if_pos hline, htext, kindsFrom_cons, hpiece _ hstring, if_pos hline]
    rfl
  · have hliteral : (literal s).toList = '"' :: (s.toList.flatMap escapeLiteral ++ ['"']) := by
      simp [literal]
    rw [if_neg hline, hliteral, List.cons_append, kindsFrom_token]
    · rfl
    · rw [List.append_assoc, List.singleton_append, hpiece _ hstring, if_neg hline]
      simp [Except.map]

/-- A literal as a lexeme. -/
def Lexeme.literal (s : String) : Lexeme :=
  .piece (Generated.literal s) (literalKinds s) [')', ']', ';']

theorem Lexeme.valid_literal
    (s : String) :
    (Lexeme.literal s).Valid := by
  refine ⟨⟨'"', s.toList.flatMap escapeLiteral ++ ['"'], by simp [Generated.literal], by decide⟩, ?_⟩
  intro d hd
  refine readsBefore_literal s ?_
  simp only [List.mem_cons, List.not_mem_nil, or_false] at hd
  rcases hd with rfl | rfl | rfl <;> decide

/-! ### Dotted names -/

/-- Whether a text is an identifier of the language. -/
def isIdentifier (s : String) : Bool :=
  isWord s && !Naming.keywords.contains s

/-- Identifiers with dots between them. -/
def IsDotted (name : String) : Prop :=
  ∃ segments : List String, segments ≠ [] ∧ (∀ s ∈ segments, isIdentifier s = true) ∧
    name = ".".intercalate segments

/-- The text of a qualifier: words with a dot behind each. -/
def qualifierText (segments : List String) : List Char :=
  segments.flatMap fun s => s.toList ++ ['.']

@[simp] theorem qualifierText_nil :
    qualifierText [] = [] := by
  rfl

@[simp] theorem qualifierText_cons
    (s : String) (segments : List String) :
    qualifierText (s :: segments) = s.toList ++ '.' :: qualifierText segments := by
  simp [qualifierText]

theorem toList_intercalate_dot
    (segments : List String) (last : String) :
    (".".intercalate (segments ++ [last])).toList = qualifierText segments ++ last.toList := by
  induction segments with
  | nil => simp
  | cons s segments ih =>
    rw [List.cons_append, String.intercalate_cons_of_ne_nil (by simp), String.toList_append, ih]
    simp

/-- A dotted name as a qualifier and its last segment. -/
theorem IsDotted.exists_last
    {name : String}
    (h : IsDotted name) :
    ∃ segments last, name = ".".intercalate (segments ++ [last]) ∧
      (∀ s ∈ segments, isIdentifier s = true) ∧ isIdentifier last = true := by
  obtain ⟨segments, hne, hsegments, rfl⟩ := h
  refine ⟨segments.dropLast, segments.getLast hne, ?_, ?_, hsegments _ (List.getLast_mem hne)⟩
  · rw [List.dropLast_concat_getLast hne]
  · exact fun s hs => hsegments s (List.dropLast_subset segments hs)

theorem isWord_of_isIdentifier
    {s : String}
    (h : isIdentifier s = true) :
    isWord s = true :=
  (Bool.and_eq_true _ _ ▸ h).1

/-- No identifier is a keyword. -/
theorem ne_of_isIdentifier
    {s w : String}
    (h : isIdentifier s = true) (hw : Naming.keywords.contains w = true) :
    s ≠ w := by
  rintro rfl
  unfold isIdentifier at h
  rw [hw] at h
  simp at h

namespace Lexeme

/-- A dotted name as lexemes. -/
def dotted (segments : List String) (last : String) : List Lexeme :=
  segments.flatMap (fun s => [.word s, .mark .dot]) ++ [.word last]

theorem text_dotted
    (segments : List String) (last : String) :
    (dotted segments last).flatMap text = qualifierText segments ++ last.toList := by
  induction segments with
  | nil => simp [dotted, text]
  | cons s segments ih =>
    have hcons : dotted (s :: segments) last = .word s :: .mark .dot :: dotted segments last := rfl
    have hdot : Punct.dot.text.toList = ['.'] := rfl
    simp [hcons, ih, text, hdot]

theorem valid_dotted
    {segments : List String} {last : String}
    (h : ∀ s ∈ segments, isWord s = true) (hlast : isWord last = true) :
    ∀ x ∈ dotted segments last, x.Valid := by
  intro x hx
  rcases List.mem_append.1 hx with hx | hx
  · obtain ⟨s, hs, hx⟩ := List.mem_flatMap.1 hx
    simp only [List.mem_cons, List.not_mem_nil, or_false] at hx
    rcases hx with rfl | rfl
    · exact h s hs
    · exact (by decide : Punct.dot ∈ Piece.simpleMarks)
  · obtain rfl := List.mem_singleton.1 hx
    exact hlast

/-- Behind a blank a dotted name fits what a word fits. -/
theorem chain_dotted
    (segments : List String) (last : String) (ys : List Lexeme) :
    chain (.blank :: (dotted segments last ++ ys)) = chain (.word last :: ys) := by
  have hcons : ∀ s rest, dotted (s :: rest) last = .word s :: .mark .dot :: dotted rest last :=
    fun _ _ => rfl
  have hwords : ∀ segments, chain (dotted segments last ++ ys) = chain (.word last :: ys) := by
    intro segments
    induction segments with
    | nil => rfl
    | cons s segments ih =>
      rw [hcons, ← ih]
      cases segments <;> rfl
  rw [← hwords segments]
  cases segments <;> rfl

theorem allKinds_dotted
    (segments : List String) (last : String) (ys : List Lexeme) :
    allKinds (dotted segments last ++ ys) =
      (allKinds ys).map (qualifierKinds segments ++ .ident last false :: ·) := by
  induction segments with
  | nil =>
    change (some [TokenKind.ident last false]).bind _ = _
    simp
  | cons s segments ih =>
    have hcons : dotted (s :: segments) last ++ ys =
        .word s :: .mark .dot :: (dotted segments last ++ ys) := rfl
    rw [hcons, allKinds, allKinds, ih]
    simp [kinds, Function.comp_def]

end Lexeme

/-! ### Lines -/

/-- A line of lexemes is read as they are. -/
theorem readsAs_lexemes
    {line : String} {xs : List Lexeme}
    (hline : line.toList = xs.flatMap Lexeme.text) (hvalid : ∀ x ∈ xs, x.Valid)
    (hchain : Lexeme.chain xs = true) :
    ReadsAs (line.toList ++ ['\n']) (Lexeme.allKinds xs) := by
  rw [hline]
  cases xs with
  | nil => exact readsAs_line (kindsFrom_nil true)
  | cons x xs => exact (Lexeme.readsBefore_chain hvalid hchain).readsAs

end Generated
end ContentModels

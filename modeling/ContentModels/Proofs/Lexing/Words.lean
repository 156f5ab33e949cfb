import Mathlib.Tactic.IntervalCases
import ContentModels.Proofs.Lexing.Lines

/-!
# Lexing words, marks and literals

What is read at the head of a text that starts with a blank, a word, a mark or a plain
string literal, as far as what follows it does not continue it.
-/

namespace ContentModels

namespace CSharp

namespace Piece

theorem isIdentPart_of_isIdentStart
    {c : Char}
    (h : isIdentStart c = true) :
    isIdentPart c = true := by
  simp only [isIdentStart, isIdentPart, Text.isAlphanumeric, Bool.or_eq_true] at h ⊢
  rcases h with hu | ha
  · exact .inl hu
  · exact .inr (.inl ha)

/-- No blank is part of a word. -/
theorem not_isSpace
    {c : Char}
    (h : isIdentPart c = true) :
    isSpace c = false := by
  cases hs : isSpace c with
  | false => rfl
  | true =>
    exfalso
    have hc : c = Char.ofNat c.toNat := (Char.ofNat_toNat c).symm
    simp only [isSpace, Text.isBlank, Bool.or_eq_true, Bool.and_eq_true, decide_eq_true_eq,
      beq_iff_eq] at hs
    revert h
    rcases hs with hs | rfl
    · generalize c.toNat = n at hs hc
      rcases hs with (((((((((hs | hs) | hs) | hs) | hs) | hs) | hs) | hs) | hs) | hs) | hs
      · obtain ⟨h₁, h₂⟩ := hs
        interval_cases n <;> subst hc <;> decide +kernel
      all_goals first
        | (subst hs; subst hc; decide +kernel)
        | (obtain ⟨h₁, h₂⟩ := hs; interval_cases n <;> subst hc <;> decide +kernel)
    · decide +kernel

theorem not_isDigit_of_isIdentStart
    {c : Char}
    (h : isIdentStart c = true) :
    c.isDigit = false := by
  cases hd : c.isDigit with
  | false => rfl
  | true =>
    exfalso
    simp only [Char.isDigit, Bool.and_eq_true, decide_eq_true_eq] at hd
    have hascii : c.val < 0x80 := UInt32.lt_of_le_of_lt hd.2 (by decide)
    simp only [isIdentStart, Text.isAlphabetic, if_pos hascii, Bool.or_eq_true, beq_iff_eq,
      Text.isAlpha_iff] at h
    rcases h with rfl | ⟨hlow, -⟩ | ⟨hlow, -⟩
    · exact absurd hd.2 (by decide)
    · exact absurd (UInt32.le_trans hlow hd.2) (by decide)
    · exact absurd (UInt32.le_trans hlow hd.2) (by decide)

theorem isIdentPart_of_isDigit
    {c : Char} (h : c.isDigit = true) :
    isIdentPart c = true := by
  have hascii : c.val < 0x80 := by
    simp only [Char.isDigit, Bool.and_eq_true, decide_eq_true_eq] at h
    exact UInt32.lt_of_le_of_lt h.2 (by decide)
  simp [isIdentPart, Text.isAlphanumeric, Text.isNumeric, hascii, h]

theorem ne_of_isIdentStart
    {c d : Char} (h : isIdentStart c = true) (hd : isIdentStart d = false) :
    c ≠ d := by
  rintro rfl
  rw [h] at hd
  cases hd

theorem readToken_word
    {c : Char}
    (h : isIdentStart c = true) (cs : List Char) :
    readToken c cs = readIdent false (c :: cs) := by
  have hat : c ≠ '@' := ne_of_isIdentStart h (by decide)
  have hstring : Literal.string? (c :: cs) = none :=
    string?_eq_none (ne_of_isIdentStart h (by decide)) (ne_of_isIdentStart h (by decide))
      fun hc => absurd hc hat
  unfold readToken
  simp [hstring, ne_of_isIdentStart h (d := '\'') (by decide), hat, h]

theorem read_word
    {c : Char}
    (h : isIdentStart c = true) (fresh : Bool) (cs : List Char) :
    read fresh c cs = readIdent false (c :: cs) := by
  unfold read
  simp [not_isSpace (isIdentPart_of_isIdentStart h), ne_of_isIdentStart h (d := '/') (by decide),
    ne_of_isIdentStart h (d := '#') (by decide), readToken_word h]

/-- The marks of one character that generated code has besides arrows. -/
def simpleMarks : List Punct :=
  [.openBrace, .closeBrace, .openParen, .closeParen, .openBracket, .closeBracket, .less,
    .greater, .semicolon, .comma, .dot, .colon, .assign]

theorem read_mark
    {p : Punct} {c : Char}
    (hp : p ∈ simpleMarks) (hc : p.text.toList = [c]) (fresh : Bool) {cs : List Char}
    (hpair : ∀ d, cs.head? = some d → Punct.ofChars? c d = none)
    (hdigit : p = .dot → startsWithDigit cs = false) :
    read fresh c cs = .ok (.token (.punct p), 1) := by
  have hpunct : readPunct c cs = .ok (.token (.punct p), 1) := by
    have hsingle : Punct.ofChar? c = some p := by
      simp only [simpleMarks, List.mem_cons, List.not_mem_nil, or_false] at hp
      rcases hp with rfl | rfl | rfl | rfl | rfl | rfl | rfl | rfl | rfl | rfl | rfl | rfl | rfl <;>
        (obtain rfl : _ = c := by simpa [Punct.text] using hc) <;> decide
    unfold readPunct
    cases cs with
    | nil => simp [hsingle]
    | cons d cs => simp [hpair d rfl, hsingle]
  have htoken : isSpace c = false ∧ c ≠ '/' ∧ c ≠ '#' ∧ c ≠ '"' ∧ c ≠ '$' ∧ c ≠ '@' ∧
      c ≠ '\'' ∧ isIdentStart c = false ∧ c.isDigit = false ∧ (c = '.' → p = .dot) := by
    simp only [simpleMarks, List.mem_cons, List.not_mem_nil, or_false] at hp
    rcases hp with rfl | rfl | rfl | rfl | rfl | rfl | rfl | rfl | rfl | rfl | rfl | rfl | rfl <;>
      (obtain rfl : _ = c := by simpa [Punct.text] using hc) <;> decide
  obtain ⟨hspace, hslash, hhash, hquote, hdollar, hat, hchar, hstart, hnumber, hdot⟩ := htoken
  have hstring : Literal.string? (c :: cs) = none :=
    string?_eq_none hquote hdollar fun h => absurd h hat
  have hpoint : (c == '.' && startsWithDigit cs) = false := by
    by_cases hc' : c = '.'
    · simp [hdigit (hdot hc')]
    · simp [hc']
  unfold read readToken
  simp [hspace, hslash, hhash, hstring, hchar, hat, hstart, hnumber, hpoint, hpunct]

theorem read_arrow
    (fresh : Bool) (cs : List Char) :
    read fresh '=' ('>' :: cs) = .ok (.token (.punct .arrow), 2) := by
  have hspace : isSpace '=' = false := by decide
  have hstart : isIdentStart '=' = false := by decide
  have hstring : Literal.string? ('=' :: '>' :: cs) = none :=
    string?_eq_none (by decide) (by decide) (by simp)
  have hdouble : Punct.ofChars? '=' '>' = some .arrow := by decide
  unfold read readToken readPunct
  simp [hspace, hstart, hstring, hdouble]

/-- A character of a name or of a qualified name. -/
def isPlain (c : Char) : Bool :=
  isIdentPart c || c == '.'

theorem ne_of_isPlain
    {c d : Char} (h : isPlain c = true) (hd : isPlain d = false) :
    c ≠ d := by
  rintro rfl
  rw [h] at hd
  cases hd

theorem not_isSpace_of_isPlain
    {c : Char} (h : isPlain c = true) :
    isSpace c = false := by
  simp only [isPlain, Bool.or_eq_true, beq_iff_eq] at h
  rcases h with h | rfl
  · exact not_isSpace h
  · decide

/-- What a character of a qualified name starts that does not start a word. -/
theorem readToken_of_isPlain
    {c : Char}
    (h : isPlain c = true) (hstart : ¬ isIdentStart c = true) (cs : List Char) :
    readToken c cs =
      if c.isDigit || (c == '.' && startsWithDigit cs) then
        .ok (.token (.number (String.ofList
          ((c :: cs).take (numberLength (isHexadecimal (c :: cs)) false (c :: cs))))),
          numberLength (isHexadecimal (c :: cs)) false (c :: cs))
      else readPunct c cs := by
  have hat : c ≠ '@' := ne_of_isPlain h (by decide)
  have hstring : Literal.string? (c :: cs) = none :=
    string?_eq_none (ne_of_isPlain h (by decide)) (ne_of_isPlain h (by decide))
      fun hc => absurd hc hat
  unfold readToken
  simp [hstring, ne_of_isPlain h (d := '\'') (by decide), hat, hstart]

theorem read_of_isPlain
    {c : Char}
    (h : isPlain c = true) (fresh : Bool) (cs : List Char) :
    read fresh c cs = readToken c cs := by
  unfold read
  simp [not_isSpace_of_isPlain h, ne_of_isPlain h (d := '/') (by decide),
    ne_of_isPlain h (d := '#') (by decide)]

/-- A dot is a mark, or starts a range or a number. -/
theorem read_dot
    (fresh : Bool) (cs : List Char) :
    ∃ k n, read fresh '.' cs = .ok (.token k, n) ∧
      ((∃ w, k = .number w) ∨ k = .punct .range ∨ k = .punct .dot ∧ n = 1) := by
  have hdot : Punct.ofChar? '.' = some .dot := by decide
  rw [read_of_isPlain (by decide), readToken_of_isPlain (by decide) (by decide)]
  split
  · exact ⟨_, _, rfl, .inl ⟨_, rfl⟩⟩
  · unfold readPunct
    cases cs with
    | nil => exact ⟨.punct .dot, 1, by simp [hdot], by simp⟩
    | cons d cs =>
      cases hp : Punct.ofChars? '.' d with
      | none => exact ⟨.punct .dot, 1, by simp [hp, hdot], by simp⟩
      | some p =>
        have htext := Punct.text_ofChars? hp
        obtain rfl : p = .range := by
          cases p <;> simp [Punct.text] at htext ⊢
        exact ⟨.punct .range, 2, by simp [hp], by simp⟩

theorem delimits_space
    (cs : List Char) :
    Delimits cs ' ' :=
  .of_unpaired (by decide) (by decide) (fun p => by cases p <;> decide) cs

end Piece

/-- Lexing goes on behind a token. -/
theorem kindsFrom_token
    {fresh : Bool} {c : Char} {cs ds : List Char} {k : TokenKind}
    (h : Piece.read fresh c (cs ++ ds) = .ok (.token k, cs.length + 1)) :
    kindsFrom fresh (c :: (cs ++ ds)) =
      (kindsFrom (freshAfter fresh (c :: cs)) ds).map ([k] ++ ·) := by
  rw [kindsFrom_cons, h]
  simp only [Nat.add_sub_cancel, List.drop_left]
  rw [List.take_succ_cons, List.take_left]
  rfl

/--
A text is read as some tokens, or with a fault, in front of a character, whatever follows
that.
-/
def ReadsBefore (cs : List Char) (r : Option (List TokenKind)) (d : Char) : Prop :=
  ∀ fresh ds, kindsFrom fresh (cs ++ d :: ds) =
    r.bind fun ks => (kindsFrom (freshAfter fresh cs) (d :: ds)).map (ks ++ ·)

namespace ReadsBefore

theorem word
    {cs : List Char} {d : Char}
    (hstart : cs.head?.any Piece.isIdentStart = true)
    (hpart : ∀ c ∈ cs, Piece.isIdentPart c = true) (hd : Piece.isIdentPart d = false) :
    ReadsBefore cs (some [.ident (String.ofList cs) false]) d := by
  intro fresh ds
  cases cs with
  | nil => cases hstart
  | cons c cs =>
    have hc : Piece.isIdentStart c = true := by simpa using hstart
    rw [List.cons_append, kindsFrom_token]
    · rfl
    · rw [Piece.read_word hc, Piece.readIdent, ← List.cons_append,
        List.takeWhile_append_of_pos hpart]
      simp [hd]

theorem mark
    {p : Punct} {c d : Char}
    (hp : p ∈ Piece.simpleMarks) (hc : p.text.toList = [c])
    (hpair : Punct.ofChars? c d = none) (hdigit : p = .dot → d.isDigit = false) :
    ReadsBefore [c] (some [.punct p]) d := by
  intro fresh ds
  have hread : Piece.read fresh c ([] ++ d :: ds) = .ok (.token (.punct p), 1) :=
    Piece.read_mark hp hc fresh (by simpa using hpair) hdigit
  rw [List.singleton_append]
  exact @kindsFrom_token fresh c [] (d :: ds) (.punct p) hread

theorem arrow
    (d : Char) :
    ReadsBefore ['=', '>'] (some [.punct .arrow]) d := by
  intro fresh ds
  exact @kindsFrom_token fresh '=' ['>'] (d :: ds) (.punct .arrow)
    (Piece.read_arrow fresh (d :: ds))

theorem blank
    {c : Char}
    (hc : Piece.isSpace c = true) (d : Char) :
    ReadsBefore [c] (some []) d := by
  intro fresh ds
  rw [List.singleton_append, kindsFrom_blank hc]
  simp

/-- A text that is lexed, in front of a character that extends nothing. -/
theorem of_delimits
    {cs : List Char} {ks : List TokenKind} {d : Char}
    (h : kindsFrom true cs = some ks) (hd : Delimits cs d) (hslash : '/' ∉ cs)
    (hhash : '#' ∉ cs) :
    ReadsBefore cs (some ks) d := by
  intro fresh ds
  rw [kindsFrom_of_hash_notMem hhash true fresh] at h
  exact kindsFrom_append h hd (.inr ⟨hslash, hhash⟩) ds

/-- Texts one after the other. -/
theorem append
    {cs ds : List Char} {r s : Option (List TokenKind)} {d e : Char}
    (h : ReadsBefore cs r e) (h' : ReadsBefore ds s d) (hhead : ds.head? = some e) :
    ReadsBefore (cs ++ ds) (r.bind fun ks => s.map (ks ++ ·)) d := by
  intro fresh rest
  cases ds with
  | nil => cases hhead
  | cons x xs =>
    obtain rfl : x = e := by simpa using hhead
    rw [List.append_assoc, List.cons_append, h, ← List.cons_append, h']
    cases r with
    | none => rfl
    | some ks =>
      cases s with
      | none => rfl
      | some js =>
        rw [freshAfter_append]
        simp only [Option.bind_some, Option.map_some, Option.map_map]
        congr 1
        funext ls
        simp

/-- A line is read as what it is read as in front of its end. -/
theorem readsAs
    {cs : List Char} {r : Option (List TokenKind)}
    (h : ReadsBefore cs r '\n') :
    ReadsAs (cs ++ ['\n']) r := by
  intro rest
  rw [List.append_assoc, List.singleton_append, h]
  simp only [kindsFrom_newline]

end ReadsBefore
end CSharp
end ContentModels

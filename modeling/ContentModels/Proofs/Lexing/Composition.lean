import ContentModels.Proofs.Lexing.Kinds

/-!
# Lexing a text and what follows it

A piece is the same whatever follows the text that it is read from, as long as the next
character neither continues a word or a number nor completes a mark or a literal.  So
the tokens of a text and of what follows it stand one after the other
(`kindsFrom_append`), provided that the text does not end in a comment or directive that
the next character would extend.
-/

namespace ContentModels
namespace CSharp

/-- A character that extends nothing that a text can end in, comments and directives aside. -/
structure Delimits (cs : List Char) (d : Char) : Prop where
  notPart : Piece.isIdentPart d = false
  notSign : d ≠ '"' ∧ d ≠ '.' ∧ d ≠ '+' ∧ d ≠ '-' ∧ d ≠ '/' ∧ d ≠ '*'
  notPaired : ∀ c, cs.getLast? = some c → Punct.ofChars? c d = none

namespace Delimits

variable {cs : List Char} {d : Char}

theorem tail
    {c : Char}
    (h : Delimits (c :: cs) d) :
    Delimits cs d :=
  ⟨h.notPart, h.notSign, fun e he => h.notPaired e (by
    cases cs with
    | nil => cases he
    | cons x xs => rwa [List.getLast?_cons_cons])⟩

theorem drop
    (h : Delimits cs d) (n : Nat) :
    Delimits (cs.drop n) d :=
  ⟨h.notPart, h.notSign, fun e he => h.notPaired e (by
    rw [List.getLast?_drop] at he
    split at he
    · cases he
    · exact he)⟩

theorem not_isDigit
    (h : Delimits cs d) :
    d.isDigit = false := by
  have hp := h.notPart
  simp only [Piece.isIdentPart, Text.isAlphanumeric, Text.isNumeric, Bool.or_eq_false_iff] at hp
  by_cases hv : d.val < 0x80
  · simpa [hv] using hp.2.2
  · cases hd : d.isDigit with
    | false => rfl
    | true =>
      simp only [Char.isDigit, Bool.and_eq_true, decide_eq_true_eq] at hd
      exact absurd (UInt32.lt_of_le_of_lt hd.2 (by decide)) hv

theorem not_isAlphanum
    (h : Delimits cs d) :
    d.isAlphanum = false := by
  have hp := h.notPart
  simp only [Piece.isIdentPart, Text.isAlphanumeric, Bool.or_eq_false_iff] at hp
  simp only [Char.isAlphanum, Bool.or_eq_false_iff]
  refine ⟨?_, h.not_isDigit⟩
  cases ha : d.isAlpha with
  | false => rfl
  | true => rw [Text.isAlphabetic_of_isAlpha ha] at hp; exact absurd hp.2.1 (by decide)

theorem ne_underscore
    (h : Delimits cs d) :
    d ≠ '_' := by
  rintro rfl
  exact absurd h.notPart (by decide)

/-- A character that no mark of two characters ends with extends no mark. -/
theorem of_unpaired
    (hpart : Piece.isIdentPart d = false)
    (hsign : d ≠ '"' ∧ d ≠ '.' ∧ d ≠ '+' ∧ d ≠ '-' ∧ d ≠ '/' ∧ d ≠ '*')
    (hpair : ∀ p : Punct, d ∉ p.text.toList.tail) (cs : List Char) :
    Delimits cs d := by
  refine ⟨hpart, hsign, fun c _ => ?_⟩
  cases hp : Punct.ofChars? c d with
  | none => rfl
  | some p =>
    have hmem : d ∈ p.text.toList.tail := by simp [Punct.text_ofChars? hp]
    exact absurd hmem (hpair p)

end Delimits

namespace Literal

theorem push_eq_ok
    {c : Char} {size n : Nat} {r : Reading (List Char)} {value : List Char} :
    push c size r = .ok (value, n) ↔
      ∃ v k, r = .ok (v, k) ∧ value = c :: v ∧ n = k + size := by
  cases r with
  | error fault => simp [push, Except.map]
  | ok x =>
    obtain ⟨v, k⟩ := x
    simp only [push, Except.map, Except.ok.injEq, Prod.mk.injEq]
    constructor
    · rintro ⟨rfl, rfl⟩
      exact ⟨v, k, ⟨rfl, rfl⟩, rfl, rfl⟩
    · rintro ⟨_, _, ⟨rfl, rfl⟩, rfl, rfl⟩
      exact ⟨rfl, rfl⟩

/-- A reading that more text does not change is not changed behind another character. -/
theorem push_extend
    {c : Char} {size n bound : Nat} {r s : Reading (List Char)} {value : List Char}
    (ih : ∀ {value n}, r = .ok (value, n) → s = .ok (value, n) ∧ n ≤ bound)
    (h : push c size r = .ok (value, n)) :
    push c size s = .ok (value, n) ∧ n ≤ bound + size := by
  obtain ⟨v, k, hr, rfl, rfl⟩ := push_eq_ok.1 h
  obtain ⟨hs, hk⟩ := ih hr
  exact ⟨push_eq_ok.2 ⟨v, k, hs, rfl, rfl⟩, by omega⟩

theorem readCharacter_append
    {cs value : List Char} {n : Nat}
    (h : readCharacter cs = .ok (value, n)) (ds : List Char) :
    readCharacter (cs ++ ds) = .ok (value, n) ∧ n ≤ cs.length := by
  fun_induction readCharacter cs generalizing value n
  case case1 | case2 | case3 => cases h
  case case5 =>
    cases h
    refine ⟨?_, by simp⟩
    unfold readCharacter
    simp
  all_goals
    rename_i ih
    obtain ⟨hs, hn⟩ := push_extend ih h
    refine ⟨?_, hn⟩
    unfold readCharacter
    simp [*]

theorem readString_append
    {form : Form} {place : Place} {cs value : List Char} {n : Nat} {d : Char}
    (h : readString form place cs = .ok (value, n)) (hd : d ≠ '"') (ds : List Char) :
    readString form place (cs ++ d :: ds) = .ok (value, n) ∧ n ≤ cs.length := by
  fun_induction readString form place cs generalizing value n
  case case1 | case2 | case3 | case6 | case7 | case19 => cases h
  -- The closing quote: a verbatim literal would go on after a second one.
  case case5 cs hq =>
    cases h
    cases cs with
    | nil => simp [readString, hd]
    | cons e cs =>
      cases hv : form.verbatim with
      | false => simp [readString, hv]
      | true =>
        have he : e ≠ '"' := by
          rintro rfl
          exact hq cs hv rfl
        simp [readString, he]
  case case10 cs hne ih =>
    cases cs with
    | nil => simp [readString, push, Except.map] at h
    | cons e cs =>
      have he : e ≠ '\x7b' := fun heq => hne cs (heq ▸ rfl)
      obtain ⟨hs, hn⟩ := push_extend ih h
      refine ⟨?_, hn⟩
      rw [List.cons_append] at hs
      unfold readString
      simp [*]
  case case12 cs hne ih =>
    cases cs with
    | nil => simp [readString, push, Except.map] at h
    | cons e cs =>
      have he : e ≠ '\x7d' := fun heq => hne cs (heq ▸ rfl)
      obtain ⟨hs, hn⟩ := push_extend ih h
      refine ⟨?_, hn⟩
      rw [List.cons_append] at hs
      unfold readString
      simp [*]
  case case20 ih =>
    obtain ⟨hs, hn⟩ := push_extend (push_extend ih) h
    refine ⟨?_, hn⟩
    unfold readString
    simp [*]
  all_goals
    rename_i ih
    obtain ⟨hs, hn⟩ := push_extend ih h
    refine ⟨?_, hn⟩
    unfold readString
    simp [*]

theorem isPrefixOf_append
    {as cs : List Char}
    (h : as.isPrefixOf cs = true) (ds : List Char) :
    as.isPrefixOf (cs ++ ds) = true := by
  rw [List.isPrefixOf_iff_prefix] at h ⊢
  exact h.trans (List.prefix_append cs ds)

/-- A prefix that is longer than the first of two parts has the head of the second. -/
theorem mem_of_prefix_append
    {as cs ds : List Char} {d : Char}
    (h : as <+: cs ++ d :: ds) (hn : ¬ as <+: cs) :
    d ∈ as := by
  have hcs : cs ++ [d] <+: cs ++ d :: ds := ⟨ds, by simp⟩
  rcases List.prefix_or_prefix_of_prefix h hcs with hp | hp
  · rcases List.prefix_concat_iff.1 hp with rfl | hp
    · simp
    · exact absurd hp hn
  · exact hp.subset (by simp)

theorem readRaw_append
    {quotes cs value : List Char} {n : Nat} {d : Char}
    (hq : ∀ q ∈ quotes, q = '"')
    (h : readRaw quotes cs = .ok (value, n)) (hd : d ≠ '"') (ds : List Char) :
    readRaw quotes (cs ++ d :: ds) = .ok (value, n) ∧ n ≤ cs.length := by
  induction cs generalizing value n with
  | nil => cases h
  | cons c cs ih =>
    simp only [readRaw] at h
    split at h
    · rename_i hp
      cases h
      have hp' := isPrefixOf_append hp (d :: ds)
      rw [List.cons_append] at hp' ⊢
      refine ⟨by rw [readRaw, if_pos hp'], ?_⟩
      exact (List.isPrefixOf_iff_prefix.1 hp).length_le
    · rename_i hp
      obtain ⟨hs, hn⟩ := push_extend (fun hv => ih hv) h
      have hp' : ¬ quotes.isPrefixOf (c :: cs ++ d :: ds) = true := by
        intro hall
        have hmem := mem_of_prefix_append (List.isPrefixOf_iff_prefix.1 hall)
          fun hpre => hp (List.isPrefixOf_iff_prefix.2 hpre)
        exact hd (hq d hmem)
      rw [List.cons_append] at hp' ⊢
      rw [readRaw, if_neg hp']
      exact ⟨hs, hn⟩

theorem takeWhile_append_delimited
    {p : Char → Bool} {d : Char}
    (hd : p d = false) (cs ds : List Char) :
    (cs ++ d :: ds).takeWhile p = cs.takeWhile p := by
  induction cs with
  | nil => simp [hd]
  | cons c cs ih =>
    rw [List.cons_append, List.takeWhile_cons, List.takeWhile_cons, ih]

theorem readQuoted_append
    {form : Form} {cs : List Char} {kind : TokenKind} {n : Nat} {d : Char}
    (h : readQuoted form cs = .ok (kind, n)) (hd : d ≠ '"') (ds : List Char) (hcs : cs ≠ []) :
    readQuoted form (cs ++ d :: ds) = .ok (kind, n) ∧ n ≤ cs.length := by
  have hq : (d == '"') = false := by simpa using hd
  have htake := takeWhile_append_delimited (p := (· == '"')) hq cs ds
  have hlen := (List.takeWhile_prefix (· == '"') (l := cs)).length_le
  unfold readQuoted at h ⊢
  simp only [htake] at h ⊢
  split at h
  · rename_i hraw
    rw [if_pos hraw]
    rw [List.drop_append_of_le_length hlen]
    cases hr : readRaw (cs.takeWhile (· == '"')) (cs.drop (cs.takeWhile (· == '"')).length) with
    | error fault => rw [hr] at h; cases h
    | ok r =>
      obtain ⟨value, k⟩ := r
      obtain ⟨hs, hk⟩ := readRaw_append
        (fun q hm => by simpa using List.all_eq_true.1 List.all_takeWhile q hm) hr hd ds
      rw [hr] at h
      rw [hs]
      simp only [Except.map, Except.ok.injEq, Prod.mk.injEq] at h ⊢
      refine ⟨h, ?_⟩
      rw [List.length_drop] at hk
      omega
  · rename_i hraw
    rw [if_neg hraw]
    have h1 : 1 ≤ cs.length := List.length_pos_iff.2 hcs
    rw [List.drop_append_of_le_length h1]
    cases hr : readString form .text (cs.drop 1) with
    | error fault => rw [hr] at h; cases h
    | ok r =>
      obtain ⟨value, k⟩ := r
      obtain ⟨hs, hk⟩ := readString_append hr hd ds
      rw [hr] at h
      rw [hs]
      simp only [Except.map, Except.ok.injEq, Prod.mk.injEq] at h ⊢
      refine ⟨h, ?_⟩
      rw [List.length_drop] at hk
      omega

theorem readMarks_append
    {form f : Form} {cs : List Char} {n : Nat}
    (h : readMarks form cs = some (f, n)) (ds : List Char) :
    readMarks form (cs ++ ds) = some (f, n) ∧ n < cs.length := by
  induction cs generalizing form n with
  | nil => cases h
  | cons c cs ih =>
    simp only [List.cons_append, readMarks] at h ⊢
    split at h
    · rename_i hc
      cases h
      simp [hc]
    · rename_i hc
      rw [if_neg hc]
      split at h
      · rename_i hs
        obtain ⟨⟨g, k⟩, hx, hf⟩ := Option.map_eq_some_iff.1 h
        cases hf
        obtain ⟨hr, hlt⟩ := ih hx
        rw [if_pos hs, hr]
        exact ⟨rfl, by simpa using hlt⟩
      · rename_i hs
        rw [if_neg hs]
        split at h
        · rename_i ha
          obtain ⟨⟨g, k⟩, hx, hf⟩ := Option.map_eq_some_iff.1 h
          cases hf
          obtain ⟨hr, hlt⟩ := ih hx
          rw [if_pos ha, hr]
          exact ⟨rfl, by simpa using hlt⟩
        · cases h

theorem string?_append
    {cs : List Char} {kind : TokenKind} {n : Nat} {d : Char}
    (h : string? cs = some (.ok (kind, n))) (hd : d ≠ '"') (ds : List Char) :
    string? (cs ++ d :: ds) = some (.ok (kind, n)) ∧ n ≤ cs.length := by
  unfold string? at h ⊢
  obtain ⟨⟨form, marks⟩, hm, hr⟩ := Option.map_eq_some_iff.1 h
  obtain ⟨hm', hlt⟩ := readMarks_append hm (d :: ds)
  rw [hm']
  simp only at hr
  cases hq : readQuoted form (cs.drop marks) with
  | error fault => rw [hq] at hr; cases hr
  | ok r =>
    obtain ⟨value, k⟩ := r
    have hne : cs.drop marks ≠ [] := by
      intro hnil
      have := List.drop_eq_nil_iff.1 hnil
      omega
    obtain ⟨hq', hk⟩ := readQuoted_append hq hd ds hne
    rw [hq] at hr
    simp only [Except.map, Except.ok.injEq, Prod.mk.injEq] at hr
    rw [List.length_drop] at hk
    have hdrop : (cs ++ d :: ds).drop marks = cs.drop marks ++ d :: ds :=
      List.drop_append_of_le_length (by omega)
    simp only [Option.map_some, hdrop, hq', Except.map]
    refine ⟨by rw [hr.1, hr.2], ?_⟩
    omega

end Literal

namespace Piece

open Literal

theorem readBlockComment_append
    {cs text : List Char} {n : Nat}
    (h : readBlockComment cs = some (text, n)) (ds : List Char) :
    readBlockComment (cs ++ ds) = some (text, n) ∧ n ≤ cs.length := by
  fun_induction readBlockComment cs generalizing text n
  case case1 => cases h
  case case2 =>
    cases h
    exact ⟨by simp [readBlockComment], by simp⟩
  case case3 c cs hend ih =>
    obtain ⟨⟨t, k⟩, hr, hf⟩ := Option.map_eq_some_iff.1 h
    cases hf
    obtain ⟨hs, hk⟩ := ih hr
    cases cs with
    | nil => cases hr
    | cons e cs =>
      have hne : ¬ (c = '*' ∧ e = '/') := by
        rintro ⟨rfl, rfl⟩
        exact hend _ rfl rfl
      refine ⟨?_, by simpa using hk⟩
      rw [List.cons_append] at hs
      rw [List.cons_append, List.cons_append]
      unfold readBlockComment
      split
      · rename_i heq
        exact absurd ⟨rfl, (List.cons.inj heq).1⟩ hne
      · rw [hs]
        rfl

theorem startsWithDigit_append
    {cs : List Char} {d : Char}
    (hd : Delimits cs d) (ds : List Char) :
    startsWithDigit (cs ++ d :: ds) = startsWithDigit cs := by
  cases cs with
  | nil => exact hd.not_isDigit
  | cons e cs => rfl

/-- A number has no more characters than the text, and what cannot continue it does not. -/
theorem numberLength_append
    {cs : List Char} {d : Char}
    (hd : Delimits cs d) (hex afterExponent : Bool) (ds : List Char) :
    numberLength hex afterExponent (cs ++ d :: ds) = numberLength hex afterExponent cs ∧
      numberLength hex afterExponent cs ≤ cs.length := by
  induction cs generalizing afterExponent with
  | nil =>
    have halnum := hd.not_isAlphanum
    have hunder := hd.ne_underscore
    obtain ⟨_, hdot, hplus, hminus, _⟩ := hd.notSign
    simp [numberLength, halnum, hunder, hdot, hplus, hminus]
  | cons c cs ih =>
    rw [List.cons_append, numberLength, numberLength, startsWithDigit_append hd.tail,
      (ih hd.tail _).1, (ih hd.tail _).1]
    refine ⟨rfl, ?_⟩
    have h1 := (ih hd.tail (c == 'e' || c == 'E')).2
    have h2 := (ih hd.tail false).2
    rw [List.length_cons]
    split
    · omega
    · split <;> omega

theorem readPunct_append
    {c : Char} {cs : List Char} {piece : Piece} {n : Nat} {d : Char}
    (h : readPunct c cs = .ok (piece, n)) (hd : Delimits (c :: cs) d) (ds : List Char) :
    readPunct c (cs ++ d :: ds) = .ok (piece, n) ∧ n ≤ cs.length + 1 := by
  cases cs with
  | nil =>
    have hpair := hd.notPaired c rfl
    simp only [readPunct, List.nil_append] at h ⊢
    rw [hpair]
    simp only
    refine ⟨h, ?_⟩
    split at h
    · cases h
      simp
    · cases h
  | cons e cs =>
    have hdigit := startsWithDigit_append hd.tail.tail ds
    simp only [readPunct, List.cons_append, List.drop_succ_cons, List.drop_zero, hdigit] at h ⊢
    refine ⟨h, ?_⟩
    rw [List.length_cons]
    split at h
    · split at h <;> cases h <;> omega
    · split at h
      · cases h
        omega
      · cases h

theorem isHexadecimal_append
    {c : Char} {cs : List Char} {d : Char}
    (hd : Delimits (c :: cs) d) (ds : List Char) :
    isHexadecimal (c :: (cs ++ d :: ds)) = isHexadecimal (c :: cs) := by
  by_cases hc : c = '0'
  · subst hc
    cases cs with
    | cons e cs => simp [isHexadecimal]
    | nil =>
      have hx : d ≠ 'x' := by
        rintro rfl
        exact absurd hd.notPart (by decide)
      have hX : d ≠ 'X' := by
        rintro rfl
        exact absurd hd.notPart (by decide)
      simp [isHexadecimal, hx, hX]
  · simp [isHexadecimal, hc]

/-- No mark starts with a dollar or an at sign. -/
theorem readPunct_of_notMark
    {c : Char}
    (hc : c = '$' ∨ c = '@') (cs : List Char) :
    readPunct c cs = .error (.unexpectedCharacter c) := by
  have hhead : ∀ p : Punct, p.text.toList.head? ≠ some c := by
    intro p
    rcases hc with rfl | rfl <;> cases p <;> decide
  have hsingle : Punct.ofChar? c = none := by
    cases hp : Punct.ofChar? c with
    | none => rfl
    | some p => exact absurd (by rw [Punct.text_ofChar? hp]; rfl) (hhead p)
  have hdouble : ∀ d, Punct.ofChars? c d = none := by
    intro d
    cases hp : Punct.ofChars? c d with
    | none => rfl
    | some p => exact absurd (by rw [Punct.text_ofChars? hp]; rfl) (hhead p)
  unfold readPunct
  cases cs with
  | nil => simp [hsingle]
  | cons d cs => simp [hsingle, hdouble]

theorem string?_eq_none
    {c : Char} {cs : List Char}
    (hq : c ≠ '"') (hs : c ≠ '$') (ha : c = '@' → cs.head?.any isIdentStart = true) :
    string? (c :: cs) = none := by
  unfold string?
  rw [Option.map_eq_none_iff]
  unfold readMarks
  rw [if_neg hq, if_neg hs]
  split
  · rename_i hc
    have hstart := ha hc.1
    cases cs with
    | nil => rfl
    | cons e cs =>
      have he : isIdentStart e = true := by simpa using hstart
      have heq : e ≠ '"' := by
        rintro rfl
        exact absurd he (by decide)
      have hes : e ≠ '$' := by
        rintro rfl
        exact absurd he (by decide)
      simp [readMarks, heq, hes]
  · rfl

/-- What a token starts with, when it is no string literal. -/
theorem ne_of_readToken
    {c : Char} {cs : List Char} {piece : Piece} {n : Nat}
    (h : readToken c cs = .ok (piece, n)) (hs : string? (c :: cs) = none) :
    c ≠ '"' ∧ c ≠ '$' ∧ (c = '@' → cs.head?.any isIdentStart = true) := by
  unfold readToken at h
  rw [hs] at h
  simp only at h
  refine ⟨?_, ?_, ?_⟩
  · rintro rfl
    simp [string?, readMarks] at hs
  · rintro rfl
    rw [if_neg (by decide), if_neg (by simp), if_neg (by decide), if_neg (by simp),
      readPunct_of_notMark (Or.inl rfl)] at h
    cases h
  · rintro rfl
    cases ha : cs.head?.any isIdentStart with
    | true => rfl
    | false =>
      rw [if_neg (by decide), if_neg (by simp [ha]), if_neg (by decide), if_neg (by simp),
        readPunct_of_notMark (Or.inr rfl)] at h
      cases h

theorem character_append
    {cs : List Char} {kind : TokenKind} {n : Nat}
    (h : character cs = .ok (kind, n)) (ds : List Char) :
    character (cs ++ ds) = .ok (kind, n) ∧ n ≤ cs.length + 1 := by
  unfold character at h ⊢
  cases hr : readCharacter cs with
  | error fault => rw [hr] at h; cases h
  | ok r =>
    obtain ⟨value, k⟩ := r
    obtain ⟨hs, hk⟩ := readCharacter_append hr ds
    rw [hr] at h
    rw [hs]
    refine ⟨h, ?_⟩
    cases value with
    | nil => cases h
    | cons v value =>
      cases h
      omega

theorem readIdent_append
    {verbatim : Bool} {cs : List Char} {d : Char}
    (hd : isIdentPart d = false) (ds : List Char) :
    readIdent verbatim (cs ++ d :: ds) = readIdent verbatim cs := by
  unfold readIdent
  rw [takeWhile_append_delimited hd]

theorem readToken_append
    {c : Char} {cs : List Char} {piece : Piece} {n : Nat} {d : Char}
    (h : readToken c cs = .ok (piece, n)) (hd : Delimits (c :: cs) d) (ds : List Char) :
    readToken c (cs ++ d :: ds) = .ok (piece, n) ∧ n ≤ cs.length + 1 := by
  cases hs : string? (c :: cs) with
  | some r =>
    unfold readToken at h ⊢
    rw [hs] at h
    cases r with
    | error fault => cases h
    | ok r =>
      obtain ⟨kind, k⟩ := r
      obtain ⟨hs', hk⟩ := string?_append hs hd.notSign.1 ds
      rw [List.cons_append] at hs'
      rw [hs']
      cases h
      exact ⟨rfl, hk⟩
  | none =>
    obtain ⟨hq, hdollar, hat⟩ := ne_of_readToken h hs
    have hat' : c = '@' → (cs ++ d :: ds).head?.any isIdentStart = true := by
      intro hc
      have := hat hc
      cases cs with
      | nil => cases this
      | cons e cs => exact this
    have hs' := string?_eq_none hq hdollar hat'
    unfold readToken at h ⊢
    rw [hs] at h
    rw [hs']
    simp only at h ⊢
    by_cases hquote : c = '\''
    · rw [if_pos hquote] at h ⊢
      cases hr : character cs with
      | error fault => rw [hr] at h; cases h
      | ok r =>
        obtain ⟨kind, k⟩ := r
        obtain ⟨hr', hk⟩ := character_append hr (d :: ds)
        rw [hr] at h
        rw [hr']
        cases h
        exact ⟨rfl, hk⟩
    rw [if_neg hquote] at h ⊢
    by_cases hc : c = '@'
    · rw [if_pos ⟨hc, hat hc⟩] at h
      rw [if_pos ⟨hc, hat' hc⟩, readIdent_append hd.notPart]
      refine ⟨h, ?_⟩
      have hlen := (List.takeWhile_prefix isIdentPart (l := cs)).length_le
      simp only [readIdent, Except.map, Except.ok.injEq, Prod.mk.injEq] at h
      omega
    rw [if_neg (fun hh => hc hh.1)] at h ⊢
    by_cases hstart : isIdentStart c = true
    · rw [if_pos hstart] at h ⊢
      have happ := @readIdent_append false (c :: cs) d hd.notPart ds
      rw [List.cons_append] at happ
      rw [happ]
      refine ⟨h, ?_⟩
      have hlen := (List.takeWhile_prefix isIdentPart (l := c :: cs)).length_le
      simp only [readIdent, Except.ok.injEq, Prod.mk.injEq] at h
      rw [List.length_cons] at hlen
      omega
    rw [if_neg hstart] at h ⊢
    rw [startsWithDigit_append hd.tail]
    by_cases hnumber : (c.isDigit || (c == '.' && startsWithDigit cs)) = true
    · rw [if_pos hnumber] at h ⊢
      obtain ⟨hlen, hle⟩ := numberLength_append hd (isHexadecimal (c :: cs)) false ds
      rw [isHexadecimal_append hd]
      rw [List.cons_append] at hlen
      simp only [hlen]
      have htake : (c :: (cs ++ d :: ds)).take (numberLength (isHexadecimal (c :: cs)) false
          (c :: cs)) = (c :: cs).take (numberLength (isHexadecimal (c :: cs)) false (c :: cs)) := by
        rw [← List.cons_append, List.take_append_of_le_length hle]
      rw [htake]
      refine ⟨h, ?_⟩
      cases h
      simpa using hle
    rw [if_neg hnumber] at h ⊢
    exact readPunct_append h hd ds

theorem one_le_of_string?
    {cs : List Char} {kind : TokenKind} {n : Nat}
    (h : string? cs = some (.ok (kind, n))) :
    1 ≤ n := by
  unfold string? at h
  obtain ⟨⟨form, marks⟩, -, hr⟩ := Option.map_eq_some_iff.1 h
  simp only at hr
  unfold readQuoted at hr
  simp only at hr
  split at hr
  · rename_i hraw
    generalize readRaw _ _ = r at hr
    cases r with
    | error fault => cases hr
    | ok r =>
      simp only [Except.map, Except.ok.injEq, Prod.mk.injEq] at hr
      omega
  · generalize readString _ _ _ = r at hr
    cases r with
    | error fault => cases hr
    | ok r =>
      simp only [Except.map, Except.ok.injEq, Prod.mk.injEq] at hr
      omega

theorem one_le_numberLength
    {c : Char} {cs : List Char}
    (h : (c.isDigit || (c == '.' && startsWithDigit cs)) = true) (hex : Bool) :
    1 ≤ numberLength hex false (c :: cs) := by
  rw [numberLength]
  split
  · omega
  · rename_i halnum
    have hdigit : c.isDigit = false := by
      cases hc : c.isDigit with
      | false => rfl
      | true => simp [Char.isAlphanum, hc] at halnum
    rw [hdigit, Bool.false_or] at h
    rw [if_pos h]
    omega

theorem one_le_of_readToken
    {c : Char} {cs : List Char} {piece : Piece} {n : Nat}
    (h : readToken c cs = .ok (piece, n)) :
    1 ≤ n := by
  unfold readToken at h
  split at h
  · rename_i r hs
    cases r with
    | error fault => cases h
    | ok r =>
      obtain ⟨kind, k⟩ := r
      cases h
      exact one_le_of_string? hs
  · split at h
    · unfold character at h
      split at h
      · cases h
      · cases h
      · cases h
        omega
    · split at h
      · cases h
        omega
      · split at h
        · rename_i hstart
          have hpart : isIdentPart c = true := by
            simp only [isIdentStart, isIdentPart, Text.isAlphanumeric, Bool.or_eq_true] at hstart ⊢
            rcases hstart with hu | ha
            · exact Or.inl hu
            · exact Or.inr (Or.inl ha)
          cases h
          simp [hpart]
        · split at h
          · rename_i hnumber
            cases h
            exact one_le_numberLength hnumber _
          · unfold readPunct at h
            simp only at h
            split at h
            · split at h <;> cases h <;> omega
            · split at h
              · cases h
                omega
              · cases h

/-- Every piece takes a character. -/
theorem one_le_of_read
    {fresh : Bool} {c : Char} {cs : List Char} {piece : Piece} {n : Nat}
    (h : read fresh c cs = .ok (piece, n)) :
    1 ≤ n := by
  have hline : ∀ x, c = x → x ≠ '\n' → 1 ≤ (restOfLine (c :: cs)).length := by
    rintro x rfl hx
    simp [restOfLine, hx]
  unfold read at h
  split at h
  · cases h
    omega
  · split at h
    · rename_i hc
      cases h
      exact hline '/' hc.1 (by decide)
    · split at h
      · split at h
        · cases h
          omega
        · cases h
      · split at h
        · rename_i hc
          cases h
          exact hline '#' hc.1 (by decide)
        · exact one_le_of_readToken h

/-- A piece is the same whatever follows the text. -/
theorem read_append
    {fresh : Bool} {c : Char} {cs : List Char} {piece : Piece} {n : Nat} {d : Char}
    (h : read fresh c cs = .ok (piece, n)) (hd : Delimits (c :: cs) d)
    (hline : d = '\n' ∨ c ≠ '/' ∧ c ≠ '#') (ds : List Char) :
    read fresh c (cs ++ d :: ds) = .ok (piece, n) ∧ n ≤ cs.length + 1 := by
  obtain ⟨_, _, _, _, hslash, hstar⟩ := hd.notSign
  have hrest : d = '\n' → restOfLine (c :: (cs ++ d :: ds)) = restOfLine (c :: cs) := by
    rintro rfl
    exact takeWhile_append_delimited (by decide) (c :: cs) ds
  have hlen := (List.takeWhile_prefix (· != '\n') (l := c :: cs)).length_le
  have hhead : ∀ x, x = '/' ∨ x = '*' →
      ((cs ++ d :: ds).head? = some x ↔ cs.head? = some x) := by
    intro x hx
    cases cs with
    | nil =>
      have hdx : d ≠ x := by
        rcases hx with rfl | rfl
        · exact hslash
        · exact hstar
      simp [hdx]
    | cons e cs => simp
  unfold read at h ⊢
  by_cases hspace : isSpace c = true
  · rw [if_pos hspace] at h ⊢
    cases h
    exact ⟨rfl, by omega⟩
  rw [if_neg hspace] at h ⊢
  by_cases hcomment : c = '/' ∧ cs.head? = some '/'
  · have hd' : d = '\n' := hline.resolve_right fun hne => hne.1 hcomment.1
    rw [if_pos hcomment] at h
    rw [if_pos ⟨hcomment.1, (hhead '/' (Or.inl rfl)).2 hcomment.2⟩, hrest hd']
    cases h
    exact ⟨rfl, hlen⟩
  rw [if_neg hcomment] at h
  rw [if_neg fun hh => hcomment ⟨hh.1, (hhead '/' (Or.inl rfl)).1 hh.2⟩]
  by_cases hblock : c = '/' ∧ cs.head? = some '*'
  · rw [if_pos hblock] at h
    rw [if_pos ⟨hblock.1, (hhead '*' (Or.inr rfl)).2 hblock.2⟩]
    cases cs with
    | nil => cases hblock.2
    | cons e cs =>
      simp only [List.cons_append, List.drop_succ_cons, List.drop_zero] at h ⊢
      cases hr : readBlockComment cs with
      | none => rw [hr] at h; cases h
      | some r =>
        obtain ⟨text, k⟩ := r
        obtain ⟨hr', hk⟩ := readBlockComment_append hr (d :: ds)
        rw [hr] at h
        rw [hr']
        cases h
        refine ⟨rfl, ?_⟩
        rw [List.length_cons]
        omega
  rw [if_neg hblock] at h
  rw [if_neg fun hh => hblock ⟨hh.1, (hhead '*' (Or.inr rfl)).1 hh.2⟩]
  by_cases hhash : c = '#' ∧ fresh = true
  · have hd' : d = '\n' := hline.resolve_right fun hne => hne.2 hhash.1
    rw [if_pos hhash] at h ⊢
    rw [hrest hd']
    cases h
    exact ⟨rfl, hlen⟩
  rw [if_neg hhash] at h ⊢
  exact readToken_append h hd ds

end Piece

/-- The tokens of a text stand in front of those of what follows it. -/
theorem kindsFrom_append
    {fresh : Bool} {cs : List Char} {d : Char} {ks : List TokenKind}
    (h : kindsFrom fresh cs = some ks) (hd : Delimits cs d)
    (hline : d = '\n' ∨ '/' ∉ cs ∧ '#' ∉ cs) (ds : List Char) :
    kindsFrom fresh (cs ++ d :: ds) =
      (kindsFrom (freshAfter fresh cs) (d :: ds)).map (ks ++ ·) := by
  induction hn : cs.length using Nat.strongRecOn generalizing fresh cs ks with
  | _ n ih =>
    cases cs with
    | nil =>
      rw [kindsFrom_nil] at h
      cases h
      simp
    | cons c cs =>
      rw [kindsFrom_cons] at h
      cases hr : Piece.read fresh c cs with
      | error fault => rw [hr] at h; cases h
      | ok r =>
        obtain ⟨piece, k⟩ := r
        rw [hr] at h
        obtain ⟨js, hjs, rfl⟩ := Option.map_eq_some_iff.1 h
        have hline' : d = '\n' ∨ c ≠ '/' ∧ c ≠ '#' :=
          hline.imp_right fun hm => ⟨fun hc => hm.1 (hc ▸ List.mem_cons_self),
            fun hc => hm.2 (hc ▸ List.mem_cons_self)⟩
        obtain ⟨hr', hk⟩ := Piece.read_append hr hd hline' ds
        have hlt : (cs.drop (k - 1)).length < n := by
          rw [← hn, List.length_drop, List.length_cons]
          omega
        have hrest : d = '\n' ∨ '/' ∉ cs.drop (k - 1) ∧ '#' ∉ cs.drop (k - 1) :=
          hline.imp_right fun hm =>
            ⟨fun hc => hm.1 (List.mem_cons_of_mem _ (List.mem_of_mem_drop hc)),
              fun hc => hm.2 (List.mem_cons_of_mem _ (List.mem_of_mem_drop hc))⟩
        have hstep := ih _ hlt hjs (hd.tail.drop _) hrest rfl
        have htake : (c :: (cs ++ d :: ds)).take k = (c :: cs).take k := by
          rw [← List.cons_append, List.take_append_of_le_length (by simpa using hk)]
        have hdrop : (cs ++ d :: ds).drop (k - 1) = cs.drop (k - 1) ++ d :: ds :=
          List.drop_append_of_le_length (by omega)
        have hfresh :
            freshAfter (freshAfter fresh ((c :: cs).take k)) (cs.drop (k - 1)) =
              freshAfter fresh (c :: cs) := by
          have hk1 := Piece.one_le_of_read hr
          have hsplit : (c :: cs).drop k = cs.drop (k - 1) := by
            rw [show k = k - 1 + 1 by omega, List.drop_succ_cons]
            rfl
          rw [← freshAfter_append, ← hsplit, List.take_append_drop]
        rw [List.cons_append, kindsFrom_cons, hr']
        simp only
        rw [htake, hdrop, hstep, hfresh, Option.map_map]
        simp [Function.comp_def]

end CSharp
end ContentModels

import ContentModels.Proofs.Lexing.Values
import ContentModels.Proofs.Outcome

/-!
# Printing tokens

The tokens of a text, written one after the other with a blank between them, are read back
(`tokenize_printed`).  Each well-formed token is written so that it is read back by itself, and
a blank behind it changes nothing.
-/

namespace ContentModels
namespace CSharp

/-! ## How tokens are written -/

namespace Literal

/-- How a character is written between quotes, where braces may have to be doubled. -/
def escape (quote : Char) (doubled : Bool) (c : Char) : List Char :=
  if c = quote ∨ c = '\\' then ['\\', c]
  else if c = '\n' then ['\\', 'n']
  else if doubled ∧ (c = '\x7b' ∨ c = '\x7d') then [c, c]
  else [c]

/-- The length of the longest run of quotes. -/
def longestRun : List Char → Nat
  | [] => 0
  | c :: cs => max ((c :: cs).takeWhile (· == '"')).length (longestRun cs)

/-- A value between quotes. -/
def quoted (quote : Char) (doubled : Bool) (value : List Char) : List Char :=
  quote :: (value.flatMap (escape quote doubled) ++ [quote])

/-- A value between blanks inside runs of so many quotes. -/
def rawQuoted (n : Nat) (value : List Char) : List Char :=
  List.replicate n '"' ++ ' ' :: (value ++ ' ' :: List.replicate n '"')

/-- The marks in front of the opening quote. -/
def marks (interpolated : Bool) : List Char :=
  if interpolated then ['$'] else []

end Literal

namespace TokenKind

open Literal

/--
How a token is written.  The value of a raw literal stands inside runs of at least three quotes
that are longer than its own; `spare` says how many more quotes there are than needed for that.
-/
def written (spare : String → Nat) : TokenKind → List Char
  | .ident text verbatim => if verbatim then '@' :: text.toList else text.toList
  | .str value interpolated raw =>
    marks interpolated ++
      if raw then rawQuoted (max 3 (longestRun value.toList + 1) + spare value) value.toList
      else quoted '"' interpolated value.toList
  | .character value => quoted '\'' false value.toList
  | .number text => text.toList
  | .punct p => p.text.toList

end TokenKind

/-- Tokens written one after the other, with a blank between them. -/
def printed (spare : String → Nat) (ts : List Token) : String :=
  String.ofList (List.intercalate [' '] (ts.map fun t => t.kind.written spare))

/-! ## Reading single tokens back -/

namespace Literal

/-- What is written of some characters, one by one, is read back up to the closing quote. -/
theorem read_flatMap_escape
    {read : List Char → Reading (List Char)} {write : Char → List Char} {quote : Char}
    (hclose : read [quote] = .ok ([], 1))
    (hwrite : ∀ c rest, read (write c ++ rest) = push c (write c).length (read rest))
    (value : List Char) :
    read (value.flatMap write ++ [quote]) = .ok (value, (value.flatMap write).length + 1) := by
  induction value with
  | nil => exact hclose
  | cons c value ih =>
    rw [List.flatMap_cons, List.append_assoc, hwrite, ih, List.length_append]
    exact congrArg (fun n => Except.ok (c :: value, n)) (by omega)

theorem readCharacter_escape
    (c : Char) (rest : List Char) :
    readCharacter (escape '\'' false c ++ rest) =
      push c (escape '\'' false c).length (readCharacter rest) := by
  unfold escape
  split
  · rename_i hc
    rcases hc with rfl | rfl <;> rfl
  · split
    · rename_i hc
      subst hc
      rfl
    · rename_i hquote hline
      obtain ⟨hne, hback⟩ := not_or.1 hquote
      rw [if_neg (by simp), List.singleton_append, readCharacter.eq_def]
      simp [hne, hback, hline]

theorem readString_escape
    (interpolated : Bool) (c : Char) (rest : List Char) :
    readString ⟨interpolated, false⟩ .text (escape '"' interpolated c ++ rest) =
      push c (escape '"' interpolated c).length
        (readString ⟨interpolated, false⟩ .text rest) := by
  unfold escape
  split
  · rename_i hc
    rcases hc with rfl | rfl <;> simp [readString, decodeEscape]
  · split
    · rename_i hc
      subst hc
      simp [readString, decodeEscape]
    · rename_i hquote hline
      obtain ⟨hne, hback⟩ := not_or.1 hquote
      split
      · rename_i hbrace
        obtain ⟨rfl, rfl | rfl⟩ := hbrace <;> simp [readString]
      · rename_i hbrace
        have hopen : ¬ (c = '\x7b' ∧ interpolated = true) := fun h => hbrace ⟨h.2, .inl h.1⟩
        have hclose : ¬ (c = '\x7d' ∧ interpolated = true) := fun h => hbrace ⟨h.2, .inr h.1⟩
        rw [List.singleton_append, readString.eq_def]
        simp [hne, hback, hline, hopen, hclose]

/-- A run of quotes is no longer than the longest one. -/
theorem le_longestRun
    {cs : List Char} {n : Nat} (h : List.replicate n '"' <:+: cs) :
    n ≤ longestRun cs := by
  induction cs with
  | nil =>
    have hnil : n = 0 := by simpa using List.infix_nil.1 h
    exact hnil.le
  | cons c cs ih =>
    rcases List.infix_cons_iff.1 h with hprefix | hinfix
    · refine Nat.le_trans ?_ (Nat.le_max_left _ _)
      obtain ⟨rest, hrest⟩ := hprefix
      rw [← hrest, List.takeWhile_append_of_pos (by simp)]
      simp
    · exact (ih hinfix).trans (Nat.le_max_right _ _)

/-- A raw literal goes on to the first run of quotes that is as long as the one it starts with. -/
theorem readRaw_between
    {quotes value : List Char} (hquotes : ∀ q ∈ quotes, q = '"') (hvalue : ¬ quotes <:+: value) :
    readRaw quotes (value ++ ' ' :: quotes) =
      .ok (value ++ [' '], value.length + 1 + quotes.length) := by
  -- A run that starts in the value would have the blank behind the value in it.
  have hopen : ∀ cs, ¬ quotes <+: cs → ¬ quotes.isPrefixOf (cs ++ ' ' :: quotes) = true := by
    intro cs hcs hprefix
    have hmem := mem_of_prefix_append (List.isPrefixOf_iff_prefix.1 hprefix) hcs
    exact absurd (hquotes ' ' hmem) (by decide)
  induction value with
  | nil =>
    have hblank : ¬ quotes.isPrefixOf (' ' :: quotes) = true :=
      hopen [] fun h => hvalue h.isInfix
    have hclose : readRaw quotes quotes = .ok ([], quotes.length) := by
      cases quotes with
      | nil => exact absurd List.nil_infix hvalue
      | cons q quotes => rw [readRaw, if_pos (List.isPrefixOf_iff_prefix.2 (List.prefix_refl _))]
    rw [List.nil_append, readRaw, if_neg hblank, hclose]
    simp [push, Except.map, Nat.add_comm]
  | cons c value ih =>
    have hnext : ¬ quotes.isPrefixOf (c :: (value ++ ' ' :: quotes)) = true :=
      hopen (c :: value) fun h => hvalue h.isInfix
    rw [List.cons_append, readRaw, if_neg hnext, ih fun h => hvalue (List.infix_cons h)]
    simp [push, Except.map]
    omega

/-- The marks in front of a literal say whether it is interpolated. -/
theorem string?_marked
    (interpolated : Bool) (cs : List Char) :
    string? (marks interpolated ++ '"' :: cs) =
      some ((readQuoted ⟨interpolated, false⟩ ('"' :: cs)).map fun x =>
        (x.1, x.2 + (marks interpolated).length)) := by
  cases interpolated <;> simp [string?, readMarks, marks]

/-- A literal whose value is written character by character is read back. -/
theorem readQuoted_escaped
    (interpolated : Bool) (value : List Char) :
    readQuoted ⟨interpolated, false⟩ (quoted '"' interpolated value) =
      .ok (.str (String.ofList value) interpolated false,
        (quoted '"' interpolated value).length) := by
  have hclose : readString ⟨interpolated, false⟩ .text ['"'] = .ok ([], 1) := by
    simp [readString]
  have hstring := read_flatMap_escape hclose (readString_escape interpolated) value
  -- What is written of the value does not start with a quote.
  have hquotes : ((quoted '"' interpolated value).takeWhile (· == '"')).length ≤ 2 := by
    unfold quoted
    cases value with
    | nil => exact Nat.le_refl 2
    | cons c value =>
      have hfirst : ∃ d ds, escape '"' interpolated c = d :: ds ∧ d ≠ '"' := by
        unfold escape
        split
        · exact ⟨_, _, rfl, by decide⟩
        · rename_i hquote
          split
          · exact ⟨_, _, rfl, by decide⟩
          · split <;> exact ⟨_, _, rfl, fun h => hquote (.inl h)⟩
      obtain ⟨d, ds, hescape, hd⟩ := hfirst
      rw [List.flatMap_cons, hescape]
      simp [hd]
  unfold readQuoted
  dsimp only
  rw [if_neg (by omega)]
  unfold quoted
  rw [List.drop_succ_cons, List.drop_zero, hstring, List.length_cons, List.length_append]
  rfl

/-- A raw literal whose value is set between blanks and longer runs of quotes is read back. -/
theorem readQuoted_raw
    (interpolated : Bool) {value : List Char} (hvalue : Text.IsTrimmed value) {n : Nat}
    (hthree : 3 ≤ n) (hrun : longestRun value < n) :
    readQuoted ⟨interpolated, false⟩ (rawQuoted n value) =
      .ok (.str (String.ofList value) interpolated true, (rawQuoted n value).length) := by
  have hquotes : (rawQuoted n value).takeWhile (· == '"') = List.replicate n '"' := by
    unfold rawQuoted
    rw [List.takeWhile_append_of_pos (by simp)]
    simp
  have hinfix : ¬ List.replicate n '"' <:+: ' ' :: value := by
    intro h
    rcases List.infix_cons_iff.1 h with hprefix | hinfix
    · obtain ⟨m, rfl⟩ := Nat.exists_eq_add_of_le' hthree
      obtain ⟨rest, hrest⟩ := hprefix
      exact absurd (List.cons.inj hrest).1 (by decide)
    · exact absurd (le_longestRun hinfix) (by omega)
  have hread := readRaw_between (fun q hq => List.eq_of_mem_replicate hq) hinfix
  unfold readQuoted
  dsimp only
  rw [hquotes, List.length_replicate, if_pos ⟨hthree, rfl⟩]
  unfold rawQuoted
  rw [List.drop_left' (by simp), ← List.cons_append, hread]
  simp only [Except.map, List.cons_append, Text.trimChars_between hvalue]
  simp only [List.length_cons, List.length_append, List.length_replicate]
  exact congrArg (fun m => Except.ok (_, m)) (by omega)

end Literal

/-- What stands at the head of a text when it is read as a token, to its end. -/
structure Piece.Spells (k : TokenKind) (c : Char) (cs : List Char) : Prop where
  notSpace : isSpace c = false
  notHash : c ≠ '#'
  notComment : c = '/' → cs.head? ≠ some '/' ∧ cs.head? ≠ some '*'
  reads : readToken c cs = .ok (.token k, cs.length + 1)

namespace Piece

open Literal

variable {spare : String → Nat}

theorem Spells.read_eq
    {k : TokenKind} {c : Char} {cs : List Char} (h : Spells k c cs) (fresh : Bool)
    {rest : List Char} (hrest : ∀ d ∈ rest.head?, d = ' ') :
    read fresh c (cs ++ rest) = .ok (.token k, cs.length + 1) := by
  have hcomment : c = '/' → (cs ++ rest).head? ≠ some '/' ∧ (cs ++ rest).head? ≠ some '*' := by
    intro hc
    have hcs := h.notComment hc
    cases cs with
    | cons d cs => exact hcs
    | nil =>
      constructor <;> exact fun hd => absurd (hrest _ hd) (by decide)
  have hreads : readToken c (cs ++ rest) = .ok (.token k, cs.length + 1) := by
    cases rest with
    | nil => rw [List.append_nil, h.reads]
    | cons d rest =>
      obtain rfl := hrest d rfl
      exact (readToken_append h.reads (delimits_space _) rest).1
  unfold read
  rw [if_neg (by simp [h.notSpace]), if_neg fun hc => (hcomment hc.1).1 hc.2,
    if_neg fun hc => (hcomment hc.1).2 hc.2, if_neg fun hc => h.notHash hc.1, hreads]

theorem spells_ident
    {text : String} {verbatim : Bool} (h : (TokenKind.ident text verbatim).WellFormed) :
    ∃ c cs, (TokenKind.ident text verbatim).written spare = c :: cs ∧
      Spells (.ident text verbatim) c cs := by
  obtain ⟨hstart, hpart⟩ := h
  cases htext : text.toList with
  | nil =>
    rw [htext] at hstart
    cases hstart
  | cons c cs =>
    rw [htext] at hstart hpart
    have hc : isIdentStart c = true := hstart
    have hword : ∀ verbatim, readIdent verbatim (c :: cs) =
        .ok (.token (.ident text verbatim), cs.length + 1) := by
      intro verbatim
      unfold readIdent
      have hall : (c :: cs ++ []).takeWhile isIdentPart = c :: cs ++ [] :=
        List.takeWhile_append_of_pos hpart
      rw [List.append_nil] at hall
      rw [hall, ← htext]
      dsimp only
      rw [String.ofList_toList, htext]
      rfl
    cases verbatim with
    | false =>
      exact ⟨c, cs, htext, not_isSpace (hpart c List.mem_cons_self), ne_of_isIdentStart hc (by decide),
        fun hslash => absurd hslash (ne_of_isIdentStart hc (by decide)),
        (readToken_word hc cs).trans (hword false)⟩
    | true =>
      refine ⟨'@', c :: cs, congrArg _ htext, by decide, by decide,
        fun hslash => absurd hslash (by decide), ?_⟩
      have hstring : string? ('@' :: c :: cs) = none :=
        string?_eq_none (by decide) (by decide) fun _ => hstart
      unfold readToken
      rw [hstring]
      simp [hc, hword, Except.map]

theorem spells_number
    {text : String} (h : (TokenKind.number text).WellFormed) :
    ∃ c cs, text.toList = c :: cs ∧ Spells (.number text) c cs := by
  obtain ⟨hstarts, hwhole⟩ := h
  cases htext : text.toList with
  | nil =>
    rw [htext] at hstarts
    cases hstarts
  | cons c cs =>
    rw [htext] at hstarts hwhole
    have hdigit : c.isDigit = true ∨ c = '.' := by
      simp only [startsNumber, Bool.or_eq_true, Bool.and_eq_true, beq_iff_eq] at hstarts
      exact hstarts.imp_right And.left
    have hplain : isPlain c = true := by
      rcases hdigit with hdigit | rfl
      · unfold isPlain
        rw [isIdentPart_of_isDigit hdigit, Bool.true_or]
      · decide
    have hstart : ¬ isIdentStart c = true := by
      intro hstart
      rcases hdigit with hdigit | rfl
      · rw [not_isDigit_of_isIdentStart hstart] at hdigit
        cases hdigit
      · exact absurd hstart (by decide)
    refine ⟨c, cs, rfl, not_isSpace_of_isPlain hplain, ne_of_isPlain hplain (by decide),
      fun hslash => absurd hslash (ne_of_isPlain hplain (by decide)), ?_⟩
    unfold startsNumber at hstarts
    rw [readToken_of_isPlain hplain hstart, if_pos hstarts, hwhole, List.take_length, ← htext,
      String.ofList_toList, htext]
    rfl

theorem spells_character
    {value : String} (h : (TokenKind.character value).WellFormed) :
    ∃ c cs, quoted '\'' false value.toList = c :: cs ∧ Spells (.character value) c cs := by
  refine ⟨_, _, rfl, by decide, by decide, fun hslash => absurd hslash (by decide), ?_⟩
  have hclose : readCharacter ['\''] = .ok ([], 1) := by
    simp [readCharacter]
  have hread := read_flatMap_escape hclose readCharacter_escape value.toList
  have hstring : ∀ cs, string? ('\'' :: cs) = none :=
    fun cs => string?_eq_none (by decide) (by decide) fun hat => absurd hat (by decide)
  have hvalue : value.toList ≠ [] := h
  have hcharacter : character (value.toList.flatMap (escape '\'' false) ++ ['\'']) =
      .ok (.character value, (value.toList.flatMap (escape '\'' false)).length + 1 + 1) := by
    unfold character
    rw [hread]
    cases hlist : value.toList with
    | nil => exact absurd hlist hvalue
    | cons c cs =>
      dsimp only
      rw [← hlist, String.ofList_toList]
  unfold readToken
  rw [hstring, hcharacter]
  simp [Except.map]

theorem spells_of_string?
    {k : TokenKind} {c : Char} {cs : List Char} (hc : c = '"' ∨ c = '$')
    (h : string? (c :: cs) = some (.ok (k, cs.length + 1))) :
    Spells k c cs := by
  refine ⟨?_, ?_, fun hslash => ?_, ?_⟩
  · rcases hc with rfl | rfl <;> decide
  · rcases hc with rfl | rfl <;> decide
  · subst hslash
    exact absurd hc (by decide)
  · unfold readToken
    rw [h]
    rfl

/-- A string literal starts with its marks and a quote. -/
theorem exists_marked
    (interpolated : Bool) (cs : List Char) :
    ∃ c ds, marks interpolated ++ '"' :: cs = c :: ds ∧ (c = '"' ∨ c = '$') := by
  cases interpolated
  · exact ⟨_, _, rfl, .inl rfl⟩
  · exact ⟨_, _, rfl, .inr rfl⟩

theorem spells_str
    {value : String} {interpolated raw : Bool}
    (h : (TokenKind.str value interpolated raw).WellFormed) :
    ∃ c cs, (TokenKind.str value interpolated raw).written spare = c :: cs ∧
      Spells (.str value interpolated raw) c cs := by
  -- The literal behind its marks, which is read to its end.
  obtain ⟨body, hwritten, hbody⟩ : ∃ body,
      (TokenKind.str value interpolated raw).written spare = marks interpolated ++ '"' :: body ∧
      readQuoted ⟨interpolated, false⟩ ('"' :: body) =
        .ok (.str value interpolated raw, ('"' :: body).length) := by
    cases raw with
    | false =>
      have hread := readQuoted_escaped interpolated value.toList
      rw [String.ofList_toList] at hread
      exact ⟨_, rfl, hread⟩
    | true =>
      have hthree : 3 ≤ max 3 (longestRun value.toList + 1) + spare value := by omega
      have hrun : longestRun value.toList < max 3 (longestRun value.toList + 1) + spare value := by
        omega
      have hread := readQuoted_raw interpolated h hthree hrun
      obtain ⟨body, hbody⟩ : ∃ body,
          rawQuoted (max 3 (longestRun value.toList + 1) + spare value) value.toList =
            '"' :: body := by
        obtain ⟨n, hn⟩ := Nat.exists_eq_add_of_le' hthree
        rw [hn]
        exact ⟨_, rfl⟩
      rw [String.ofList_toList, hbody] at hread
      exact ⟨body, congrArg (marks interpolated ++ ·) hbody, hread⟩
  obtain ⟨c, cs, hcs, hc⟩ := exists_marked interpolated body
  refine ⟨c, cs, hwritten.trans hcs, spells_of_string? hc ?_⟩
  have hlength := congrArg List.length hcs
  rw [List.length_append, Nat.add_comm] at hlength
  rw [← hcs, string?_marked, hbody]
  exact congrArg (fun n => some (Except.ok (_, n))) hlength

theorem spells_punct
    (p : Punct) :
    ∃ c cs, p.text.toList = c :: cs ∧ Spells (.punct p) c cs := by
  cases p <;> exact ⟨_, _, rfl, by decide, by decide, by decide, rfl⟩

/-- A well-formed token is read back from how it is written. -/
theorem spells_written
    (spare : String → Nat) {k : TokenKind} (h : k.WellFormed) :
    ∃ c cs, k.written spare = c :: cs ∧ Spells k c cs := by
  cases k with
  | ident text verbatim => exact spells_ident h
  | str value interpolated raw => exact spells_str h
  | character value => exact spells_character h
  | number text => exact spells_number h
  | punct p => exact spells_punct p

end Piece

/-! ## Reading texts back -/

/-- A token is read back in front of nothing or of a blank, and what follows it is read on its own. -/
theorem Piece.Spells.kindsFrom_eq
    {k : TokenKind} {c : Char} {cs : List Char} (h : Piece.Spells k c cs) (fresh : Bool)
    (rest : List Char) (hrest : ∀ d ∈ rest.head?, d = ' ') :
    kindsFrom fresh (c :: cs ++ rest) =
      (kindsFrom (freshAfter fresh (c :: cs)) rest).map ([k] ++ ·) :=
  kindsFrom_token (h.read_eq fresh hrest)

/-- Well-formed tokens are read back, wherever on a line they are written. -/
theorem kindsFrom_written
    (spare : String → Nat) {ks : List TokenKind} (h : ∀ k ∈ ks, k.WellFormed) (fresh : Bool) :
    kindsFrom fresh (List.intercalate [' '] (ks.map (·.written spare))) = some ks := by
  induction ks generalizing fresh with
  | nil => exact kindsFrom_nil fresh
  | cons k ks ih =>
    obtain ⟨c, cs, hwritten, hspells⟩ := Piece.spells_written spare (h k List.mem_cons_self)
    have hks : ∀ k ∈ ks, k.WellFormed := fun k hk => h k (List.mem_cons_of_mem _ hk)
    rw [List.map_cons, hwritten]
    cases ks with
    | nil =>
      have hread := hspells.kindsFrom_eq fresh [] nofun
      rw [List.append_nil, kindsFrom_nil] at hread
      rw [List.map_nil, List.intercalate_singleton, hread]
      rfl
    | cons next ks =>
      have hblank : ∀ rest : List Char, ∀ d ∈ (' ' :: rest).head?, d = ' ' := by simp
      rw [List.map_cons, List.intercalate_cons_cons, ← List.map_cons, List.append_assoc,
        List.singleton_append, hspells.kindsFrom_eq fresh _ (hblank _), kindsFrom_blank (by decide),
        ih hks]
      rfl

/--
The tokens of every text, each written in its own form with a blank between them, are read back:
their kinds are the same, whatever number of quotes is spared around raw literals.
-/
theorem tokenize_printed
    {source : String} {l : Lexed} (h : tokenize source = .ok l) (spare : String → Nat) :
    (tokenize (printed spare l.tokens)).map (fun m => m.tokens.map (·.kind)) =
      .ok (l.tokens.map (·.kind)) := by
  have hkinds : ∀ k ∈ l.tokens.map (·.kind), k.WellFormed := by
    intro k hk
    obtain ⟨t, ht, rfl⟩ := List.mem_map.1 hk
    exact wellFormed_of_tokenizeFrom h t ht
  have hread := kindsFrom_written spare hkinds true
  rw [List.map_map] at hread
  obtain ⟨m, hm, hkinds⟩ := Outcome.exists_of_toOption_map hread
  have hprinted : tokenize (printed spare l.tokens) = .ok m := by
    unfold printed tokenize
    rw [String.toList_ofList]
    exact hm
  rw [hprinted]
  exact congrArg Except.ok hkinds

/-- A verbatim word, literals of all forms, and a number in front of a mark. -/
def literalTokens : List Token :=
  [⟨.ident "if" true, 1⟩, ⟨.str "\x7ba\x7d\n" true false, 1⟩, ⟨.str "b \"c\"" false true, 1⟩,
    ⟨.str "\\" false false, 1⟩, ⟨.character "'", 1⟩, ⟨.number "1e-5", 1⟩, ⟨.punct .dot, 1⟩]

theorem tokenize_printed_literals :
    tokenize "@if $\"\x7ba\x7d\\n\"\"\"\"b \"c\" \"\"\"@\"\\\"'\\''1e-5." = .ok ⟨literalTokens, []⟩ ∧
    printed (fun _ => 1) literalTokens =
      "@if $\"\x7b\x7ba\x7d\x7d\\n\" \"\"\"\" b \"c\" \"\"\"\" \"\\\\\" '\\'' 1e-5 ." ∧
    (tokenize (printed (fun _ => 1) literalTokens)).map (fun m => m.tokens.map (·.kind)) =
      .ok (literalTokens.map (·.kind)) := by
  have hlexed : tokenize "@if $\"\x7ba\x7d\\n\"\"\"\"b \"c\" \"\"\"@\"\\\"'\\''1e-5." =
      .ok ⟨literalTokens, []⟩ := by
    decide +kernel
  exact ⟨hlexed, by decide +kernel, tokenize_printed hlexed fun _ => 1⟩

end CSharp
end ContentModels

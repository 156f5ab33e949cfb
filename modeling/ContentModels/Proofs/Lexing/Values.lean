import ContentModels.Proofs.Lexing.Words

/-!
# What tokens can be

A token holds more than any text has, such as a word with a blank in it.  The kinds of
tokens that are read from texts are well-formed (`wellFormed_of_tokenizeFrom`): words and
numbers are what the reader of words and numbers takes as a whole, a character literal is
not empty, and the value of a raw literal neither starts nor ends with a blank.
-/

namespace ContentModels

namespace Text

/-- Neither end of the characters is a blank. -/
structure IsTrimmed (cs : List Char) : Prop where
  head : ∀ c ∈ cs.head?, isBlank c = false
  last : ∀ c ∈ cs.getLast?, isBlank c = false

theorem head?_dropWhile_isBlank
    (cs : List Char) :
    ∀ c ∈ (cs.dropWhile isBlank).head?, isBlank c = false := by
  intro c hc
  have hnot := List.head?_dropWhile_not isBlank cs
  rw [Option.mem_def.1 hc] at hnot
  simpa using hnot

theorem trimEndChars_prefix
    (cs : List Char) :
    trimEndChars cs <+: cs := by
  have hsuffix := List.dropWhile_suffix isBlank (l := cs.reverse)
  unfold trimEndChars
  simpa using List.reverse_prefix.2 hsuffix

theorem isTrimmed_trimChars
    (cs : List Char) :
    IsTrimmed (trimChars cs) where
  head := by
    intro c hc
    have hprefix := trimEndChars_prefix (cs.dropWhile isBlank)
    obtain ⟨rest, hrest⟩ := hprefix
    refine head?_dropWhile_isBlank cs c ?_
    rw [← hrest]
    unfold trimChars at hc
    rw [Option.mem_def, List.head?_append, Option.mem_def.1 hc]
    rfl
  last := by
    intro c hc
    unfold trimChars trimEndChars at hc
    rw [List.getLast?_reverse] at hc
    exact head?_dropWhile_isBlank _ c hc

/-- Blanks around characters are trimmed away. -/
theorem trimChars_between
    {cs : List Char} (h : IsTrimmed cs) :
    trimChars (' ' :: (cs ++ [' '])) = cs := by
  have hspace : isBlank ' ' = true := by decide
  unfold trimChars
  rw [List.dropWhile_cons_of_pos hspace]
  cases cs with
  | nil => rfl
  | cons c cs =>
    have hhead : isBlank c = false := h.head c rfl
    have hlast := h.last
    rw [← List.head?_reverse] at hlast
    unfold trimEndChars
    rw [List.cons_append, List.dropWhile_cons_of_neg (by simp [hhead]), ← List.cons_append,
      List.reverse_append, List.reverse_singleton, List.singleton_append,
      List.dropWhile_cons_of_pos hspace]
    generalize hrev : (c :: cs).reverse = ds at hlast ⊢
    cases ds with
    | nil => simp at hrev
    | cons d ds =>
      have hd : isBlank d = false := hlast d rfl
      rw [List.dropWhile_cons_of_neg (by simp [hd]), ← hrev, List.reverse_reverse]

end Text

namespace CSharp

namespace Piece

/-- Whether the list starts with a digit, or with a point and a digit. -/
def startsNumber : List Char → Bool
  | [] => false
  | c :: cs => c.isDigit || (c == '.' && startsWithDigit cs)

/-- What starts as a number and goes on as one to its end. -/
structure IsNumber (cs : List Char) : Prop where
  starts : startsNumber cs = true
  whole : numberLength (isHexadecimal cs) false cs = cs.length

end Piece

/-- The kinds of tokens that are read from texts. -/
def TokenKind.WellFormed : TokenKind → Prop
  | .ident text _ =>
    text.toList.head?.any Piece.isIdentStart = true ∧ ∀ c ∈ text.toList, Piece.isIdentPart c = true
  | .str _ _ false => True
  | .str value _ true => Text.IsTrimmed value.toList
  | .character value => value.toList ≠ []
  | .number text => Piece.IsNumber text.toList
  | .punct _ => True

open TokenKind

namespace Piece

theorem wellFormed_of_string?
    {cs : List Char} {k : TokenKind} {n : Nat}
    (h : Literal.string? cs = some (.ok (k, n))) :
    k.WellFormed := by
  unfold Literal.string? at h
  obtain ⟨⟨form, marks⟩, -, h⟩ := Option.map_eq_some_iff.1 h
  dsimp only at h
  unfold Literal.readQuoted at h
  dsimp only at h
  split at h
  · generalize Literal.readRaw _ _ = r at h
    cases r with
    | error fault => cases h
    | ok x =>
      cases h
      have htrimmed := Text.isTrimmed_trimChars x.1
      rwa [← String.toList_ofList (l := Text.trimChars x.1)] at htrimmed
  · generalize Literal.readString _ _ _ = r at h
    cases r <;> cases h
    trivial

theorem wellFormed_of_character
    {cs : List Char} {k : TokenKind} {n : Nat}
    (h : Literal.character cs = .ok (k, n)) :
    k.WellFormed := by
  unfold Literal.character at h
  split at h
  · cases h
  · cases h
  · rename_i value _ hne _
    cases h
    change (String.ofList value).toList ≠ []
    rw [String.toList_ofList]
    exact hne

theorem wellFormed_of_readIdent
    {verbatim : Bool} {cs : List Char} {k : TokenKind} {n : Nat}
    (hcs : cs.head?.any isIdentStart = true)
    (h : readIdent verbatim cs = .ok (.token k, n)) :
    k.WellFormed := by
  cases h
  have hpart : ∀ c ∈ cs.takeWhile isIdentPart, isIdentPart c = true :=
    fun c hc => List.all_eq_true.1 List.all_takeWhile c hc
  have hhead : (cs.takeWhile isIdentPart).head?.any isIdentStart = true := by
    cases cs with
    | nil => cases hcs
    | cons c cs =>
      rw [List.takeWhile_cons_of_pos (isIdentPart_of_isIdentStart hcs)]
      exact hcs
  rw [← String.toList_ofList (l := cs.takeWhile isIdentPart)] at hpart hhead
  exact ⟨hhead, hpart⟩

/-! ### Numbers -/

theorem numberLength_le
    (hex afterExponent : Bool) (cs : List Char) :
    numberLength hex afterExponent cs ≤ cs.length := by
  induction cs generalizing afterExponent with
  | nil => exact Nat.le_refl 0
  | cons c cs ih =>
    rw [numberLength, List.length_cons]
    split
    · exact Nat.succ_le_succ (ih _)
    · split
      · exact Nat.succ_le_succ (ih _)
      · exact Nat.zero_le _

/-- The digit behind a point is part of the number. -/
theorem startsWithDigit_take
    {cs : List Char} (h : startsWithDigit cs = true) (hex : Bool) :
    startsWithDigit (cs.take (numberLength hex false cs)) = true := by
  cases cs with
  | nil => cases h
  | cons c cs =>
    have hdigit : c.isDigit = true := h
    have hstart : (c.isDigit || (c == '.' && startsWithDigit cs)) = true := by simp [hdigit]
    have hpos := one_le_numberLength hstart hex
    obtain ⟨n, hn⟩ := Nat.exists_eq_add_of_le' hpos
    rw [hn, List.take_succ_cons]
    exact h

/-- What is read as a number is read so when nothing follows it. -/
theorem numberLength_take
    (hex afterExponent : Bool) (cs : List Char) :
    numberLength hex afterExponent (cs.take (numberLength hex afterExponent cs)) =
      numberLength hex afterExponent cs := by
  induction cs generalizing afterExponent with
  | nil => rfl
  | cons c cs ih =>
    rw [numberLength]
    split
    · rename_i hpart
      rw [List.take_succ_cons, numberLength, if_pos hpart, ih]
    · rename_i hpart
      split
      · rename_i hpoint
        have hpoint' := Bool.and_eq_true_iff.1 hpoint
        rw [List.take_succ_cons, numberLength, if_neg hpart, startsWithDigit_take hpoint'.2 hex,
          hpoint'.1, if_pos (by rfl), ih]
      · rfl

theorem isHexadecimal_of_take
    {cs : List Char} {n : Nat} (h : isHexadecimal (cs.take n) = true) :
    isHexadecimal cs = true := by
  match cs, n with
  | [], _ | _ :: _, 0 | [_], _ + 1 | _ :: _ :: _, 1 => simp [isHexadecimal] at h
  | c :: d :: cs, n + 2 =>
    by_cases hc : c = '0'
    · subst hc
      exact h
    · simp [isHexadecimal, hc] at h

/-- A hexadecimal number is one by the characters that are read. -/
theorem isHexadecimal_take
    (cs : List Char) :
    isHexadecimal (cs.take (numberLength (isHexadecimal cs) false cs)) = isHexadecimal cs := by
  cases hhex : isHexadecimal cs with
  | false =>
    rw [← Bool.not_eq_true] at hhex ⊢
    exact fun h => hhex (isHexadecimal_of_take h)
  | true =>
    unfold isHexadecimal at hhex
    split at hhex
    · rename_i x cs
      have hzero : ('0' : Char).isAlphanum = true := by decide
      have hx : x.isAlphanum = true := by
        simp only [Bool.or_eq_true, beq_iff_eq] at hhex
        rcases hhex with rfl | rfl <;> decide
      rw [numberLength, numberLength, if_pos (by simp [hzero]), if_pos (by simp [hx])]
      exact hhex
    · cases hhex

theorem startsNumber_take
    {cs : List Char} (h : startsNumber cs = true) (hex : Bool) :
    startsNumber (cs.take (numberLength hex false cs)) = true := by
  cases cs with
  | nil => cases h
  | cons c cs =>
    obtain ⟨n, hn⟩ := Nat.exists_eq_add_of_le' (one_le_numberLength h hex)
    rw [hn, List.take_succ_cons]
    refine Bool.or_eq_true_iff.2 ((Bool.or_eq_true_iff.1 h).imp_right fun hpoint => ?_)
    obtain ⟨hc, hdigit⟩ := Bool.and_eq_true_iff.1 hpoint
    obtain rfl : c = '.' := by simpa using hc
    have hlength : numberLength hex false ('.' :: cs) = numberLength hex false cs + 1 := by
      rw [numberLength, if_neg (by cases hex <;> decide), if_pos hpoint]
    obtain rfl : numberLength hex false cs = n := Nat.succ.inj (hlength.symm.trans hn)
    rw [startsWithDigit_take hdigit]
    rfl

theorem isNumber_take
    {cs : List Char} (h : startsNumber cs = true) :
    IsNumber (cs.take (numberLength (isHexadecimal cs) false cs)) where
  starts := startsNumber_take h _
  whole := by
    rw [isHexadecimal_take, numberLength_take, List.length_take,
      Nat.min_eq_left (numberLength_le _ _ _)]

/-! ### Tokens -/

theorem wellFormed_of_readToken
    {c : Char} {cs : List Char} {k : TokenKind} {n : Nat}
    (h : readToken c cs = .ok (.token k, n)) :
    k.WellFormed := by
  unfold readToken at h
  split at h
  · rename_i r hstring
    cases r <;> cases h
    exact wellFormed_of_string? hstring
  · split at h
    · cases hread : Literal.character cs with
      | error fault =>
        rw [hread] at h
        cases h
      | ok r =>
        rw [hread] at h
        cases h
        exact wellFormed_of_character hread
    · split at h
      · rename_i hat
        cases h
        exact wellFormed_of_readIdent hat.2 rfl
      · split at h
        · rename_i hstart
          exact wellFormed_of_readIdent (by simpa using hstart) h
        · split at h
          · rename_i hnumber
            cases h
            have hread : IsNumber ((c :: cs).take _) := isNumber_take hnumber
            rwa [← String.toList_ofList (l := (c :: cs).take _)] at hread
          · unfold readPunct at h
            dsimp only at h
            split at h
            · split at h <;> cases h <;> trivial
            · split at h <;> cases h
              trivial

theorem wellFormed_of_read
    {fresh : Bool} {c : Char} {cs : List Char} {k : TokenKind} {n : Nat}
    (h : read fresh c cs = .ok (.token k, n)) :
    k.WellFormed := by
  unfold read at h
  split at h
  · cases h
  · split at h
    · cases h
    · split at h
      · split at h <;> cases h
      · split at h
        · cases h
        · exact wellFormed_of_readToken h

end Piece

/-- The tokens of a text are well-formed. -/
theorem wellFormed_of_tokenizeFrom
    {p : Position} {cs : List Char} {l : Lexed} (h : tokenizeFrom p cs = .ok l) :
    ∀ t ∈ l.tokens, t.kind.WellFormed := by
  fun_induction tokenizeFrom p cs generalizing l with
  | case1 =>
    cases h
    nofun
  | case2 => cases h
  | case3 p c cs piece n hread ih =>
    cases hrest : tokenizeFrom (p.after ((c :: cs).take n)) (cs.drop (n - 1)) with
    | error d =>
      rw [hrest] at h
      cases h
    | ok rest =>
      rw [hrest] at h
      cases h
      have hwellFormed := ih hrest
      cases piece with
      | blank => exact hwellFormed
      | comment text => exact hwellFormed
      | token k => exact List.forall_mem_cons.2 ⟨Piece.wellFormed_of_read hread, hwellFormed⟩

end CSharp
end ContentModels

import ContentModels.CSharp.Token.Lexer

/-!
# The kinds of the tokens of a text

Lexing walks over a text piece by piece.  What it reads depends on the place where it
starts only by whether blanks alone precede that place on its line, and, in a text
without a hash, not even by that: line numbers are written into tokens and faults but
never looked at.  `kindsFrom` is lexing without line numbers; `kindsFrom_cons` is its
step, and `toOption_tokenizeFrom` ties it to lexing from any place.
-/

namespace ContentModels
namespace CSharp

namespace Piece

/-- The kinds of the tokens that a piece is. -/
def kinds : Piece → List TokenKind
  | .token kind => [kind]
  | _ => []

end Piece

/-- Whether only blanks precede the end of a text on its line, given this for its start. -/
def freshAfter (fresh : Bool) (cs : List Char) : Bool :=
  (Position.after ⟨1, fresh⟩ cs).fresh

/-- The kinds of the tokens of a text, if it is lexed without a fault. -/
def kindsFrom (fresh : Bool) (cs : List Char) : Option (List TokenKind) :=
  (tokenizeFrom ⟨1, fresh⟩ cs).toOption.map fun l => l.tokens.map (·.kind)

theorem Position.next_fresh
    (p : Position) (c : Char) :
    (p.next c).fresh = (Position.next ⟨1, p.fresh⟩ c).fresh := by
  unfold Position.next
  by_cases hn : c = '\n'
  · simp [hn]
  · by_cases hb : c = ' ' ∨ c = '\t' ∨ c = '\r'
    · simp [hn, hb]
    · simp [hn, hb]

theorem Position.after_fresh
    (p : Position) (cs : List Char) :
    (p.after cs).fresh = freshAfter p.fresh cs := by
  induction cs generalizing p with
  | nil => rfl
  | cons c cs ih =>
    rw [Position.after_cons, ih, Position.next_fresh]
    unfold freshAfter
    rw [Position.after_cons]
    exact (ih (Position.next ⟨1, p.fresh⟩ c)).symm

@[simp] theorem freshAfter_nil
    (fresh : Bool) :
    freshAfter fresh [] = fresh := by
  rfl

theorem freshAfter_append
    (fresh : Bool) (cs ds : List Char) :
    freshAfter fresh (cs ++ ds) = freshAfter (freshAfter fresh cs) ds := by
  unfold freshAfter
  rw [Position.after_append, Position.after_fresh]
  rfl

@[simp] theorem freshAfter_newline
    (fresh : Bool) (cs : List Char) :
    freshAfter fresh ('\n' :: cs) = freshAfter true cs := by
  unfold freshAfter
  rw [Position.after_cons, Position.after_fresh]
  simp [Position.next, freshAfter]

theorem tokenizeFrom_nil
    (p : Position) :
    tokenizeFrom p [] = .ok ⟨[], []⟩ := by
  rw [tokenizeFrom]

theorem tokenizeFrom_cons
    (p : Position) (c : Char) (cs : List Char) :
    tokenizeFrom p (c :: cs) =
      match Piece.read p.fresh c cs with
      | .error fault => .error ⟨p.line, fault⟩
      | .ok (piece, n) =>
        (tokenizeFrom (p.after ((c :: cs).take n)) (cs.drop (n - 1))).map
          (Lexed.push p.line piece) :=
  tokenizeFrom.eq_2 p c cs

theorem Lexed.map_push_blank
    (line : Nat) (r : Except Diagnostic Lexed) :
    r.map (Lexed.push line .blank) = r := by
  cases r <;> rfl

/-- Lexing goes on behind a blank. -/
theorem tokenizeFrom_blank
    {c : Char} (hc : Piece.isSpace c = true) (p : Position) (cs : List Char) :
    tokenizeFrom p (c :: cs) = tokenizeFrom (p.next c) cs := by
  have hread : Piece.read p.fresh c cs = .ok (.blank, 1) := by
    unfold Piece.read
    rw [if_pos hc]
  rw [tokenizeFrom_cons, hread]
  simp only [List.take_succ_cons, List.take_zero, Nat.sub_self, List.drop_zero,
    Position.after_cons, Position.after_nil]
  rw [Lexed.map_push_blank]

theorem kinds_push
    (line : Nat) (piece : Piece) (rest : Lexed) :
    (rest.push line piece).tokens.map (·.kind) =
      piece.kinds ++ rest.tokens.map (·.kind) := by
  cases piece <;> rfl

theorem toOption_map_push
    (line : Nat) (piece : Piece) (r : Except Diagnostic Lexed) :
    ((r.map (Lexed.push line piece)).toOption.map fun l => l.tokens.map (·.kind)) =
      (r.toOption.map fun l => l.tokens.map (·.kind)).map (piece.kinds ++ ·) := by
  cases r with
  | error d => rfl
  | ok l =>
    simp only [Except.map, Except.toOption, Option.map_some, kinds_push]

/-- The kinds of tokens do not depend on the line on which a text starts. -/
theorem toOption_tokenizeFrom
    (p : Position) (cs : List Char) :
    ((tokenizeFrom p cs).toOption.map fun l => l.tokens.map (·.kind)) =
      kindsFrom p.fresh cs := by
  unfold kindsFrom
  induction h : cs.length using Nat.strongRecOn generalizing p cs with
  | _ n ih =>
    cases cs with
    | nil => rw [tokenizeFrom_nil, tokenizeFrom_nil]
    | cons c cs =>
      rw [tokenizeFrom_cons, tokenizeFrom_cons]
      cases hr : Piece.read p.fresh c cs with
      | error fault => rfl
      | ok r =>
        obtain ⟨piece, k⟩ := r
        have hlt : (cs.drop (k - 1)).length < n := by
          rw [← h, List.length_drop, List.length_cons]
          omega
        simp only
        rw [toOption_map_push, toOption_map_push,
          ih _ hlt _ _ rfl, ih _ hlt (Position.after ⟨1, p.fresh⟩ _) _ rfl,
          Position.after_fresh, Position.after_fresh]

@[simp] theorem kindsFrom_nil
    (fresh : Bool) :
    kindsFrom fresh [] = some [] := by
  unfold kindsFrom
  rw [tokenizeFrom_nil]
  rfl

/-- One step of lexing. -/
theorem kindsFrom_cons
    (fresh : Bool) (c : Char) (cs : List Char) :
    kindsFrom fresh (c :: cs) =
      match Piece.read fresh c cs with
      | .error _ => none
      | .ok (piece, n) =>
        (kindsFrom (freshAfter fresh ((c :: cs).take n)) (cs.drop (n - 1))).map
          (piece.kinds ++ ·) := by
  rw [kindsFrom, tokenizeFrom_cons]
  cases Piece.read fresh c cs with
  | error fault => rfl
  | ok r =>
    obtain ⟨piece, k⟩ := r
    simp only
    rw [toOption_map_push, toOption_tokenizeFrom, Position.after_fresh]

theorem kindsFrom_blank
    {c : Char} (hc : Piece.isSpace c = true) (fresh : Bool) (cs : List Char) :
    kindsFrom fresh (c :: cs) = kindsFrom (freshAfter fresh [c]) cs := by
  unfold kindsFrom
  rw [tokenizeFrom_blank hc, toOption_tokenizeFrom, toOption_tokenizeFrom]
  rfl

namespace Piece

theorem read_of_ne_hash
    {c : Char}
    (h : c ≠ '#') (fresh other : Bool) (cs : List Char) :
    read fresh c cs = read other c cs := by
  unfold read
  simp [h]

end Piece

/-- In a text without a hash it makes no difference what precedes it on its line. -/
theorem kindsFrom_of_hash_notMem
    {cs : List Char}
    (h : '#' ∉ cs) (fresh other : Bool) :
    kindsFrom fresh cs = kindsFrom other cs := by
  induction hn : cs.length using Nat.strongRecOn generalizing fresh other cs with
  | _ n ih =>
    cases cs with
    | nil => rw [kindsFrom_nil, kindsFrom_nil]
    | cons c cs =>
      have hc : c ≠ '#' := fun heq => h (heq ▸ List.mem_cons_self)
      rw [kindsFrom_cons, kindsFrom_cons, Piece.read_of_ne_hash hc fresh other]
      cases hr : Piece.read other c cs with
      | error fault => rfl
      | ok r =>
        obtain ⟨piece, k⟩ := r
        have hlt : (cs.drop (k - 1)).length < n := by
          rw [← hn, List.length_drop, List.length_cons]
          omega
        have hmem : '#' ∉ cs.drop (k - 1) := fun hm =>
          h (List.mem_cons_of_mem _ (List.mem_of_mem_drop hm))
        simp only
        rw [ih _ hlt hmem (freshAfter fresh _) (freshAfter other _) rfl]

end CSharp
end ContentModels

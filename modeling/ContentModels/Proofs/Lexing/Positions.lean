import Mathlib.Data.List.Basic
import ContentModels.Proofs.Lexing.Lines

/-!
# Lexing with positions

Lexing a text further down gives the same tokens further down.  So where a line feed parts
two texts, of which the first is lexed, the tokens of the second stand behind those of the
first, as far down as the first one reaches (`tokenizeFrom_append`).
-/

namespace ContentModels
namespace CSharp

/-- A token some lines further down. -/
def Token.moved (n : Nat) (t : Token) : Token :=
  { t with line := t.line + n }

/-- A diagnostic some lines further down. -/
def Diagnostic.moved (n : Nat) (d : Diagnostic) : Diagnostic :=
  { d with line := d.line + n }

/-- What is lexed some lines further down. -/
def Lexed.moved (n : Nat) (l : Lexed) : Lexed :=
  { l with tokens := l.tokens.map (.moved n) }

/-- What is lexed from two texts, one behind the other. -/
def Lexed.append (a b : Lexed) : Lexed where
  tokens := a.tokens ++ b.tokens
  leadingComments :=
    if a.tokens = [] then a.leadingComments ++ b.leadingComments else a.leadingComments

namespace Position

/-- A position some lines further down. -/
def moved (n : Nat) (p : Position) : Position :=
  { p with line := p.line + n }

theorem moved_after
    (n : Nat) (p : Position) (cs : List Char) :
    (p.moved n).after cs = (p.after cs).moved n := by
  induction cs generalizing p with
  | nil => rfl
  | cons c cs ih =>
    rw [after_cons, after_cons, ← ih]
    congr 1
    unfold next moved
    split
    · simp only [Nat.add_right_comm]
    · split <;> rfl

end Position

namespace Lexed

theorem moved_push
    (n line : Nat) (piece : Piece) (l : Lexed) :
    (l.push line piece).moved n = (l.moved n).push (line + n) piece := by
  cases piece <;> rfl

theorem push_append
    (line : Nat) (piece : Piece) (a b : Lexed) :
    (a.append b).push line piece = (a.push line piece).append b := by
  cases piece with
  | blank => rfl
  | comment text =>
    unfold append push
    simp only
    split <;> simp
  | token kind => rfl

@[simp] theorem nil_append
    (l : Lexed) :
    append ⟨[], []⟩ l = l := by
  rfl

end Lexed

/-- Lexing further down gives what is lexed, or the fault, further down. -/
theorem tokenizeFrom_moved
    (n : Nat) (p : Position) (cs : List Char) :
    tokenizeFrom (p.moved n) cs =
      ((tokenizeFrom p cs).mapError (.moved n)).map (.moved n) := by
  induction h : cs.length using Nat.strongRecOn generalizing p cs with
  | _ m ih =>
    cases cs with
    | nil => rw [tokenizeFrom_nil, tokenizeFrom_nil]; rfl
    | cons c cs =>
      rw [tokenizeFrom_cons, tokenizeFrom_cons, show (p.moved n).fresh = p.fresh from rfl]
      cases Piece.read p.fresh c cs with
      | error fault => rfl
      | ok r =>
        obtain ⟨piece, k⟩ := r
        have hlt : (cs.drop (k - 1)).length < m := by
          rw [← h, List.length_drop, List.length_cons]
          omega
        simp only
        rw [Position.moved_after, ih _ hlt _ _ rfl]
        cases tokenizeFrom (p.after ((c :: cs).take k)) (cs.drop (k - 1)) with
        | error d => rfl
        | ok l => exact congrArg Except.ok (l.moved_push n p.line piece).symm

/-- What stands behind a text and a line feed is lexed as if the text were not there. -/
theorem tokenizeFrom_append
    {p : Position} {cs : List Char} {l : Lexed}
    (h : tokenizeFrom p cs = .ok l) (ds : List Char) :
    tokenizeFrom p (cs ++ '\n' :: ds) =
      (tokenizeFrom ((p.after cs).next '\n') ds).map l.append := by
  induction hn : cs.length using Nat.strongRecOn generalizing p cs l with
  | _ n ih =>
    cases cs with
    | nil =>
      rw [tokenizeFrom_nil] at h
      cases h
      rw [List.nil_append, tokenizeFrom_blank (by decide), Position.after_nil]
      cases tokenizeFrom (p.next '\n') ds <;> rfl
    | cons c cs =>
      rw [tokenizeFrom_cons] at h
      cases hr : Piece.read p.fresh c cs with
      | error fault => rw [hr] at h; cases h
      | ok r =>
        obtain ⟨piece, k⟩ := r
        rw [hr] at h
        simp only at h
        cases hrest : tokenizeFrom (p.after ((c :: cs).take k)) (cs.drop (k - 1)) with
        | error d => rw [hrest] at h; cases h
        | ok rest =>
          rw [hrest] at h
          obtain rfl : rest.push p.line piece = l := Except.ok.inj h
          obtain ⟨hr', hk⟩ := Piece.read_append hr (delimits_newline _) (Or.inl rfl) ds
          have hlt : (cs.drop (k - 1)).length < n := by
            rw [← hn, List.length_drop, List.length_cons]
            omega
          have hstep := ih _ hlt hrest rfl
          have htake : (c :: (cs ++ '\n' :: ds)).take k = (c :: cs).take k := by
            rw [← List.cons_append, List.take_append_of_le_length (by simpa using hk)]
          have hdrop : (cs ++ '\n' :: ds).drop (k - 1) = cs.drop (k - 1) ++ '\n' :: ds :=
            List.drop_append_of_le_length (by omega)
          have hafter : (p.after ((c :: cs).take k)).after (cs.drop (k - 1)) = p.after (c :: cs) := by
            have hk1 := Piece.one_le_of_read hr
            have hsplit : (c :: cs).drop k = cs.drop (k - 1) := by
              rw [show k = k - 1 + 1 by omega, List.drop_succ_cons]
              rfl
            rw [← Position.after_append, ← hsplit, List.take_append_drop]
          rw [List.cons_append, tokenizeFrom_cons, hr']
          simp only
          rw [htake, hdrop, hstep, hafter]
          cases tokenizeFrom ((p.after (c :: cs)).next '\n') ds with
          | error d => rfl
          | ok l => exact congrArg Except.ok (Lexed.push_append p.line piece rest l)

/-- A line that is lexed stands in front of what follows it, which is lexed one line further down. -/
theorem tokenizeFrom_line
    {line : List Char} {l : Lexed}
    (h : tokenizeFrom .start line = .ok l) (hline : '\n' ∉ line) (ds : List Char) :
    tokenizeFrom .start (line ++ '\n' :: ds) =
      ((tokenizeFrom .start ds).mapError (.moved 1)).map fun m => l.append (m.moved 1) := by
  have hpos : (Position.start.after line).next '\n' = Position.start.moved 1 := by
    unfold Position.next
    rw [if_pos rfl, Position.after_line hline]
    rfl
  rw [tokenizeFrom_append h, hpos, tokenizeFrom_moved]
  cases tokenizeFrom .start ds <;> rfl

/--
Where a text is lexed, it and another text behind it and a line feed are lexed as the one and then
the other, which stands as many lines further down as the first one has, or has its fault there.
-/
theorem tokenize_append_newline
    {a : String} {l : Lexed} (h : tokenize a = .ok l) (b : String) :
    tokenize (a ++ "\n" ++ b) =
      match tokenize b with
      | .ok m => .ok (l.append (m.moved (a.toList.count '\n' + 1)))
      | .error d => .error (d.moved (a.toList.count '\n' + 1)) := by
  have hpos : (Position.start.after a.toList).next '\n' =
      Position.start.moved (a.toList.count '\n' + 1) := by
    rw [Position.next, if_pos rfl, Position.line_after]
    rfl
  have hsplit : (a ++ "\n" ++ b).toList = a.toList ++ '\n' :: b.toList := by
    simp
  unfold tokenize at h ⊢
  rw [hsplit, tokenizeFrom_append h, hpos, tokenizeFrom_moved]
  cases tokenizeFrom .start b.toList <;> rfl

/-- Behind a comment over two lines, a word; behind a word, a literal without an end. -/
theorem tokenize_append_newline_comment :
    tokenize "/* a\n */" = .ok ⟨[], " a\n \n".toList⟩ ∧
    tokenize ("/* a\n */" ++ "\n" ++ "#if\n// b\nx") =
      .ok ⟨[⟨.ident "x" false, 5⟩], " a\n \n// b\n".toList⟩ ∧
    tokenize "y" = .ok ⟨[⟨.ident "y" false, 1⟩], []⟩ ∧
    tokenize ("y" ++ "\n" ++ "\"") = .error ⟨2, .unterminatedString⟩ := by
  have hcomment : tokenize "/* a\n */" = .ok ⟨[], " a\n \n".toList⟩ := by decide +kernel
  have hword : tokenize "y" = .ok ⟨[⟨.ident "y" false, 1⟩], []⟩ := by decide +kernel
  have hsecond : tokenize "#if\n// b\nx" = .ok ⟨[⟨.ident "x" false, 3⟩], "// b\n".toList⟩ := by
    decide +kernel
  have hopen : tokenize "\"" = .error ⟨1, .unterminatedString⟩ := by decide +kernel
  refine ⟨hcomment, ?_, hword, ?_⟩
  · rw [tokenize_append_newline hcomment, hsecond]
    decide +kernel
  · rw [tokenize_append_newline hword, hopen]
    decide +kernel

end CSharp
end ContentModels

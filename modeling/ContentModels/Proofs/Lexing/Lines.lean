import ContentModels.Proofs.Lexing.Composition

/-!
# Lexing line by line

A text of whole lines is closed when what follows it is read on its own: nothing in it
reaches over its end, or it has a fault that nothing after it mends.  Closed texts may
be put one after the other, and each line that is lexed without a fault is closed.  A
comment line has no tokens.
-/

namespace ContentModels
namespace CSharp

/-- What whole lines are read as, whatever lines follow: some tokens, or a fault. -/
def ReadsAs (cs : List Char) (r : Option (List TokenKind)) : Prop :=
  ∀ rest, kindsFrom true (cs ++ rest) = r.bind fun ks => (kindsFrom true rest).map (ks ++ ·)

/-- What follows the text is read on its own. -/
def Closed (cs : List Char) : Prop :=
  ∃ r, ReadsAs cs r

namespace ReadsAs

variable {cs ds : List Char} {r s : Option (List TokenKind)}

theorem nil : ReadsAs [] (some []) := by
  intro rest
  simp

/-- Lines are read one after the other. -/
theorem append
    (h : ReadsAs cs r) (h' : ReadsAs ds s) :
    ReadsAs (cs ++ ds) (r.bind fun ks => s.map (ks ++ ·)) := by
  intro rest
  rw [List.append_assoc, h, h']
  cases r with
  | none => rfl
  | some ks =>
    cases s with
    | none => rfl
    | some js =>
      simp only [Option.bind_some, Option.map_some, Option.map_map]
      congr 1
      funext ls
      simp

/-- What a text is read as when nothing follows. -/
theorem kindsFrom_eq
    (h : ReadsAs cs r) :
    kindsFrom true cs = r := by
  have h0 := h []
  rw [List.append_nil, kindsFrom_nil] at h0
  rw [h0]
  cases r with
  | none => rfl
  | some ks => simp

theorem closed
    (h : ReadsAs cs r) :
    Closed cs :=
  ⟨r, h⟩

/-- Lines that are read as nothing can be left out. -/
theorem kindsFrom_append_of_nil
    (h : Closed cs) (hd : ReadsAs ds (some [])) (rest : List Char) :
    kindsFrom true (cs ++ (ds ++ rest)) = kindsFrom true (cs ++ rest) := by
  obtain ⟨r, hr⟩ := h
  rw [hr, hr, hd]
  simp

end ReadsAs

theorem Closed.append
    {cs ds : List Char} (h : Closed cs) (h' : Closed ds) :
    Closed (cs ++ ds) := by
  obtain ⟨r, hr⟩ := h
  obtain ⟨s, hs⟩ := h'
  exact (hr.append hs).closed

theorem Piece.isIdentPart_newline : Piece.isIdentPart '\n' = false := by
  decide

/-- A line feed delimits every text. -/
theorem delimits_newline
    (cs : List Char) :
    Delimits cs '\n' :=
  .of_unpaired Piece.isIdentPart_newline (by decide) (fun p => by cases p <;> decide) cs

theorem kindsFrom_newline
    (fresh : Bool) (cs : List Char) :
    kindsFrom fresh ('\n' :: cs) = kindsFrom true cs := by
  rw [kindsFrom_blank (by decide), freshAfter_newline, freshAfter_nil]

/-- A line without a fault is read as its tokens. -/
theorem readsAs_line
    {cs : List Char} {ks : List TokenKind}
    (h : kindsFrom true cs = some ks) :
    ReadsAs (cs ++ ['\n']) (some ks) := by
  intro rest
  rw [List.append_assoc, List.singleton_append,
    kindsFrom_append h (delimits_newline cs) (Or.inl rfl), kindsFrom_newline]
  rfl

/-- A text ends as many lines further down as there are line feeds in it. -/
theorem Position.line_after
    (p : Position) (cs : List Char) :
    (p.after cs).line = p.line + cs.count '\n' := by
  induction cs generalizing p with
  | nil => rfl
  | cons c cs ih =>
    rw [Position.after_cons, ih, Position.next]
    by_cases hc : c = '\n'
    · subst hc
      simp only [if_true, List.count_cons_self]
      omega
    · rw [if_neg hc, List.count_cons_of_ne (by simpa using hc)]
      split <;> rfl

theorem Position.after_line
    {cs : List Char}
    (h : '\n' ∉ cs) (p : Position) :
    (p.after cs).line = p.line := by
  rw [Position.line_after, List.count_eq_zero_of_not_mem h, Nat.add_zero]

theorem takeWhile_line
    {cs : List Char}
    (h : '\n' ∉ cs) (ds : List Char) :
    (cs ++ '\n' :: ds).takeWhile (· != '\n') = cs := by
  have hall : ∀ c ∈ cs, (c != '\n') = true := by
    intro c hc
    have hne : c ≠ '\n' := fun heq => h (heq ▸ hc)
    simpa using hne
  rw [List.takeWhile_append_of_pos hall]
  simp

/-- A comment line is read as a comment. -/
theorem tokenizeFrom_comment
    {line : List Char}
    (h : '\n' ∉ line) (p : Position) (rest : List Char) :
    tokenizeFrom p ('/' :: '/' :: (line ++ '\n' :: rest)) =
      (tokenizeFrom ⟨p.line + 1, true⟩ rest).map
        (Lexed.push p.line (.comment ('/' :: '/' :: line))) := by
  have hmem : '\n' ∉ '/' :: '/' :: line := by simpa using h
  have hread : Piece.read p.fresh '/' ('/' :: (line ++ '\n' :: rest)) =
      .ok (.comment ('/' :: '/' :: line), line.length + 2) := by
    have hline := takeWhile_line hmem rest
    unfold Piece.read Piece.restOfLine
    rw [if_neg (by decide), if_pos (by simp)]
    rw [List.cons_append, List.cons_append] at hline
    rw [hline]
    rfl
  rw [tokenizeFrom_cons, hread]
  simp only
  rw [show line.length + 2 - 1 = line.length + 1 from rfl, List.drop_succ_cons,
    List.take_succ_cons, List.take_succ_cons, List.drop_left, List.take_left,
    tokenizeFrom_blank (by decide)]
  simp only [Position.after_cons]
  have hpos : (((p.next '/').next '/').after line).next '\n' = ⟨p.line + 1, true⟩ := by
    have hl := Position.after_line hmem p
    rw [Position.after_cons, Position.after_cons] at hl
    unfold Position.next at hl ⊢
    simp only [if_true, hl]
  rw [hpos]

/-- A comment line has no tokens. -/
theorem readsAs_comment
    {line : List Char}
    (h : '\n' ∉ line) :
    ReadsAs ('/' :: '/' :: (line ++ ['\n'])) (some []) := by
  intro rest
  unfold kindsFrom
  rw [List.cons_append, List.cons_append, List.append_assoc, List.singleton_append,
    tokenizeFrom_comment h, toOption_map_push, toOption_tokenizeFrom]
  simp [Piece.kinds, kindsFrom]

/-- Blanks in front of a line are skipped. -/
theorem ReadsAs.tabs
    {cs : List Char} {r : Option (List TokenKind)}
    (h : ReadsAs cs r) (n : Nat) :
    ReadsAs (List.replicate n '\t' ++ cs) r := by
  induction n with
  | zero => exact h
  | succ n ih =>
    intro rest
    have hfresh : freshAfter true ['\t'] = true := by decide
    rw [List.replicate_succ, List.cons_append, List.cons_append, kindsFrom_blank (by decide), hfresh,
      ih]

end CSharp
end ContentModels

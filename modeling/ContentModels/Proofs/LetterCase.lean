import ContentModels.Text.Lowercase

/-!
# Letter case

Lower case is by character for texts of ASCII characters, and for every text it does not matter
in which case the ASCII letters are written (`lowercase_of_fold`).  The lower case of two texts in
a row starts with that of the first one, unless the first one ends in a sigma that is final there
and no longer final in front of the second one (`lowerChars_prefix_append_iff`).
-/

namespace ContentModels
namespace Text

theorem agreeIgnoringCase_iff
    {s t : String} :
    agreeIgnoringCase s t = true ↔ lowercase s = lowercase t :=
  beq_iff_eq

/-! ### Texts of ASCII characters -/

/-- Lower case of ASCII characters, each by itself. -/
theorem lowerFrom_of_ascii
    {before cs : List Char} (h : ∀ c ∈ cs, c.val < 0x80) :
    lowerFrom before cs = cs.map Char.toLower := by
  induction cs generalizing before with
  | nil => rfl
  | cons c cs ih =>
    have hc := h c List.mem_cons_self
    have hsigma : c ≠ capitalSigma := by
      rintro rfl
      exact absurd hc (by decide)
    unfold lowerFrom
    rw [if_neg hsigma, ih fun d hd => h d (List.mem_cons_of_mem _ hd)]
    unfold lowerChar
    rw [if_pos hc]
    rfl

theorem lowercase_of_ascii
    {s : String} (h : ∀ c ∈ s.toList, c.val < 0x80) :
    lowercase s = String.ofList (s.toList.map Char.toLower) := by
  unfold lowercase lowerChars
  rw [lowerFrom_of_ascii h]

theorem lowercase_append
    {s t : String} (hs : ∀ c ∈ s.toList, c.val < 0x80) (ht : ∀ c ∈ t.toList, c.val < 0x80) :
    lowercase (s ++ t) = lowercase s ++ lowercase t := by
  have hst : ∀ c ∈ (s ++ t).toList, c.val < 0x80 := by
    intro c hc
    rw [String.toList_append, List.mem_append] at hc
    exact hc.elim (hs c) (ht c)
  rw [lowercase_of_ascii hst, lowercase_of_ascii hs, lowercase_of_ascii ht, String.toList_append,
    List.map_append, String.ofList_append]

/-! ### ASCII letters in any text -/

/-- What lower case asks of a character, the same for both cases of a letter. -/
theorem toLower_cased
    (c : Char) :
    isCased c.toLower = isCased c ∧ isCaseIgnorable c.toLower = isCaseIgnorable c ∧
      lowerChar c.toLower = lowerChar c ∧ (c.toLower = capitalSigma ↔ c = capitalSigma) := by
  by_cases hupper : c.val ≥ 'A'.val ∧ c.val ≤ 'Z'.val
  · have hletters : ∀ n ∈ List.range' 65 26,
        isCased (Char.ofNat n).toLower = isCased (Char.ofNat n) ∧
          isCaseIgnorable (Char.ofNat n).toLower = isCaseIgnorable (Char.ofNat n) ∧
          lowerChar (Char.ofNat n).toLower = lowerChar (Char.ofNat n) ∧
          ((Char.ofNat n).toLower = capitalSigma ↔ Char.ofNat n = capitalSigma) := by
      decide +kernel
    have hrange : c.toNat ∈ List.range' 65 26 :=
      List.mem_range'_1.2 ⟨UInt32.le_iff_toNat_le.1 hupper.1,
        Nat.lt_succ_of_le (UInt32.le_iff_toNat_le.1 hupper.2)⟩
    have hletter := hletters c.toNat hrange
    rwa [Char.ofNat_toNat] at hletter
  · have hsame : c.toLower = c := dif_neg hupper
    simp only [hsame, and_self]

theorem startsCased_map_toLower
    (cs : List Char) :
    startsCased (cs.map Char.toLower) = startsCased cs := by
  induction cs with
  | nil => rfl
  | cons c cs ih =>
    obtain ⟨hcased, hignorable, -, -⟩ := toLower_cased c
    unfold startsCased at ih ⊢
    rw [List.map_cons, List.dropWhile_cons, List.dropWhile_cons, hignorable]
    cases isCaseIgnorable c with
    | true => exact ih
    | false => exact hcased

theorem lowerFrom_map_toLower
    (before cs : List Char) :
    lowerFrom (before.map Char.toLower) (cs.map Char.toLower) = lowerFrom before cs := by
  induction cs generalizing before with
  | nil => rfl
  | cons c cs ih =>
    obtain ⟨-, -, hlower, hsigma⟩ := toLower_cased c
    rw [List.map_cons, lowerFrom, lowerFrom, startsCased_map_toLower, startsCased_map_toLower,
      hlower, ← List.map_cons, ih]
    simp only [hsigma]

/-- Texts that agree but for the case of ASCII letters have the same lower case. -/
theorem lowercase_of_fold
    {s t : String} (h : s.toList.map Char.toLower = t.toList.map Char.toLower) :
    lowercase s = lowercase t := by
  have hfold : ∀ s : String, lowerChars s.toList = lowerChars (s.toList.map Char.toLower) :=
    fun s => (lowerFrom_map_toLower [] s.toList).symm
  unfold lowercase
  rw [hfold s, hfold t, h]

/-! ### Texts in a row -/

/-- Characters that casing ignores leave it to what follows whether a letter comes next. -/
theorem startsCased_append
    (cs ds : List Char) :
    startsCased (cs ++ ds) = (startsCased cs || (cs.all isCaseIgnorable && startsCased ds)) := by
  induction cs with
  | nil => simp [startsCased]
  | cons c cs ih =>
    unfold startsCased at ih ⊢
    rw [List.cons_append, List.dropWhile_cons, List.dropWhile_cons, List.all_cons]
    cases isCaseIgnorable c with
    | true => simpa using ih
    | false => simp

theorem startsCased_of_all
    {cs : List Char} (h : cs.all isCaseIgnorable = true) :
    startsCased cs = false := by
  induction cs with
  | nil => rfl
  | cons c cs ih =>
    obtain ⟨hc, hcs⟩ := Bool.and_eq_true_iff.1 h
    unfold startsCased at ih ⊢
    rw [List.dropWhile_cons_of_pos hc]
    exact ih hcs

/--
Characters behind `before`, which is in reverse order, whose last one that counts for casing is a
capital sigma behind a letter.
-/
def EndsInSigma (before cs : List Char) : Prop :=
  ∃ front rest, cs = front ++ capitalSigma :: rest ∧
    startsCased (front.reverse ++ before) = true ∧ rest.all isCaseIgnorable = true

theorem endsInSigma_cons_iff
    {before cs : List Char} {c : Char} :
    EndsInSigma before (c :: cs) ↔
      (c = capitalSigma ∧ startsCased before = true ∧ cs.all isCaseIgnorable = true) ∨
        EndsInSigma (c :: before) cs := by
  constructor
  · rintro ⟨front, rest, heq, hbefore, hrest⟩
    cases front with
    | nil =>
      obtain ⟨rfl, rfl⟩ := List.cons.inj heq
      exact .inl ⟨rfl, hbefore, hrest⟩
    | cons d front =>
      obtain ⟨rfl, rfl⟩ := List.cons.inj heq
      rw [List.reverse_cons, List.append_assoc] at hbefore
      exact .inr ⟨front, rest, rfl, hbefore, hrest⟩
  · rintro (⟨rfl, hbefore, hrest⟩ | ⟨front, rest, rfl, hbefore, hrest⟩)
    · exact ⟨[], cs, rfl, hbefore, hrest⟩
    · refine ⟨c :: front, rest, rfl, ?_, hrest⟩
      rwa [List.reverse_cons, List.append_assoc]

/-- The form of a sigma in front of `cs` changes with what follows, if there a letter comes next. -/
theorem sigma_append_iff
    (behind : Bool) (cs ds : List Char) :
    (if behind && !startsCased (cs ++ ds) then 'ς' else 'σ') =
        (if behind && !startsCased cs then 'ς' else 'σ') ↔
      ¬ (behind = true ∧ cs.all isCaseIgnorable = true ∧ startsCased ds = true) := by
  rw [startsCased_append]
  cases hall : cs.all isCaseIgnorable with
  | true =>
    rw [startsCased_of_all hall]
    cases behind <;> cases startsCased ds <;> decide
  | false => simp

/-- How the lower case of characters depends on those that follow: by a final sigma alone. -/
theorem exists_lowerFrom_append
    (before cs ds : List Char) :
    ∃ lower, lowerFrom before (cs ++ ds) = lower ++ lowerFrom (cs.reverse ++ before) ds ∧
      lower.length = (lowerFrom before cs).length ∧
      (lower = lowerFrom before cs ↔ ¬ (EndsInSigma before cs ∧ startsCased ds = true)) := by
  induction cs generalizing before with
  | nil =>
    refine ⟨[], rfl, rfl, iff_of_true rfl ?_⟩
    rintro ⟨⟨front, rest, heq, -⟩, -⟩
    cases front <;> cases heq
  | cons c cs ih =>
    obtain ⟨lower, happend, hlength, hlower⟩ := ih (c :: before)
    rw [List.cons_append, lowerFrom, lowerFrom, happend, endsInSigma_cons_iff]
    by_cases hc : c = capitalSigma
    · -- The letters around the sigma decide on its form, and those before it stay the same.
      simp only [if_pos hc]
      refine ⟨(if startsCased before && !startsCased (cs ++ ds) then 'ς' else 'σ') :: lower,
        by simp, by simp [hlength], ?_⟩
      rw [List.singleton_append, List.cons_eq_cons, sigma_append_iff, hlower, ← not_or]
      simp [hc, or_and_right, and_assoc]
    · simp only [if_neg hc]
      refine ⟨lowerChar c ++ lower, by simp, by simp [hlength], ?_⟩
      rw [List.append_right_inj, hlower]
      simp [hc]

theorem lowerFrom_append
    {before cs ds : List Char} (h : startsCased ds = false) :
    lowerFrom before (cs ++ ds) = lowerFrom before cs ++ lowerFrom (cs.reverse ++ before) ds := by
  obtain ⟨lower, happend, -, hlower⟩ := exists_lowerFrom_append before cs ds
  have hkept : lower = lowerFrom before cs := hlower.2 (by simp [h])
  rw [happend, hkept]

/-- The lower case of a text stays where another one follows, but for a sigma that was final. -/
theorem lowerChars_prefix_append_iff
    {cs ds : List Char} :
    lowerChars cs <+: lowerChars (cs ++ ds) ↔ ¬ (EndsInSigma [] cs ∧ startsCased ds = true) := by
  obtain ⟨lower, happend, hlength, hlower⟩ := exists_lowerFrom_append [] cs ds
  rw [← hlower]
  unfold lowerChars
  rw [happend]
  constructor
  · intro hprefix
    have hself : lowerFrom [] cs <+: lower :=
      List.prefix_of_prefix_length_le hprefix (List.prefix_append _ _) (Nat.le_of_eq hlength.symm)
    exact (hself.eq_of_length hlength.symm).symm
  · intro heq
    rw [heq]
    exact List.prefix_append _ _

/-! ### Stars -/

/-- Runs that move characters behind the star move none to it. -/
theorem CodeShift.apply_ne_star
    {runs : List CodeShift} (hruns : ∀ r ∈ runs, 42 < r.first + r.distance) {c : Char}
    (hc : c ≠ '*') :
    CodeShift.apply runs c ≠ '*' := by
  unfold apply
  split
  · rename_i r hr
    have hholds := List.find?_some hr
    simp only [holds, Bool.and_eq_true, decide_eq_true_eq] at hholds
    have hmoved := hruns r (List.mem_of_find?_eq_some hr)
    intro hstar
    by_cases hvalid : (Int.toNat (c.toNat + r.distance)).isValidChar
    · rw [show Char.ofNat _ = Char.ofNatAux _ hvalid from dif_pos hvalid] at hstar
      have hcode : Int.toNat (c.toNat + r.distance) = 42 := congrArg Char.toNat hstar
      omega
    · rw [show Char.ofNat _ = _ from dif_neg hvalid] at hstar
      cases hstar
  · exact hc

/-- Only the star has a star in its lower case. -/
theorem star_notMem_lowerChar
    {c : Char} (h : c ≠ '*') :
    '*' ∉ lowerChar c := by
  unfold lowerChar
  split
  · rename_i hascii
    have hchars : ∀ n ∈ List.range 128, Char.ofNat n ≠ '*' → (Char.ofNat n).toLower ≠ '*' := by
      decide +kernel
    have hchar := hchars c.toNat (List.mem_range.2 (UInt32.lt_iff_toNat_lt.1 hascii))
    rw [Char.ofNat_toNat] at hchar
    simpa using (hchar h).symm
  · split
    · decide
    · rw [List.mem_singleton]
      exact (CodeShift.apply_ne_star (by decide +kernel) h).symm

theorem lowerFrom_singleton
    (before : List Char) {c : Char} (h : c ≠ '*') :
    lowerFrom before [c] ≠ [] ∧ '*' ∉ lowerFrom before [c] := by
  unfold lowerFrom
  rw [lowerFrom, List.append_nil]
  split
  · split <;> decide
  · refine ⟨?_, star_notMem_lowerChar h⟩
    unfold lowerChar
    split
    · exact List.cons_ne_nil _ _
    · split <;> exact List.cons_ne_nil _ _

/-- The lower case of a text that does not end in a star does not end in a star. -/
theorem getLast?_lowerChars_ne_star
    {cs : List Char} (h : cs.getLast? ≠ some '*') :
    (lowerChars cs).getLast? ≠ some '*' := by
  rcases List.eq_nil_or_concat cs with rfl | ⟨cs, c, rfl⟩
  · exact h
  · obtain ⟨lower, happend, -⟩ := exists_lowerFrom_append [] cs [c]
    have hc : c ≠ '*' := by simpa using h
    obtain ⟨hlast, hstar⟩ := lowerFrom_singleton (cs.reverse ++ []) hc
    unfold lowerChars
    rw [List.concat_eq_append, happend, List.getLast?_append,
      List.getLast?_eq_some_getLast hlast, Option.some_or]
    intro hend
    exact hstar (Option.some.inj hend ▸ List.getLast_mem hlast)

end Text
end ContentModels

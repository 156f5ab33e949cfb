import ContentModels.Naming

/-!
# Names

Usable names are ASCII.  A derived name keeps of its text, whose words get a capital first
letter, what a name may hold.  It is usable unless what it keeps is a keyword
(`isValid_derive_iff`).  Keywords have no capital letters, so this takes a text none of whose
words starts with what a name may hold (`head?_of_kept_mem_keywords`): only then does the letter
get lost that was to keep the name apart from keywords.
-/

namespace ContentModels
namespace Naming

theorem ascii_of_isNameChar
    {c : Char} (h : isNameChar c = true) :
    c.val < 0x80 := by
  unfold isNameChar Char.isAlphanum Char.isDigit at h
  simp only [Bool.or_eq_true, Bool.and_eq_true, decide_eq_true_eq, beq_iff_eq,
    Text.isAlpha_iff] at h
  have hlt : ∀ {n : UInt32}, c.val ≤ n → n < 0x80 → c.val < 0x80 := fun hle hn =>
    UInt32.lt_iff_toNat_lt.2 (Nat.lt_of_le_of_lt (UInt32.le_iff_toNat_le.1 hle)
      (UInt32.lt_iff_toNat_lt.1 hn))
  rcases h with ((⟨-, hle⟩ | ⟨-, hle⟩) | ⟨-, hle⟩) | rfl
  · exact hlt hle (by decide)
  · exact hlt hle (by decide)
  · exact hlt hle (by decide)
  · decide

/-- What usable names are. -/
theorem isValid_cons_iff
    {c : Char} {cs : List Char} :
    isValid (String.ofList (c :: cs)) = true ↔
      (∀ d ∈ c :: cs, isNameChar d = true) ∧ c.isDigit = false ∧
        String.ofList (c :: cs) ∉ keywords := by
  unfold isValid
  rw [String.toList_ofList]
  simp only [Bool.and_eq_true, Bool.not_eq_true', List.all_eq_true, List.forall_mem_cons,
    List.contains_eq_mem, decide_eq_false_iff_not]
  exact ⟨fun ⟨⟨⟨hc, hdigit⟩, hcs⟩, hkeyword⟩ => ⟨⟨hc, hcs⟩, hdigit, hkeyword⟩,
    fun ⟨⟨hc, hcs⟩, hdigit, hkeyword⟩ => ⟨⟨⟨hc, hdigit⟩, hcs⟩, hkeyword⟩⟩

theorem exists_cons_of_isValid
    {name : String} (h : isValid name = true) :
    ∃ c cs, name = String.ofList (c :: cs) ∧ (∀ d ∈ c :: cs, isNameChar d = true) ∧
      c.isDigit = false ∧ name ∉ keywords := by
  obtain ⟨cs, rfl⟩ : ∃ cs, name = String.ofList cs := ⟨name.toList, String.ofList_toList.symm⟩
  cases cs with
  | nil => cases h
  | cons c cs => exact ⟨c, cs, rfl, isValid_cons_iff.1 h⟩

/-- Names that are usable are ASCII. -/
theorem ascii_of_isValid
    {name : String} (h : isValid name = true) :
    ∀ c ∈ name.toList, c.val < 0x80 := by
  obtain ⟨c, cs, rfl, hchars, -⟩ := exists_cons_of_isValid h
  intro d hd
  rw [String.toList_ofList] at hd
  exact ascii_of_isNameChar (hchars d hd)

/-! ### Keywords -/

theorem isLower_of_mem_keywords
    {keyword : String} (h : keyword ∈ keywords) :
    ∀ c ∈ keyword.toList, c.isLower = true := by
  have hall : (keywords.all fun keyword => keyword.toList.all (·.isLower)) = true := by
    decide +kernel
  exact List.all_eq_true.1 (List.all_eq_true.1 hall keyword h)

theorem isLower_of_isDigit
    {c : Char} (h : c.isDigit = true) :
    c.isLower = false := by
  have hdigit : c.val ≤ 57 := by
    simp only [Char.isDigit, Bool.and_eq_true, decide_eq_true_eq] at h
    exact h.2
  have hlower : ¬ 97 ≤ c.val := by
    rw [UInt32.le_iff_toNat_le] at hdigit ⊢
    exact fun hle => absurd (Nat.le_trans hle hdigit) (by decide)
  exact Bool.and_eq_false_iff.2 (.inl (decide_eq_false hlower))

theorem notMem_keywords
    {cs : List Char} {c : Char} (hc : c ∈ cs) (hlower : c.isLower = false) :
    String.ofList cs ∉ keywords := by
  intro h
  have hkeyword := isLower_of_mem_keywords h c (by rwa [String.toList_ofList])
  rw [hlower] at hkeyword
  cases hkeyword

/-! ### Derived names -/

/-- What is left of a text is a usable name exactly if it is no keyword. -/
theorem isValid_sanitize_iff
    (cs : List Char) :
    isValid (String.ofList (sanitize cs)) = true ↔
      String.ofList (cs.filter isNameChar) ∉ keywords := by
  have hchars : ∀ c ∈ cs.filter isNameChar, isNameChar c = true := fun c hc =>
    (List.mem_filter.1 hc).2
  unfold sanitize
  generalize cs.filter isNameChar = kept at hchars
  cases kept with
  | nil => decide +kernel
  | cons c rest =>
    cases hdigit : c.isDigit with
    | true =>
      -- Neither a digit nor the underscore that is put in front of it is in a keyword.
      have hunderscore : String.ofList ('_' :: c :: rest) ∉ keywords :=
        notMem_keywords List.mem_cons_self (by decide)
      simp only [hdigit, if_true]
      refine iff_of_true (isValid_cons_iff.2 ⟨?_, by decide, hunderscore⟩)
        (notMem_keywords List.mem_cons_self (isLower_of_isDigit hdigit))
      exact List.forall_mem_cons.2 ⟨by decide, hchars⟩
    | false =>
      simp only [hdigit, Bool.false_eq_true, if_false]
      rw [isValid_cons_iff]
      simp only [hdigit, true_and, and_iff_right hchars]

/-- The text that a name is derived from. -/
def origin (source : NameSource) (aliasName displayName : String) : List Char :=
  match source with
  | .displayName =>
    if Text.isBlankText displayName then aliasName.toList else displayName.toList
  | _ => aliasName.toList

/-- The parts of a text that get a capital first letter each. -/
def parts (source : NameSource) (text : List Char) : List (List Char) :=
  match source with
  | .rawAlias => [text]
  | _ => Text.PascalCase.words text

/-- A part with a capital first letter. -/
def capitalized (source : NameSource) : List Char → List Char :=
  match source with
  | .rawAlias => upperFirst
  | _ => Text.PascalCase.capitalize

/-- What a derived name keeps of the text. -/
def kept (source : NameSource) (text : List Char) : String :=
  String.ofList (((parts source text).flatMap (capitalized source)).filter isNameChar)

variable {source : NameSource} {aliasName displayName : String} {text : List Char}

theorem derive_eq
    (source : NameSource) (aliasName displayName : String) :
    derive source aliasName displayName = String.ofList (sanitize
      ((parts source (origin source aliasName displayName)).flatMap (capitalized source))) := by
  cases source with
  | pascalAlias => rfl
  | rawAlias => simp [derive, parts, capitalized, origin]
  | displayName =>
    unfold derive origin identifierOf
    cases Text.isBlankText displayName <;> rfl

/-- A derived name is usable unless what it keeps of the text is a keyword. -/
theorem isValid_derive_iff :
    isValid (derive source aliasName displayName) = true ↔
      kept source (origin source aliasName displayName) ∉ keywords := by
  rw [derive_eq, isValid_sanitize_iff]
  rfl

theorem mem_keywords_of_derive
    (h : isValid (derive source aliasName displayName) = false) :
    kept source (origin source aliasName displayName) ∈ keywords := by
  rw [← Bool.not_eq_true, isValid_derive_iff] at h
  exact Classical.not_not.1 h

/-- What keeps a keyword is this keyword. -/
theorem derive_eq_kept
    (h : kept source (origin source aliasName displayName) ∈ keywords) :
    derive source aliasName displayName = kept source (origin source aliasName displayName) := by
  rw [derive_eq]
  unfold kept at h ⊢
  unfold sanitize
  generalize List.filter isNameChar _ = left at h ⊢
  cases left with
  | nil => exact absurd h (by decide)
  | cons c rest =>
    have hdigit : c.isDigit = false := Bool.eq_false_iff.2 fun hdigit =>
      notMem_keywords List.mem_cons_self (isLower_of_isDigit hdigit) h
    simp only [hdigit, Bool.false_eq_true, if_false]

/-- A first letter that a name may hold stays in the name as a capital. -/
theorem toUpper_mem_capitalized
    {c : Char} (source : NameSource) (cs : List Char) (hc : isNameChar c = true) :
    c.toUpper ∈ capitalized source (c :: cs) := by
  have hupper : Text.upperChar c = [c.toUpper] := by
    unfold Text.upperChar
    rw [if_pos (ascii_of_isNameChar hc)]
  cases source <;> simp [capitalized, upperFirst, Text.PascalCase.capitalize, hupper]

theorem toUpper_of_isNameChar
    {c : Char} (h : isNameChar c = true) :
    isNameChar c.toUpper = true ∧ c.toUpper.isLower = false := by
  have hchars : ∀ n ∈ List.range 128, isNameChar (Char.ofNat n) = true →
      isNameChar (Char.ofNat n).toUpper = true ∧ (Char.ofNat n).toUpper.isLower = false := by
    decide +kernel
  have hchar := hchars c.toNat (List.mem_range.2 (UInt32.lt_iff_toNat_lt.1 (ascii_of_isNameChar h)))
  rw [Char.ofNat_toNat] at hchar
  exact hchar h

/-- Only a text all of whose parts start with what a name cannot hold leaves a keyword. -/
theorem head?_of_kept_mem_keywords
    (h : kept source text ∈ keywords) :
    ∀ part ∈ parts source text, ∀ c ∈ part.head?, isNameChar c = false := by
  intro part hpart c hc
  refine Bool.eq_false_iff.2 fun hname => ?_
  obtain ⟨cs, rfl⟩ := List.head?_eq_some_iff.1 hc
  obtain ⟨hupper, hlower⟩ := toUpper_of_isNameChar hname
  refine notMem_keywords (List.mem_filter.2 ⟨?_, hupper⟩) hlower h
  exact List.mem_flatMap.2 ⟨c :: cs, hpart, toUpper_mem_capitalized source cs hname⟩

end Naming
end ContentModels

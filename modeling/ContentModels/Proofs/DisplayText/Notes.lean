import ContentModels.Proofs.DisplayText.Erasure
import ContentModels.Proofs.Generated.Text

/-!
# Display text in generated code

Display text gets into generated code as notes, which are documentation comments of one
line each.  Code without its notes does not depend on display text (`sameCode_types`),
with one exception: the name in the comment on a static getter is not divided into lines,
so only a name without a line feed makes a note.

A note is skipped where the code in front of it is closed.  So two texts with the same
code and notes in the same places have the same tokens (`SameCode.kindsFrom_eq`), if the
code in front of every note is closed.
-/

namespace ContentModels
namespace Generated

open CSharp

/-! ### Notes -/

/-- A documentation comment that is one line. -/
def isNote (line : String) : Bool :=
  "///".toList.isPrefixOf (line.toList.dropWhile (· == '\t')) && !line.toList.contains '\n'

theorem isNote_iff
    {line : String} :
    isNote line = true ↔
      ∃ n rest, line.toList = List.replicate n '\t' ++ '/' :: '/' :: '/' :: rest ∧ '\n' ∉ rest := by
  unfold isNote
  rw [Bool.and_eq_true, List.isPrefixOf_iff_prefix]
  constructor
  · rintro ⟨⟨rest, hrest⟩, hline⟩
    refine ⟨(line.toList.takeWhile (· == '\t')).length, rest, ?_, ?_⟩
    · have htabs : line.toList.takeWhile (· == '\t') =
          List.replicate (line.toList.takeWhile (· == '\t')).length '\t' := by
        rw [List.eq_replicate_iff]
        refine ⟨rfl, fun c hc => ?_⟩
        simpa using List.all_eq_true.1 List.all_takeWhile c hc
      rw [← htabs]
      calc
        line.toList =
            line.toList.takeWhile (· == '\t') ++ line.toList.dropWhile (· == '\t') :=
          (List.takeWhile_append_dropWhile).symm
        _ = line.toList.takeWhile (· == '\t') ++ '/' :: '/' :: '/' :: rest := by
          rw [← hrest]
          rfl
    · intro hmem
      have hin : '\n' ∈ line.toList := by
        refine (List.dropWhile_suffix (· == '\t')).subset ?_
        rw [← hrest]
        exact List.mem_append_right _ hmem
      simp [hin] at hline
  · rintro ⟨n, rest, hline, hrest⟩
    rw [hline]
    constructor
    · rw [List.dropWhile_append_of_pos (by simp)]
      exact ⟨rest, by simp⟩
    · simpa using hrest

/-- A note has no tokens. -/
theorem readsAs_note
    {line : String}
    (h : isNote line = true) :
    ReadsAs (line.toList ++ ['\n']) (some []) := by
  obtain ⟨n, rest, hline, hrest⟩ := isNote_iff.1 h
  have hcomment := @readsAs_comment ('/' :: rest) (by simpa using hrest)
  have htabs := hcomment.tabs n
  rw [hline]
  simpa using htabs

theorem readsAs_notes
    {lines : List String}
    (h : ∀ line ∈ lines, isNote line = true) :
    ReadsAs (textOf lines).toList (some []) := by
  induction lines with
  | nil =>
    rw [toList_textOf]
    exact ReadsAs.nil
  | cons line lines ih =>
    have hline := readsAs_note (h line List.mem_cons_self)
    have hlines := ih fun x hx => h x (List.mem_cons_of_mem _ hx)
    have happ := hline.append hlines
    rw [toList_textOf_cons]
    simpa using happ

/-! ### Texts with the same code -/

/-- Lines that differ only in what their notes say and in how many notes stand in one place. -/
inductive SameCode : List String → List String → Prop
  | nil : SameCode [] []
  | line
      {lines others : List String}
      (l : String) :
      SameCode lines others →
      SameCode (l :: lines) (l :: others)
  | notes
      {ns ms lines others : List String} :
      (∀ n ∈ ns, isNote n = true) →
      (∀ m ∈ ms, isNote m = true) →
      ns ≠ [] →
      ms ≠ [] →
      SameCode lines others →
      SameCode (ns ++ lines) (ms ++ others)

namespace SameCode

variable {lines others : List String}

theorem refl : (lines : List String) → SameCode lines lines
  | [] => nil
  | l :: lines => .line l (refl lines)

theorem symm
    (h : SameCode lines others) :
    SameCode others lines := by
  induction h with
  | nil => exact nil
  | line l _ ih => exact .line l ih
  | notes hn hm hne hme _ ih => exact .notes hm hn hme hne ih

theorem append
    {more another : List String}
    (h : SameCode lines others) (h' : SameCode more another) :
    SameCode (lines ++ more) (others ++ another) := by
  induction h with
  | nil => exact h'
  | line l _ ih => exact .line l ih
  | notes hn hm hne hme _ ih =>
    rw [List.append_assoc, List.append_assoc]
    exact .notes hn hm hne hme ih

end SameCode

/--
The code in front of every note is closed; the first argument is the code in front of
the lines.
-/
def NotesApart : List Char → List String → Prop
  | _, [] => True
  | code, line :: lines =>
    if isNote line then Closed code ∧ NotesApart code lines
    else NotesApart (code ++ (line.toList ++ ['\n'])) lines

theorem notesApart_append_iff
    {ns lines : List String} {code : List Char}
    (hn : ∀ n ∈ ns, isNote n = true) (hne : ns ≠ []) :
    NotesApart code (ns ++ lines) ↔ Closed code ∧ NotesApart code lines := by
  induction ns with
  | nil => exact absurd rfl hne
  | cons n ns ih =>
    rw [List.cons_append, NotesApart, if_pos (hn n List.mem_cons_self)]
    cases ns with
    | nil => simp
    | cons m ns =>
      rw [ih (fun x hx => hn x (List.mem_cons_of_mem _ hx)) (by simp)]
      constructor
      · rintro ⟨_, h⟩
        exact h
      · intro h
        exact ⟨h.1, h⟩

/-- The code in front of a note is closed if it is lines that are. -/
theorem notesApart_of_closed
    {lines : List String} {code : List Char}
    (h : ∀ line ∈ lines, Closed (line.toList ++ ['\n'])) (hcode : Closed code) :
    NotesApart code lines := by
  induction lines generalizing code with
  | nil => trivial
  | cons line lines ih =>
    obtain ⟨hline, hlines⟩ := List.forall_mem_cons.1 h
    rw [NotesApart]
    split
    · exact ⟨hcode, ih hlines hcode⟩
    · exact ih hlines (hcode.append hline)

/-- Notes can be left out behind closed code. -/
theorem kindsFrom_notes
    {ns : List String} {code : List Char}
    (hn : ∀ n ∈ ns, isNote n = true) (h : Closed code) (lines : List String) :
    kindsFrom true (code ++ (textOf (ns ++ lines)).toList) =
      kindsFrom true (code ++ (textOf lines).toList) := by
  rw [toList_textOf_append]
  exact ReadsAs.kindsFrom_append_of_nil h (readsAs_notes hn) _

/-- Texts with the same code have the same tokens if the code in front of every note is closed. -/
theorem SameCode.kindsFrom_eq
    {lines others : List String} {code : List Char}
    (h : SameCode lines others) (hapart : NotesApart code lines) :
    kindsFrom true (code ++ (textOf lines).toList) =
        kindsFrom true (code ++ (textOf others).toList) ∧
      NotesApart code others := by
  induction h generalizing code with
  | nil => exact ⟨rfl, hapart⟩
  | @line lines others line _ ih =>
    rw [NotesApart] at hapart ⊢
    by_cases hn : isNote line = true
    · rw [if_pos hn] at hapart ⊢
      obtain ⟨hclosed, hrest⟩ := hapart
      obtain ⟨heq, hothers⟩ := ih hrest
      have hdrop : ∀ ls, kindsFrom true (code ++ (textOf (line :: ls)).toList) =
          kindsFrom true (code ++ (textOf ls).toList) := by
        intro ls
        have hnote : ∀ n ∈ [line], isNote n = true := by simpa using hn
        simpa using kindsFrom_notes hnote hclosed ls
      refine ⟨?_, hclosed, hothers⟩
      rw [hdrop, hdrop]
      exact heq
    · rw [if_neg hn] at hapart ⊢
      obtain ⟨heq, hothers⟩ := ih hapart
      refine ⟨?_, hothers⟩
      rw [toList_textOf_cons, toList_textOf_cons]
      simpa using heq
  | @notes ns ms lines others hns hms hne hme _ ih =>
    obtain ⟨hclosed, hrest⟩ := (notesApart_append_iff hns hne).1 hapart
    obtain ⟨heq, hothers⟩ := ih hrest
    refine ⟨?_, (notesApart_append_iff hms hme).2 ⟨hclosed, hothers⟩⟩
    rw [kindsFrom_notes hns hclosed, kindsFrom_notes hms hclosed]
    exact heq

/-! ### Display text makes notes -/

theorem newline_notMem_lineChars
    {cs line : List Char}
    (h : line ∈ Text.lineChars cs) :
    '\n' ∉ line := by
  fun_induction Text.lineChars cs generalizing line with
  | case1 => cases h
  | case2 cs ih | case3 cs ih =>
    rcases List.mem_cons.1 h with rfl | h
    · exact List.not_mem_nil
    · exact ih h
  | case4 c cs hn hr hl ih =>
    rcases List.mem_singleton.1 h with rfl
    have hc : c ≠ '\n' := fun heq => hn heq
    simpa using hc.symm
  | case5 c cs hn hr first others hl ih =>
    rw [hl] at ih
    rcases List.mem_cons.1 h with rfl | h
    · have hc : c ≠ '\n' := fun heq => hn heq
      simpa using ⟨hc.symm, ih List.mem_cons_self⟩
    · exact ih (List.mem_cons_of_mem _ h)

theorem newline_notMem_markup
    {s : String}
    (h : '\n' ∉ s.toList) :
    '\n' ∉ (markup s).toList := by
  unfold markup
  rw [String.toList_ofList, List.mem_flatMap]
  rintro ⟨c, hc, hmem⟩
  unfold escapeMarkup at hmem
  split at hmem
  · simp at hmem
  · simp at hmem
  · simp at hmem
  · exact h (List.mem_singleton.1 hmem ▸ hc)

theorem newline_notMem_trimEnd
    {s : String}
    (h : '\n' ∉ s.toList) :
    '\n' ∉ (Text.trimEnd s).toList := by
  unfold Text.trimEnd Text.trimEndChars
  rw [String.toList_ofList, List.mem_reverse]
  intro hmem
  exact h (List.mem_reverse.1 ((List.dropWhile_suffix _).subset hmem))

/-- Every line of a summary is a note. -/
theorem isNote_of_mem_summary
    {indent name line : String} {description : Option String} {n : Nat}
    (hindent : indent.toList = List.replicate n '\t')
    (h : line ∈ summary indent name description) :
    isNote line = true := by
  unfold summary at h
  rcases List.mem_append.1 h with h | h
  · rcases List.mem_append.1 h with h | h
    · rcases List.mem_singleton.1 h with rfl
      refine isNote_iff.2 ⟨n, "<summary>".toList, ?_, by simp⟩
      simp [hindent]
    · obtain ⟨text, htext, rfl⟩ := List.mem_map.1 h
      obtain ⟨cs, hcs, rfl⟩ := List.mem_map.1 htext
      refine isNote_iff.2 ⟨n, ' ' :: (markup (Text.trimEnd (String.ofList cs))).toList, ?_, ?_⟩
      · simp [hindent]
      · have hline : '\n' ∉ (String.ofList cs).toList := by
          rw [String.toList_ofList]
          exact newline_notMem_lineChars hcs
        have hmark := newline_notMem_markup (newline_notMem_trimEnd hline)
        simpa using hmark
  · rcases List.mem_singleton.1 h with rfl
    refine isNote_iff.2 ⟨n, "</summary>".toList, ?_, by simp⟩
    simp [hindent]

/-- What a summary says makes no difference to the code. -/
theorem sameCode_summary
    {indent : String} {n : Nat}
    (hindent : indent.toList = List.replicate n '\t')
    (name other : String) (description another : Option String)
    {lines others : List String}
    (h : SameCode lines others) :
    SameCode (summary indent name description ++ lines) (summary indent other another ++ others) :=
  .notes (fun _ hm => isNote_of_mem_summary hindent hm)
    (fun _ hm => isNote_of_mem_summary hindent hm) (by simp [summary]) (by simp [summary]) h

/-- The comment on a static getter is a note exactly if the name of the property is one line. -/
theorem isNote_staticGetter_iff
    {name : String} :
    isNote ("\t\t/// <summary>Static getter for " ++ markup name ++ "</summary>") = true ↔
      '\n' ∉ name.toList := by
  constructor
  · intro h hmem
    have hmark : '\n' ∈ (markup name).toList := by
      unfold markup
      rw [String.toList_ofList, List.mem_flatMap]
      exact ⟨'\n', hmem, by decide⟩
    simp [isNote, hmark] at h
  · intro h
    refine isNote_iff.2 ⟨2, " <summary>Static getter for ".toList ++ (markup name).toList ++
      "</summary>".toList, by simp, ?_⟩
    simp [newline_notMem_markup h]

/-! ### Types -/

namespace ClassMember

/-- A member without its display text. -/
def eraseDisplay : ClassMember → ClassMember
  | .mixedAccessor mixin p => .mixedAccessor mixin.eraseDisplay p.eraseDisplay
  | .ownAccessor p => .ownAccessor p.eraseDisplay
  | .staticGetter p => .staticGetter p.eraseDisplay

end ClassMember

theorem propertyMembers_eraseDisplay
    (style : PropertyStyle) (models : List Model) (m : Model) :
    propertyMembers style (models.map (·.eraseDisplay)) m.eraseDisplay =
      (propertyMembers style models m).map (·.eraseDisplay) := by
  have hmixed : mixedAccessors (models.map (·.eraseDisplay)) m.eraseDisplay =
      (mixedAccessors models m).map (·.eraseDisplay) := by
    unfold mixedAccessors
    rw [show m.eraseDisplay.mixedProperties = m.mixedProperties from rfl, List.map_filterMap]
    congr 1
    funext x
    rw [List.getElem?_map]
    cases models[x.mixin]? with
    | none => rfl
    | some mixin =>
      simp only [Option.map_some, Option.bind_some]
      rw [show mixin.eraseDisplay.properties = mixin.properties.map (·.eraseDisplay) from rfl,
        List.getElem?_map]
      cases mixin.properties[x.property]? <;> rfl
  unfold propertyMembers
  cases style.hasMembers with
  | false => rfl
  | true =>
    simp only [if_true]
    rw [hmixed, List.map_append, List.map_flatMap, Model.ownProperties_eraseDisplay,
      List.flatMap_map]
    congr 1
    refine congrArg (m.ownProperties.flatMap ·) (funext fun p => ?_)
    rw [show p.eraseDisplay.state = p.state from rfl,
      show m.eraseDisplay.isMixin = m.isMixin from rfl]
    cases p.state == .generate <;> cases m.isMixin <;> rfl

theorem blocks_cons_cons
    (b c : List String) (bs : List (List String)) :
    blocks (b :: c :: bs) = b ++ "" :: blocks (c :: bs) := by
  simp [blocks, List.intercalate]

theorem sameCode_blocks
    {α : Type} {f g : α → List String}
    (h : ∀ a, SameCode (f a) (g a)) :
    (as : List α) → SameCode (blocks (as.map f)) (blocks (as.map g))
  | [] => .refl _
  | [a] => by simpa [blocks, List.intercalate] using h a
  | a :: b :: as => by
    have htail := sameCode_blocks h (b :: as)
    rw [List.map_cons, List.map_cons, List.map_cons, List.map_cons, blocks_cons_cons,
      blocks_cons_cons]
    exact (h a).append (.line "" htail)

theorem sameCode_flatMap
    {α : Type} {f g : α → List String} {as : List α}
    (h : ∀ a ∈ as, SameCode (f a) (g a)) :
    SameCode (as.flatMap f) (as.flatMap g) := by
  induction as with
  | nil => exact .nil
  | cons a as ih =>
    rw [List.flatMap_cons, List.flatMap_cons]
    exact (h a List.mem_cons_self).append (ih fun x hx => h x (List.mem_cons_of_mem _ hx))

namespace Layout

variable (l : Layout)

theorem sameCode_interfaceProperty
    (p : ModelProperty) :
    SameCode (l.interfaceProperty p) (l.interfaceProperty p.eraseDisplay) :=
  sameCode_summary (n := 2) (by simp) _ _ _ _ (.refl _)

theorem sameCode_interface
    (m : Model) :
    SameCode (l.interface m) (l.interface m.eraseDisplay) := by
  unfold interface
  simp only [List.append_assoc, List.cons_append, List.nil_append]
  refine .line _ (sameCode_summary (n := 1) (by simp) _ _ _ _ ?_)
  refine .line _ (.line _ (SameCode.append ?_ (.refl _)))
  cases l.settings.propertyStyle.hasMembers with
  | false => exact .nil
  | true =>
    rw [if_pos rfl, if_pos rfl, Model.ownProperties_eraseDisplay, List.map_map]
    exact sameCode_blocks l.sameCode_interfaceProperty _

theorem sameCode_accessor
    (p : ModelProperty) (expression : String) :
    SameCode (l.accessor p expression) (l.accessor p.eraseDisplay expression) := by
  unfold accessor
  simp only [List.append_assoc]
  exact sameCode_summary (n := 2) (by simp) _ _ _ _ (.refl _)

theorem sameCode_classMember
    (m : Model) (x : ClassMember)
    (h : ∀ p, x = .staticGetter p → '\n' ∉ p.type.name.toList) :
    SameCode (l.classMember m x) (l.classMember m.eraseDisplay x.eraseDisplay) := by
  cases x with
  | mixedAccessor mixin p => exact l.sameCode_accessor p _
  | ownAccessor p => exact l.sameCode_accessor p _
  | staticGetter p =>
    have hp := isNote_staticGetter_iff.2 (h p rfl)
    have he : isNote ("\t\t/// <summary>Static getter for " ++ markup p.eraseDisplay.type.name ++
        "</summary>") = true := isNote_staticGetter_iff.2 (by simp [ModelProperty.eraseDisplay,
          PropertyType.eraseDisplay])
    exact .notes (by simpa using hp) (by simpa using he) (by simp) (by simp) (.refl _)

/-- A display name in the comment on a static getter of a model takes more than one line. -/
def BreaksGetterComment (m : Model) : Prop :=
  m.isMixin = true ∧ l.settings.propertyStyle.hasMembers = true ∧
    ∃ p ∈ m.ownProperties, '\n' ∈ p.type.name.toList

theorem mem_ownProperties_of_staticGetter
    {style : PropertyStyle} {models : List Model} {m : Model} {p : ModelProperty}
    (h : .staticGetter p ∈ propertyMembers style models m) :
    m.isMixin = true ∧ style.hasMembers = true ∧ p ∈ m.ownProperties := by
  unfold propertyMembers at h
  cases hs : style.hasMembers with
  | false => simp [hs] at h
  | true =>
    rw [hs, if_pos rfl] at h
    rcases List.mem_append.1 h with h | h
    · unfold mixedAccessors at h
      obtain ⟨x, -, hx⟩ := List.mem_filterMap.1 h
      obtain ⟨mixin, -, hx⟩ := Option.bind_eq_some_iff.1 hx
      obtain ⟨q, -, hq⟩ := Option.map_eq_some_iff.1 hx
      cases hq
    · obtain ⟨q, hq, hmem⟩ := List.mem_flatMap.1 h
      rcases List.mem_append.1 hmem with hmem | hmem
      · split at hmem <;> simp at hmem
      · split at hmem
        · rename_i hmixin
          simp only [List.mem_singleton, ClassMember.staticGetter.injEq] at hmem
          exact ⟨hmixin, rfl, hmem ▸ hq⟩
        · simp at hmem

theorem sameCode_classType
    {m : Model}
    (h : ¬ l.BreaksGetterComment m) (models : List Model) :
    SameCode (l.classType models m)
      (l.classType (models.map (·.eraseDisplay)) m.eraseDisplay) := by
  unfold classType
  simp only [propertyMembers_eraseDisplay, List.append_assoc, List.cons_append, List.nil_append]
  refine sameCode_summary (n := 1) (by simp) _ _ _ _ ?_
  refine .line _ (.line _ (.line _ (SameCode.append (.refl _) ?_)))
  refine SameCode.append (.refl _) (SameCode.append ?_ (SameCode.append ?_ (.refl _)))
  · rw [List.isEmpty_map]
    exact .refl _
  · rw [List.flatMap_map]
    refine sameCode_flatMap fun x hx => .line "" (l.sameCode_classMember m x fun p hp hn => ?_)
    obtain ⟨hmixin, hmembers, hmem⟩ := mem_ownProperties_of_staticGetter (hp ▸ hx)
    exact h ⟨hmixin, hmembers, p, hmem, hn⟩

theorem sameCode_extensions
    (m : Model) :
    SameCode (l.extensions m) (l.extensions m.eraseDisplay) := by
  have hproperties : extensionProperties m.eraseDisplay =
      (extensionProperties m).map (·.eraseDisplay) := by
    unfold extensionProperties
    rw [Model.ownProperties_eraseDisplay, List.filter_map]
    rfl
  unfold extensions
  rw [hproperties, List.map_map]
  simp only [List.cons_append, List.nil_append]
  refine .line _ (.line _ (SameCode.append ?_ (.refl _)))
  refine sameCode_blocks (fun p => ?_) _
  exact sameCode_summary (n := 2) (by simp) _ _ _ _ (.refl _)

/-- The types of a model have the same code without display text. -/
theorem sameCode_types
    {m : Model}
    (h : ¬ l.BreaksGetterComment m) (models : List Model) :
    SameCode (l.types models m) (l.types (models.map (·.eraseDisplay)) m.eraseDisplay) := by
  have hinterface := l.sameCode_interface m
  have hclass := l.sameCode_classType h models
  have hextensions := l.sameCode_extensions m
  unfold types
  rw [show m.eraseDisplay.isMixin = m.isMixin from rfl]
  cases m.isMixin <;> cases l.settings.propertyStyle.hasExtensionMethods <;>
    simp only [if_true, Bool.false_eq_true, if_false, List.nil_append, List.append_nil,
      List.cons_append, blocks_cons_cons]
  · simpa [blocks, List.intercalate] using hclass
  · refine hclass.append (.line "" ?_)
    simpa [blocks, List.intercalate] using hextensions
  · refine hinterface.append (.line "" ?_)
    simpa [blocks, List.intercalate] using hclass
  · refine hinterface.append (.line "" (hclass.append (.line "" ?_)))
    simpa [blocks, List.intercalate] using hextensions

end Layout

end Generated
end ContentModels

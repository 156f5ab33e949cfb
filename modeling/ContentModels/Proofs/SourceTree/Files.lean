import ContentModels.CSharp.Compilation
import ContentModels.Proofs.SourceTree.Declarations

/-!
# Reading the files of a tree

Directives are read one by one into the scope of what stands behind them, and the types and
blocks of namespaces as the types that they flatten to, each with the names and directives
around it.  A text whose tokens are those of a tree is read as that tree (`parseUnit_tree`),
on whatever lines they stand.
-/

namespace ContentModels
namespace CSharp

/-! ## Contents -/

namespace Parse

namespace Contents

/-- The contents of a part of a file without lines. -/
def withoutLines (c : Contents) : Contents :=
  ⟨c.usings, c.assemblyAttributes.map AttributeUse.withoutLine,
    c.types.map TypeDeclaration.withoutLines⟩

theorem withoutLines_append
    (a b : Contents) :
    (a ++ b).withoutLines = a.withoutLines ++ b.withoutLines := by
  change Contents.mk _ _ _ = Contents.mk _ _ _
  congr 1 <;> exact List.map_append

end Contents

namespace NamespaceState

/-- The state of the reader of a namespace without lines. -/
def withoutLines (s : NamespaceState) : NamespaceState :=
  { s with contents := s.contents.withoutLines }

theorem withoutLines_add
    (s : NamespaceState) (c : Contents) :
    (s.add c).withoutLines = s.withoutLines.add c.withoutLines := by
  unfold withoutLines add
  rw [Contents.withoutLines_append]

/-- Where types are added the name and the directives in scope stay, and the contents go on. -/
theorem add_types
    {s s' : NamespaceState} {ts us : List TypeDeclaration}
    (h : s'.withoutLines = s.withoutLines.add ⟨[], [], ts⟩) :
    s'.name = s.name ∧ s'.scope = s.scope ∧
      s'.contents.withoutLines ++ ⟨[], [], us⟩ = s.contents.withoutLines ++ ⟨[], [], ts ++ us⟩ := by
  obtain ⟨hname, hscope, hcontents⟩ := NamespaceState.mk.inj h
  refine ⟨hname, hscope, ?_⟩
  rw [hcontents]
  exact Contents.append_assoc _ _ _

/-- Directives come into scope in their order, and belong to the file outside all namespaces. -/
theorem foldl_addUsing
    (ds : List UsingDirective) (s : NamespaceState) :
    ds.foldl addUsing s =
      ⟨s.name, s.scope ++ ds, if s.name = "" then s.contents ++ ⟨ds, [], []⟩ else s.contents⟩ := by
  induction ds generalizing s with
  | nil =>
    rw [List.foldl_nil, List.append_nil]
    split
    · rw [show s.contents ++ ⟨[], [], []⟩ = s.contents from Contents.append_empty _]
    · rfl
  | cons d ds ih =>
    rw [List.foldl_cons, ih, addUsing]
    by_cases hname : s.name = ""
    · simp only [hname, if_true, add, List.append_assoc, Contents.append_assoc]
      rfl
    · simp only [hname, if_false, List.append_assoc, List.singleton_append]

end NamespaceState

end Parse

namespace SourceTree

open Parse

variable {α β : Type} {version : LanguageVersion} {next : Option TokenKind → Prop}
variable {ks js : List TokenKind} {k : Option TokenKind} {depth : Nat}

/-! ## Names of namespaces -/

/-- A dotted name of words is not empty. -/
theorem intercalate_ne_empty
    {ws : List String} (h : ∀ w ∈ ws, w ≠ "") (hne : ws ≠ []) :
    ".".intercalate ws ≠ "" := by
  cases ws with
  | nil => exact absurd rfl hne
  | cons w ws =>
    have hw : w ≠ "" := h w List.mem_cons_self
    cases ws with
    | nil => simpa using hw
    | cons v ws =>
      rw [String.intercalate_cons_of_ne_nil (by simp)]
      simp [hw]

/-- The name of an inner namespace goes on with its own words. -/
theorem joinNames_intercalate
    {outer inner : List String} (h : ∀ w ∈ outer, w ≠ "") (hne : inner ≠ []) :
    joinNames (".".intercalate outer) (".".intercalate inner) =
      ".".intercalate (outer ++ inner) := by
  unfold joinNames
  cases outer with
  | nil => rfl
  | cons w outer =>
    rw [if_neg (intercalate_ne_empty h (by simp)),
      String.intercalate_append_of_ne_nil (by simp) hne]

theorem NamespacePath.ne_empty
    (p : NamespacePath) :
    ∀ w ∈ p.segments, w ≠ "" := by
  intro w hw
  rcases List.mem_append.1 hw with hw | hw
  · obtain ⟨i, -, rfl⟩ := List.mem_map.1 hw
    exact i.isIdentifier.1
  · rw [List.mem_singleton.1 hw]
    exact p.last.isIdentifier.1

/-! ## Rounds of the reader of a namespace -/

/-- One step in reading a namespace that goes on. -/
def itemRound (depth : Nat) (s : NamespaceState) : Parse (Round NamespaceState Contents) := do
  if ← seesUsing then
    return .again (s.addUsing (← usingDirective))
  if ← seesAssemblyAttributes then
    return .again (s.add ⟨[], ← attributeSection, []⟩)
  if ← seesKeyword "namespace" then
    let line ← line
    advance
    let inner := joinNames s.name (".".intercalate (← typeName).path)
    if ← sees .semicolon then
      require .fileScopedNamespace line
      advance
      return .again { s with name := inner }
    expect .openBrace
    let contents ← namespaceMembersAt depth inner s.scope true
    return .again (s.add contents)
  if ← accept .semicolon then return .again s
  return .again (s.add ⟨[], [], ← namespaceType s⟩)

/-- A namespace goes on where no brace closes and no name of an assembly is declared. -/
theorem reads_namespaceRound
    {s : NamespaceState} {result : Round NamespaceState Contents → Prop} {i : TokenKind}
    (hi : ks.head? = some i) (hclose : i ≠ .punct .closeBrace)
    (hseen : i.keyword? = some "extern" →
      ∀ k, Shows next ks 1 k → k.bind TokenKind.keyword? ≠ some "alias")
    (inBlock : Bool) (h : Reads version (itemRound depth s) ks next result) :
    Reads version (namespaceRound depth inBlock s) ks next result := by
  have hgoes : Reads version (do
      if (← seesKeyword "extern") && (← seesKeyword "alias" 1) then
        skipStatement
        return .again s
      itemRound depth s) ks next result := by
    refine .look (looks_seesKeyword hi rfl) (.looksKeyword fun k hk => ?_)
    rw [if_neg (by simpa using fun hword => hseen hword k hk)]
    exact h
  unfold namespaceRound
  refine .look (looks_peek hi) ?_
  cases inBlock with
  | true => exact .look (looks_accept hi hclose) hgoes
  | false => exact hgoes

theorem reads_seesUsing
    {q : Bool → Parse β} {result : β → Prop} {b : Bool}
    (hb : ∀ k k', Shows next ks 0 k → Shows next ks 1 k' →
      (k.bind TokenKind.keyword? == some "using" || (k.bind TokenKind.keyword? == some "global" &&
        k'.bind TokenKind.keyword? == some "using")) = b)
    (h : Reads version (q b) ks next result) :
    Reads version (seesUsing >>= q) ks next result := by
  intro endLine toks rest hk hrest
  unfold seesUsing
  simp only [bind_assoc_apply, seesKeyword_bind, pure_bind_apply]
  have hsees := hb _ _ (shows_headKind hk hrest 0) (shows_headKind hk hrest 1)
  rw [hsees]
  exact h endLine toks rest hk hrest

/-- No attributes of an assembly start where no colon is the third token. -/
theorem reads_noAssemblyAttributes
    {q : Bool → Parse β} {result : β → Prop}
    (hne : Shows next ks 0 (some (.punct .openBracket)) →
      ∀ k, Shows next ks 2 k → k ≠ some (.punct .colon))
    (h : Reads version (q false) ks next result) :
    Reads version (seesAssemblyAttributes >>= q) ks next result := by
  intro endLine toks rest hk hrest
  have hsees : ∀ b : Bool, ((headKind (toks ++ rest) == some (.punct .openBracket)) && b &&
      (headKind ((toks ++ rest).drop 2) == some (.punct .colon))) = false := by
    intro b
    by_cases hbracket : headKind (toks ++ rest) = some (.punct .openBracket)
    · have hcolon := hne (hbracket ▸ shows_headKind hk hrest 0) _ (shows_headKind hk hrest 2)
      rw [beq_eq_false_iff_ne.2 hcolon, Bool.and_false]
    · rw [beq_eq_false_iff_ne.2 hbracket, Bool.false_and, Bool.false_and]
  unfold seesAssemblyAttributes
  simp only [bind_assoc_apply, sees_bind, seesKeyword_bind, pure_bind_apply, List.drop_zero]
  rw [hsees]
  exact h endLine toks rest hk hrest

/-! ## How types in a namespace start -/

/-- A word that is no modifier is not in front of a declaration. -/
theorem Fronts.keyword?_ne
    {i j : TokenKind} (h : Fronts i j) {w : String} (hw : w ∉ modifierWords)
    (hj : j.keyword? ≠ some w) :
    i.keyword? ≠ some w := by
  rcases h with rfl | ⟨v, hv, rfl⟩ | rfl
  · nofun
  · intro heq
    exact hw (Option.some.inj heq ▸ hv)
  · exact hj

/-- The keyword of a type is none that starts something else in a namespace. -/
theorem ne_of_typeKeyword?
    {v w : String} {kind : DeclarationKind} (h : typeKeyword? v = some kind)
    (hw : w ∉ typeWords) :
    (TokenKind.ident v false).keyword? ≠ some w := by
  intro heq
  obtain rfl : v = w := Option.some.inj heq
  rw [typeKeyword?_eq_none hw] at h
  cases h

/-- What stands behind `extern` is a modifier or the keyword of a type. -/
theorem Head.shows_behindExtern
    {v : String} {kind : DeclarationKind} (h : Head) (hv : js.head? = some (.ident v false))
    (hkind : typeKeyword? v = some kind) {i : TokenKind} (hi : (h.kinds ++ js).head? = some i)
    (hseen : i.keyword? = some "extern") (hk : Shows next (h.kinds ++ js) 1 k) :
    k.bind TokenKind.keyword? ≠ some "alias" := by
  unfold Head.kinds at hi hk
  cases hattributes : h.attributes with
  | cons s sections =>
    rw [hattributes] at hi
    obtain rfl : TokenKind.punct .openBracket = i := Option.some.inj hi
    cases hseen
  | nil =>
    rw [hattributes] at hi hk
    cases hwords : words h.modifiers with
    | nil =>
      rw [hwords] at hi
      obtain rfl : TokenKind.ident v false = i := Option.some.inj (hv.symm.trans hi)
      exact absurd hseen (ne_of_typeKeyword? hkind (by decide))
    | cons w ws =>
      rw [hwords] at hk
      rcases shows_words (hk : Shows next (wordKinds ws ++ js) 0 k) with ⟨w', hw', rfl⟩ | ⟨-, hk⟩
      · have hmodifier : w' ∈ modifierWords :=
          mem_words (hwords ▸ List.mem_cons_of_mem _ hw')
        intro heq
        rw [Option.some.inj heq] at hmodifier
        revert hmodifier
        decide
      · rw [shows_of_head? hv hk]
        exact ne_of_typeKeyword? hkind (by decide)

/-- The third token is no colon where the first one is the bracket of attributes. -/
theorem Head.shows_third
    {v : String} (h : Head) (hv : js.head? = some (.ident v false))
    (hbracket : Shows next (h.kinds ++ js) 0 (some (.punct .openBracket)))
    (hk : Shows next (h.kinds ++ js) 2 k) :
    k ≠ some (.punct .colon) := by
  unfold Head.kinds at hbracket hk
  cases hattributes : h.attributes with
  | cons s sections =>
    have hkinds : sectionKinds (s :: sections) ++ wordKinds (words h.modifiers) ++ js =
        .punct .openBracket :: (listedKinds ((s.first :: s.more).map AttributeTree.kinds) ++
          .punct .closeBracket :: (sectionKinds sections ++
            (wordKinds (words h.modifiers) ++ js))) := by
      simp [sectionKinds, AttributeSection.kinds, bracketed]
    rw [hattributes, hkinds] at hk
    exact s.shows_second hk
  | nil =>
    rw [hattributes] at hbracket
    rcases shows_words (hbracket : Shows next (wordKinds (words h.modifiers) ++ js) 0 _) with
      ⟨w, -, hword⟩ | ⟨-, hv'⟩
    · cases hword
    · cases shows_of_head? hv hv'

/-! ## Directives -/

/-- What is read behind the word of a directive. -/
def behindUsing (line : Nat) : Parse UsingDirective := do
  let kind ←
    if ← seesKeyword "static" then
      require .usingStatic line
      advance
      pure .staticMembers
    else if (← seesIdent) && (← sees .assign 1) then
      let name ← ident
      advance
      pure (.named name)
    else pure .namespaceMembers
  let target ← typeName
  expect .semicolon
  return ⟨kind, target⟩

/-- What closes a block of a namespace; the file itself is closed by its end. -/
def closing : Bool → List TokenKind
  | true => [.punct .closeBrace]
  | false => []

/-- What follows a block or a file. -/
def followsItems : Bool → Option TokenKind → Prop
  | true, k => k ≠ some (.punct .semicolon)
  | false, k => k = none

section Files

variable (hversion : ∀ feature, version.supports feature = true)
include hversion

theorem UsingTree.reads_behindUsing
    (u : UsingTree) (line : Nat) :
    Reads version (behindUsing line) (u.form.kinds ++ (u.target.kinds ++ [.punct .semicolon]))
      anything (· = u.directive) := by
  obtain ⟨isGlobal, form, target⟩ := u
  have htarget : ∀ kind, Reads version (do
      let target ← typeName
      expect .semicolon
      return (⟨kind, target⟩ : UsingDirective)) (target.kinds ++ [.punct .semicolon]) anything
      (· = ⟨kind, target.name⟩) := by
    intro kind
    refine target.reads_typeName.step (by rintro k rfl; simp [endsType, isMark]) ?_
    rintro _ rfl
    exact .expect (.pure rfl)
  unfold behindUsing
  cases form with
  | staticMembers =>
    refine .look (looks_seesKeyword rfl rfl) (.require (hversion _) (.advance ?_))
    exact htarget .staticMembers
  | named name =>
    refine .missesKeyword ?_ ?_
    · rintro k rfl
      exact StartsType.keyword?_ne (j := name.kind) name.not_isOtherKeyword (by decide)
    · refine .look (looks_seesIdent rfl rfl) (.look (looks_sees rfl rfl) (.ident (.advance ?_)))
      exact htarget (.named name.text)
  | namespaceMembers =>
    obtain ⟨j, hj, hstarts⟩ := target.exists_head
    have hhead : (target.kinds ++ [TokenKind.punct .semicolon]).head? = some j := by
      rw [List.head?_append, hj]
      rfl
    refine .look (looks_seesKeyword hhead (beq_eq_false_iff_ne.2
      (hstarts.keyword?_ne (by decide)))) ?_
    refine .look (looks_seesIdent hhead rfl) ?_
    cases j with
    | ident w b =>
      -- Behind the first word of the name its next part comes, or the semicolon.
      refine .misses (fun k hk => ?_) (htarget .namespaceMembers)
      rintro rfl
      rcases TypeTree.shows_second hj hk with hends | hk
      · exact hends (by simp [endsType, isMark])
      · cases hk
    | punct p => exact .sees_any fun b => htarget .namespaceMembers
    | str | character | number => exact hstarts.elim

theorem UsingTree.reads_usingDirective
    (u : UsingTree) :
    Reads version usingDirective u.kinds anything (· = u.directive) := by
  have hbehind := fun line => u.reads_behindUsing hversion line
  unfold UsingTree.kinds usingDirective
  refine .line fun line => ?_
  cases u.isGlobal with
  | true =>
    refine .look (looks_seesKeyword rfl rfl) (.require (hversion _) (.advance (.advance ?_)))
    exact hbehind line
  | false => exact .look (looks_seesKeyword rfl rfl) (.advance (hbehind line))

/-- A directive is one step in reading a namespace. -/
theorem UsingTree.reads_namespaceRound
    (u : UsingTree) (depth : Nat) (inBlock : Bool) (s : NamespaceState) :
    Reads version (namespaceRound depth inBlock s) u.kinds anything
      (isAgain (· = s.addUsing u.directive)) := by
  have hround : Reads version (do return .again (s.addUsing (← usingDirective))) u.kinds anything
      (isAgain (· = s.addUsing u.directive) : Round _ Contents → Prop) := by
    refine (u.reads_usingDirective hversion).returning ?_
    rintro _ rfl
    exact ⟨_, rfl, rfl⟩
  obtain ⟨isGlobal, form, target⟩ := u
  cases isGlobal with
  | true =>
    refine SourceTree.reads_namespaceRound (i := .ident "global" false) rfl nofun nofun inBlock ?_
    exact reads_seesUsing (b := true) (by rintro _ _ rfl rfl; rfl) hround
  | false =>
    refine SourceTree.reads_namespaceRound (i := .ident "using" false) rfl nofun nofun inBlock ?_
    exact reads_seesUsing (b := true) (by rintro _ _ rfl -; rfl) hround

/-- Directives come into scope one by one. -/
theorem reads_directives
    {result : Contents → Prop} (us : List UsingTree) (depth : Nat) (inBlock : Bool)
    (s : NamespaceState)
    (h : Reads version
      (loop ((us.map UsingTree.directive).foldl NamespaceState.addUsing s)
        (namespaceRound depth inBlock)) js next result) :
    Reads version (loop s (namespaceRound depth inBlock)) (directiveKinds us ++ js) next
      result := by
  induction us generalizing s with
  | nil => exact h
  | cons u us ih =>
    unfold directiveKinds
    rw [List.flatMap_cons, List.append_assoc]
    refine (u.reads_namespaceRound hversion depth inBlock s).loop_next ?_ (fun _ _ => trivial) ?_
    · unfold UsingTree.kinds
      simp
    · rintro _ rfl
      exact ih _ h

/-! ## Types in a namespace -/

/-- A type in a namespace is read with what stands in front of it. -/
theorem TypeDefinition.reads_namespaceType
    (d : TypeDefinition) (hplain : d.IsPlain) (head : Head) (s : NamespaceState) :
    Reads version (namespaceType s) (head.kinds ++ d.kinds) (· ≠ some (.punct .semicolon))
      (·.map TypeDeclaration.withoutLines = d.flatten ⟨s.name, [], s.scope⟩ head) := by
  obtain ⟨w, hw, hkeyword⟩ := d.exists_head
  unfold namespaceType
  refine head.reads_front hw nofun (followsModifiers_of_typeKeyword? hkeyword _)
    fun attributes huses => ?_
  refine .look (looks_seesType hw) ?_
  rw [show (TokenKind.ident w false).keyword?.bind typeKeyword? = _ from hkeyword]
  refine .nested fun depth hdepth => ?_
  exact d.reads_typeDeclarationAt hversion hplain head _ huses depth (Nat.le_of_lt hdepth)

/-- A type is one step in reading a namespace. -/
theorem TypeDefinition.reads_namespaceRound
    (d : TypeDefinition) (hplain : d.IsPlain) (head : Head) (depth : Nat) (inBlock : Bool)
    (s : NamespaceState) :
    Reads version (namespaceRound depth inBlock s) (head.kinds ++ d.kinds)
      (· ≠ some (.punct .semicolon))
      (isAgain (·.withoutLines =
        s.withoutLines.add ⟨[], [], d.flatten ⟨s.name, [], s.scope⟩ head⟩)) := by
  obtain ⟨w, hw, hkeyword⟩ := d.exists_head
  obtain ⟨i, hi, hfront⟩ := head.exists_head hw
  have hword : ∀ v, v ∉ modifierWords → v ∉ typeWords →
      ∀ k, Shows (· ≠ some (.punct .semicolon)) (head.kinds ++ d.kinds) 0 k →
        k.bind TokenKind.keyword? ≠ some v := by
    intro v hmodifier htype k hk
    rw [shows_of_head? hi hk]
    exact hfront.keyword?_ne hmodifier (ne_of_typeKeyword? hkeyword htype)
  refine SourceTree.reads_namespaceRound hi (hfront.ne_punct nofun nofun)
    (fun hseen k hk => head.shows_behindExtern hw hkeyword hi hseen hk) inBlock ?_
  unfold itemRound
  refine reads_seesUsing (b := false) (fun k k' hk _ => ?_) ?_
  · rw [beq_eq_false_iff_ne.2 (hword _ (by decide) (by decide) k hk),
      beq_eq_false_iff_ne.2 (hword _ (by decide) (by decide) k hk)]
    rfl
  refine reads_noAssemblyAttributes (fun hbracket k hk => head.shows_third hw hbracket hk) ?_
  refine .missesKeyword (hword _ (by decide) (by decide)) ?_
  refine .look (looks_accept hi (hfront.ne_punct nofun nofun)) ?_
  refine (d.reads_namespaceType hversion hplain head s).returning fun ts hts => ⟨_, rfl, ?_⟩
  refine (NamespaceState.withoutLines_add s _).trans ?_
  exact congrArg (fun ts => s.withoutLines.add ⟨[], [], ts⟩) hts

/-! ## Blocks of namespaces -/

omit hversion in
/-- A block is read to its brace, and a file to its end. -/
theorem reads_closing
    (depth : Nat) (inBlock : Bool) (s : NamespaceState) :
    Reads version (loop s (namespaceRound depth inBlock)) (closing inBlock)
      (followsItems inBlock) (· = s.contents) := by
  refine .loop_done ?_
  unfold namespaceRound
  cases inBlock with
  | true =>
    refine .look (looks_peek rfl) (.accept ?_)
    exact .declines (fun _ hk => hk) (.pure ⟨_, rfl, rfl⟩)
  | false =>
    refine .peek fun k hk => ?_
    obtain rfl : k = none := hk
    exact .pure ⟨_, rfl, rfl⟩

omit hversion in
/-- No semicolon comes first in a part of a file. -/
theorem Items.shows_first
    (items : Items) {inBlock : Bool}
    (h : Shows (followsItems inBlock) (items.kinds ++ closing inBlock) 0 k) :
    k ≠ some (.punct .semicolon) := by
  cases items with
  | nil =>
    cases inBlock with
    | true =>
      obtain rfl : k = _ := h
      nofun
    | false =>
      obtain rfl : k = none := h
      nofun
  | type head definition rest =>
    obtain ⟨w, hw, -⟩ := definition.exists_head
    obtain ⟨i, hi, hfront⟩ := head.exists_head hw
    have hhead : ((Items.type head definition rest).kinds ++ closing inBlock).head? = some i := by
      rw [Items.kinds, ← List.append_assoc head.kinds, List.head?_append, List.head?_append, hi]
      rfl
    have hne : i ≠ .punct .semicolon := hfront.ne_punct nofun nofun
    rw [shows_of_head? hhead h]
    simpa using hne
  | block path usings inner rest =>
    obtain rfl : k = _ := h
    nofun

/-- A block of a namespace is one step in reading what it stands in. -/
theorem reads_namespaceRound_block
    {path : NamespacePath} {usings : List UsingTree} {inner : Items} {outer : List String}
    (houter : ∀ w ∈ outer, w ≠ "") {s : NamespaceState} (hname : s.name = ".".intercalate outer)
    (hinner : ∀ s' : NamespaceState, s'.name = ".".intercalate (outer ++ path.segments) →
      Reads version (loop s' (namespaceRound depth true)) (inner.kinds ++ closing true)
        (followsItems true) (·.withoutLines = s'.contents.withoutLines ++
          ⟨[], [], inner.types (outer ++ path.segments) s'.scope⟩))
    (inBlock : Bool) :
    Reads version (namespaceRound (depth + 1) inBlock s)
      ([.ident "namespace" false] ++
        (path.kinds ++ braced (directiveKinds usings ++ inner.kinds)))
      (· ≠ some (.punct .semicolon))
      (isAgain (·.withoutLines = s.withoutLines.add ⟨[], [], inner.types (outer ++ path.segments)
        (s.scope ++ usings.map UsingTree.directive)⟩)) := by
  have hsegments : path.segments ≠ [] := by simp [NamespacePath.segments]
  have hwords : ∀ w ∈ outer ++ path.segments, w ≠ "" := fun w hw =>
    (List.mem_append.1 hw).elim (houter w) (path.ne_empty w)
  refine SourceTree.reads_namespaceRound (i := .ident "namespace" false) rfl nofun nofun
    inBlock ?_
  unfold itemRound
  refine reads_seesUsing (b := false) (by rintro _ _ rfl -; rfl) ?_
  refine reads_noAssemblyAttributes nofun ?_
  refine .look (looks_seesKeyword rfl rfl) (.line fun line => .advance ?_)
  refine (reads_dotted _ _).step (by rintro k rfl; simp [endsType, isMark]) fun type htype => ?_
  refine .look (looks_sees rfl rfl) (.expect ?_)
  have hjoin : joinNames s.name (".".intercalate type.path) =
      ".".intercalate (outer ++ path.segments) := by
    rw [hname, htype.path]
    exact joinNames_intercalate houter hsegments
  have hinside : Reads version (namespaceMembersAt (depth + 1) (joinNames s.name
      (".".intercalate type.path)) s.scope true)
      ((directiveKinds usings ++ inner.kinds) ++ [.punct .closeBrace])
      (· ≠ some (.punct .semicolon)) (·.withoutLines = ⟨[], [], inner.types
        (outer ++ path.segments) (s.scope ++ usings.map UsingTree.directive)⟩) := by
    rw [namespaceMembersAt_succ, hjoin, List.append_assoc]
    refine reads_directives hversion usings depth true _ ?_
    rw [NamespaceState.foldl_addUsing,
      if_neg (intercalate_ne_empty hwords (by simp [hsegments]))]
    exact hinner _ rfl
  refine hinside.returning fun c hc => ⟨_, rfl, ?_⟩
  refine (NamespaceState.withoutLines_add s c).trans ?_
  rw [hc]

/-- Types and blocks of namespaces are read as the types that they flatten to. -/
theorem Items.reads_namespaceRounds
    (items : Items) (hplain : items.IsPlain) (outer : List String) (houter : ∀ w ∈ outer, w ≠ "")
    (inBlock : Bool) (depth : Nat) (hdepth : items.kinds.length ≤ depth) {s : NamespaceState}
    (hname : s.name = ".".intercalate outer) :
    Reads version (loop s (namespaceRound depth inBlock)) (items.kinds ++ closing inBlock)
      (followsItems inBlock)
      (·.withoutLines = s.contents.withoutLines ++ ⟨[], [], items.types outer s.scope⟩) := by
  induction items generalizing outer depth inBlock s with
  | nil =>
    refine (reads_closing depth inBlock s).mono ?_
    rintro _ rfl
    exact (Contents.append_empty _).symm
  | type head definition rest ih =>
    rw [Items.kinds, List.length_append, List.length_append] at hdepth
    rw [Items.kinds, Items.types, ← List.append_assoc head.kinds, List.append_assoc]
    refine (definition.reads_namespaceRound hversion hplain.1 head depth inBlock s).loop_next ?_
      (fun k hk => rest.shows_first hk) fun s' hs' => ?_
    · exact List.append_ne_nil_of_right_ne_nil _ (List.length_pos_iff.1 definition.length_pos)
    · obtain ⟨hname', hscope, hcontents⟩ := NamespaceState.add_types hs'
      have hrest := ih hplain.2 outer houter inBlock depth (by omega) (hname'.trans hname)
      rw [hscope, hcontents, hname] at hrest
      exact hrest
  | block path usings inner rest ihInner ihRest =>
    simp only [Items.kinds, List.length_append, List.length_cons, braced] at hdepth
    obtain ⟨depth, rfl⟩ : ∃ n, depth = n + 1 := ⟨depth - 1, by omega⟩
    rw [Items.kinds, Items.types, ← List.append_assoc path.kinds, ← List.append_assoc [_],
      List.append_assoc]
    have hwords : ∀ w ∈ outer ++ path.segments, w ≠ "" := fun w hw =>
      (List.mem_append.1 hw).elim (houter w) (path.ne_empty w)
    refine (reads_namespaceRound_block hversion houter hname (fun s' hs' =>
      ihInner hplain.1 _ hwords true depth (by omega) hs') inBlock).loop_next (by simp)
      (fun k hk => rest.shows_first hk) fun s' hs' => ?_
    obtain ⟨hname', hscope, hcontents⟩ := NamespaceState.add_types hs'
    have hrest := ihRest hplain.2 outer houter inBlock (depth + 1) (by omega) (hname'.trans hname)
    rw [hscope, hcontents] at hrest
    exact hrest

/-! ## Files -/

/-- The tokens of a tree are read as its directives and the types that it flattens to. -/
theorem File.reads_fileContents
    (f : File) (hplain : f.IsPlain) :
    Reads version fileContents f.kinds (· = none)
      (·.withoutLines = ⟨f.usings.map UsingTree.directive, [], f.types⟩) := by
  unfold fileContents File.kinds
  refine .nested fun depth hdepth => ?_
  rw [List.length_append] at hdepth
  obtain ⟨depth, rfl⟩ : ∃ n, depth = n + 1 := ⟨depth - 1, by omega⟩
  rw [namespaceMembersAt_succ]
  refine reads_directives hversion f.usings depth false _ ?_
  have hitems := f.items.reads_namespaceRounds hversion hplain [] nofun false depth (by omega)
    (s := ⟨"", f.usings.map UsingTree.directive, ⟨f.usings.map UsingTree.directive, [], []⟩⟩) rfl
  rw [closing, List.append_nil] at hitems
  rw [NamespaceState.foldl_addUsing, if_pos rfl]
  refine hitems.mono fun c hc => hc.trans ?_
  change Contents.mk (f.usings.map UsingTree.directive ++ []) [] f.types = _
  rw [List.append_nil]

end Files

theorem supports_latest
    (feature : Feature) :
    LanguageVersion.latest.supports feature = true := by
  cases feature <;> rfl

/--
A text whose tokens are those of a tree is read as the directives of the tree and the types that
it flattens to, outer before inner and in the order of the text.
-/
theorem parseUnit_tree
    (f : File) (hplain : f.IsPlain) (file source : String) (lexed : Lexed)
    (hlexed : tokenize source = .ok lexed) (hkinds : kindsOf lexed.tokens = f.kinds) :
    ∃ unit, parseUnit file source .latest = .ok unit ∧ unit.file = file ∧
      unit.usings = f.usings.map UsingTree.directive ∧ unit.assemblyAttributes = [] ∧
      unit.types.map TypeDeclaration.withoutLines = f.types := by
  obtain ⟨c, hc, hcontents⟩ := f.reads_fileContents supports_latest hplain
    ((lexed.tokens.getLast?.map (·.line)).getD 1) lexed.tokens [] hkinds rfl
  rw [List.append_nil] at hc
  obtain ⟨husings, hattributes, htypes⟩ := Contents.mk.inj hcontents
  have hcheck := checkTokens_of_supports supports_latest lexed.tokens
  refine ⟨_, by rw [parseUnit, parseSource_of_fileContents file hlexed hcheck hc], rfl, husings,
    ?_, htypes⟩
  simpa using hattributes

/-- A namespace with a class that has a field and another class in it. -/
def nestedTypes : File where
  usings := [⟨false, .namespaceMembers, .named false (.last ⟨"System", by decide⟩ .nil) []⟩]
  items :=
    .block ⟨[⟨"Site", by decide⟩], ⟨"Models", by decide⟩⟩ []
      (.type ⟨[], [⟨"public", by decide⟩]⟩
        (.composite .classType ⟨"Page", by decide⟩ []
          [.named false (.last ⟨"Base", by decide⟩ .nil) []]
          (.member ⟨[], []⟩
            (.field (.named false (.last ⟨"int", by decide⟩ .nil) [])
              ⟨⟨"x", by decide⟩, none⟩ [])
            (.type ⟨[], []⟩ (.composite .classType ⟨"Part", by decide⟩ [] [] .nil) .nil)))
        .nil)
      .nil

theorem parseUnit_tree_nested :
    ∃ unit, parseUnit "Page.cs"
        "using System; namespace Site.Models { public class Page : Base { int x; class Part { } } }"
        .latest = .ok unit ∧
      unit.file = "Page.cs" ∧
      unit.usings = nestedTypes.usings.map UsingTree.directive ∧ unit.assemblyAttributes = [] ∧
      unit.types.map TypeDeclaration.withoutLines = nestedTypes.types :=
  parseUnit_tree nestedTypes ⟨⟨⟨nofun, trivial, trivial⟩, trivial⟩, trivial⟩ "Page.cs"
    "using System; namespace Site.Models { public class Page : Base { int x; class Part { } } }"
    ⟨nestedTypes.kinds.map fun k => ⟨k, 1⟩, []⟩ (by decide +kernel) (by decide +kernel)

end SourceTree
end CSharp
end ContentModels

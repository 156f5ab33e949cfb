import Mathlib.Data.List.Forall2
import ContentModels.Proofs.Parsing.Declarations

/-!
# Reading files

What the reader of a file does with generated code: directives that use namespaces, and one
namespace with type declarations.  The types that it finds are those, in their order, and
there are no attributes of an assembly.
-/

namespace ContentModels
namespace CSharp
namespace Parse

variable {version : LanguageVersion} {ks js : List TokenKind}

/-! ## Contents -/

namespace Contents

theorem append_assoc
    (a b c : Contents) :
    a ++ b ++ c = a ++ (b ++ c) := by
  change Contents.mk _ _ _ = Contents.mk _ _ _
  congr 1 <;> exact List.append_assoc _ _ _

theorem append_empty
    (c : Contents) :
    c ++ empty = c := by
  change Contents.mk _ _ _ = c
  simp [empty]

@[simp] theorem append_types
    (a b : Contents) :
    (a ++ b).types = a.types ++ b.types := by
  rfl

end Contents

/-! ## Namespaces -/

/-- One step in reading the members of a namespace. -/
def namespaceRound (depth : Nat) (inBlock : Bool) (s : NamespaceState) :
    Parse (Round NamespaceState Contents) := do
  if (← peek).isNone then
    if inBlock then fail (.expected .closeBrace)
    return .done s.contents
  if inBlock then
    if ← accept .closeBrace then
      let _ ← accept .semicolon
      return .done s.contents
  if (← seesKeyword "extern") && (← seesKeyword "alias" 1) then
    skipStatement
    return .again s
  if ← seesUsing then
    return .again (s.addUsing (← usingDirective))
  if ← seesAssemblyAttributes then
    return .again (s.add ⟨[], ← attributeSection, []⟩)
  if ← seesKeyword "namespace" then
    let line ← line
    advance
    let inner := joinNames s.name (".".intercalate (← typeName).path)
    if ← sees .semicolon then
      require .fileScopedNamespace line
      advance
      return .again { s with name := inner }
    expect .openBrace
    let contents ← namespaceMembersAt depth inner s.scope true
    return .again (s.add contents)
  if ← accept .semicolon then return .again s
  return .again (s.add ⟨[], [], ← namespaceType s⟩)

theorem namespaceMembersAt_succ
    (depth : Nat) (name : String) (scope : List UsingDirective) (inBlock : Bool) :
    namespaceMembersAt (depth + 1) name scope inBlock =
      loop ⟨name, scope, .empty⟩ (namespaceRound depth inBlock) := by
  rw [namespaceMembersAt]
  rfl

/-- The tokens of a dotted name. -/
def dottedKinds (segments : List String) (last : String) : List TokenKind :=
  qualifierKinds segments ++ [.ident last false]

/-- A name consists of segments, and of nothing else. -/
structure IsPath (segments : List String) (last : String) (name : TypeName) : Prop where
  path : name.path = segments ++ [last]
  arity : name.arity = 0
  fromGlobal : name.fromGlobal = false

/-- A name of several segments is read as they are. -/
theorem reads_dotted
    (segments : List String) (last : String) :
    Reads version typeName (dottedKinds segments last) endsType (IsPath segments last) := by
  intro endLine toks rest hk hrest
  have hname := @typeName_dotted ⟨version, endLine⟩ segments last toks hk
  obtain ⟨toks', htoks, -, -, hreads⟩ := repeats_typeName hname (by simp [endsType, isMark])
  rw [List.append_nil] at htoks
  subst htoks
  obtain ⟨name, hname', rfl⟩ := hreads version endLine toks rest rfl hrest
  exact ⟨_, hname', rfl, rfl, rfl⟩

/-- What the reading of types does to the state of the reader. -/
structure AddsTypes (s : NamespaceState) (types : List TypeDeclaration → Prop)
    (s' : NamespaceState) : Prop where
  name : s'.name = s.name
  scope : s'.scope = s.scope
  attributes : s'.contents.assemblyAttributes = s.contents.assemblyAttributes
  types : ∃ ts, s'.contents.types = s.contents.types ++ ts ∧ types ts

/-- The tokens of a directive that uses a namespace. -/
def usingKinds (segments : List String) (last : String) : List TokenKind :=
  [.ident "using" false] ++ (dottedKinds segments last ++ [.punct .semicolon])

/-- A dotted name starts with one of its segments, and no assignment follows it. -/
theorem exists_head_dotted
    (segments : List String) (last : String) {p : Punct} (hjs : js.head? = some (.punct p))
    (hp : p ≠ .assign) :
    ∃ w k, (dottedKinds segments last ++ js).head? = some (.ident w false) ∧
      w ∈ segments ++ [last] ∧ ((dottedKinds segments last ++ js).drop 1).head? = some k ∧
      k ≠ .punct .assign := by
  cases segments with
  | nil => exact ⟨last, .punct p, rfl, by simp, hjs, by simpa using hp⟩
  | cons s segments => exact ⟨s, .punct .dot, rfl, by simp, rfl, nofun⟩

/-- A directive brings the types of a namespace into scope. -/
def UsesNamespace (segments : List String) (last : String) (d : UsingDirective) : Prop :=
  d.kind = .namespaceMembers ∧ d.target.path = segments ++ [last]

theorem reads_usingDirective
    {segments : List String} {last : String}
    (hsegments : ∀ s ∈ segments ++ [last], s ≠ "static") :
    Reads version usingDirective (usingKinds segments last) anything
      (UsesNamespace segments last) := by
  obtain ⟨w, k, hw, hmem, hk, hassign⟩ :=
    @exists_head_dotted [.punct .semicolon] segments last .semicolon rfl nofun
  have hstatic : ((TokenKind.ident w false).keyword? == some "static") = false := by
    simpa [TokenKind.keyword?] using hsegments w hmem
  unfold usingDirective usingKinds
  refine .line fun _ => ?_
  refine .look (looks_seesKeyword rfl rfl) ?_
  refine (reads_advance _).bind hw trivial fun _ _ => ?_
  refine .look (looks_seesKeyword hw hstatic) ?_
  refine .look (looks_seesIdent hw rfl) ?_
  refine .look (looks_sees hk rfl) ?_
  rw [if_neg Bool.false_ne_true, if_neg (by simp [hassign])]
  refine (reads_dotted segments last).bind rfl (by simp [endsType, isMark]) fun _ hpath => ?_
  exact (reads_expect .semicolon).bind_last fun _ _ => .pure ⟨rfl, hpath.path⟩

theorem looks_seesUsing
    {k k' : TokenKind} {b : Bool}
    (hk : ks.head? = some k) (hk' : (ks.drop 1).head? = some k')
    (hb : (k.keyword? == some "using" || (k.keyword? == some "global" &&
      k'.keyword? == some "using")) = b) :
    Looks version seesUsing b ks := by
  subst hb
  unfold seesUsing
  refine .bind (looks_seesKeyword hk rfl) ?_
  refine .bind (looks_seesKeyword hk rfl) ?_
  exact .bind (looks_seesKeyword hk' rfl) (.pure _)

/-- No attributes of an assembly start without a bracket, or where no colon is the third token. -/
theorem looks_seesAssemblyAttributes
    {k k' k'' : TokenKind}
    (hk : ks.head? = some k) (hk' : (ks.drop 1).head? = some k')
    (hk'' : (ks.drop 2).head? = some k'')
    (hno : k ≠ .punct .openBracket ∨ k'' ≠ .punct .colon) :
    Looks version seesAssemblyAttributes false ks := by
  unfold seesAssemblyAttributes
  refine .bind (looks_sees hk rfl) ?_
  refine .bind (looks_seesKeyword hk' rfl) ?_
  refine .bind (looks_seesKeyword hk' rfl) ?_
  refine .bind (looks_sees hk'' rfl) ?_
  have hfalse : ((some k == some (.punct .openBracket)) && ((k'.keyword? == some "assembly") ||
      (k'.keyword? == some "module")) && (some k'' == some (.punct .colon))) = false := by
    rcases hno with h | h <;> simp [h]
  rw [hfalse]
  exact .pure _

/-- What the reading of a directive does to the state of the reader. -/
structure AddsUsing (s : NamespaceState) (segments : List String) (last : String)
    (s' : NamespaceState) : Prop where
  name : s'.name = s.name
  scope : ∃ d, UsesNamespace segments last d ∧ s'.scope = s.scope ++ [d]
  attributes : s'.contents.assemblyAttributes = s.contents.assemblyAttributes
  types : s'.contents.types = s.contents.types

theorem addsUsing_addUsing
    {segments : List String} {last : String} (s : NamespaceState) {d : UsingDirective}
    (h : UsesNamespace segments last d) :
    AddsUsing s segments last (s.addUsing d) := by
  unfold NamespaceState.addUsing
  split
  · exact ⟨rfl, ⟨d, h, rfl⟩, List.append_nil _, List.append_nil _⟩
  · exact ⟨rfl, ⟨d, h, rfl⟩, rfl, rfl⟩

/-- A directive is one step in reading a file. -/
theorem reads_using
    {segments : List String} {last : String}
    (hsegments : ∀ s ∈ segments ++ [last], s ≠ "static") (depth : Nat) (s : NamespaceState) :
    Reads version (namespaceRound depth false s) (usingKinds segments last) anything
      (isAgain (AddsUsing s segments last)) := by
  obtain ⟨w, -, hw, -, -⟩ :=
    @exists_head_dotted [.punct .semicolon] segments last .semicolon rfl nofun
  have hsecond : ((usingKinds segments last).drop 1).head? = some (.ident w false) := hw
  unfold namespaceRound
  refine .look (looks_peek rfl) ?_
  refine .look (looks_seesKeyword rfl rfl) ?_
  refine .look (looks_seesKeyword hsecond rfl) ?_
  refine .look (looks_seesUsing rfl hsecond rfl) ?_
  exact (reads_usingDirective hsegments).bind_last fun d hd =>
    .pure ⟨_, rfl, addsUsing_addUsing s hd⟩

/-! ## Types in a namespace -/

/-- A type declaration of generated code. -/
structure TypeForm where
  /-- The alias in the attribute of a model. -/
  aliasName : Option String
  modifiers : List String
  keyword : String
  name : String
  bases : SpelledTypes
  parts : List BodyPart

namespace TypeForm

/-- The tokens of a type declaration. -/
def kinds (t : TypeForm) : List TokenKind :=
  (match t.aliasName with
    | some value => attributeKinds "PublishedModel" value
    | none => []) ++
    ((wordKinds ("public" :: t.modifiers)) ++ typeKinds t.keyword t.name t.bases t.parts)

/-- The type declaration is read as one of some kind. -/
structure Valid (version : LanguageVersion) (t : TypeForm) (kind : DeclarationKind) : Prop where
  keyword : typeKeyword? t.keyword = some kind
  kind : kind = .classType ∨ kind = .interfaceType
  modifiers : ∀ w ∈ t.modifiers, w ∈ modifierWords
  some_modifier : t.modifiers ≠ []
  bases : AllSpell t.bases
  parts : ∀ part ∈ t.parts, ReadsMembers version t.name part

/-- What a type declaration is read as behind its modifiers. -/
def IsDeclaredAs
    (t : TypeForm) (kind : DeclarationKind) (words : List String) (around : Surroundings)
    (d : TypeDeclaration) : Prop :=
  DeclaresType kind t.name (t.bases.map (·.2)) words around d ∧
    constructorHeads d.members = t.parts.flatMap (·.constructors)

/-- What a type declaration is read as with its modifiers. -/
def IsReadAs (t : TypeForm) (kind : DeclarationKind) (around : Surroundings)
    (d : TypeDeclaration) : Prop :=
  t.IsDeclaredAs kind ("public" :: t.modifiers) around d

end TypeForm

theorem typeWord_notMem_modifierWords
    {w : String} {kind : DeclarationKind}
    (h : typeKeyword? w = some kind) :
    w ∉ modifierWords := by
  unfold typeKeyword? at h
  split at h <;> first | decide | cases h

theorem reads_typeDeclaration
    {t : TypeForm} {kind : DeclarationKind}
    (h : t.Valid version kind) (attributes : List AttributeUse) (words : List String)
    (around : Surroundings) :
    Reads version (typeDeclaration kind attributes words around)
      (typeKinds t.keyword t.name t.bases t.parts) (· ≠ some (.punct .semicolon))
      (fun ts => ∃ d, ts = [d] ∧ t.IsDeclaredAs kind words around d) := by
  intro endLine toks rest hk hrest
  have hlength : 4 ≤ toks.length := by
    rw [← length_kindsOf, hk]
    simp [typeKinds]
    omega
  obtain ⟨m, hm⟩ : ∃ m, (toks ++ rest).length + 1 = m + 2 := ⟨(toks ++ rest).length - 1, by
    rw [List.length_append]
    omega⟩
  unfold typeDeclaration nested
  rw [hm]
  exact reads_typeDeclarationAt h.kind h.bases h.parts m attributes words around endLine toks rest
    hk hrest

theorem reads_namespaceType
    {t : TypeForm} {kind : DeclarationKind}
    (h : t.Valid version kind) (s : NamespaceState) :
    Reads version (namespaceType s) t.kinds (· ≠ some (.punct .semicolon))
      (fun ts => ∃ d, ts = [d] ∧ t.IsReadAs kind ⟨s.name, [], s.scope⟩ d) := by
  have hword : t.keyword ∉ modifierWords := typeWord_notMem_modifierWords h.keyword
  have hstops : StopsModifiers (typeKinds t.keyword t.name t.bases t.parts) :=
    stopsModifiers_of_head rfl fun w hw => by
      cases hw
      exact hword
  obtain ⟨front, hkinds, hfront⟩ : ∃ front,
      t.kinds = front ++ (wordKinds ("public" :: t.modifiers) ++
        typeKinds t.keyword t.name t.bases t.parts) ∧
      Reads version attributeSections front (· ≠ some (.punct .openBracket)) anyResult := by
    unfold TypeForm.kinds
    cases t.aliasName with
    | some value => exact ⟨_, rfl, reads_attributeSections version _ _⟩
    | none => exact ⟨[], rfl, reads_attributeSections_nil version⟩
  rw [hkinds]
  unfold namespaceType
  refine hfront.bind rfl (by simp) fun attributes _ => ?_
  refine reads_modifiers ?_ (.inr (by simp [typeKinds, isMark])) (by simp [typeKinds]) hstops ?_
  · rintro w (_ | ⟨_, hw⟩)
    · decide
    · exact h.modifiers w hw
  refine .look (looks_seesType rfl) ?_
  simp only [TokenKind.keyword?, Option.bind_some, h.keyword]
  exact reads_typeDeclaration h attributes _ _

/-- How a type declaration of generated code starts. -/
theorem TypeForm.exists_head
    (t : TypeForm) (hne : t.modifiers ≠ []) :
    ∃ k k' k'', t.kinds.head? = some k ∧ (t.kinds.drop 1).head? = some k' ∧
      (t.kinds.drop 2).head? = some k'' ∧ k'' ≠ .punct .colon ∧
      (k = .punct .openBracket ∨ k = .ident "public" false) := by
  unfold TypeForm.kinds
  cases t.aliasName with
  | some value => exact ⟨_, _, _, rfl, rfl, rfl, nofun, .inl rfl⟩
  | none =>
    cases hmore : t.modifiers with
    | nil => exact absurd hmore hne
    | cons w more =>
      cases more with
      | nil => exact ⟨_, _, _, rfl, rfl, rfl, nofun, .inr rfl⟩
      | cons v more => exact ⟨_, _, _, rfl, rfl, rfl, nofun, .inr rfl⟩

/-- A type declaration is one step in reading a namespace. -/
theorem reads_type
    {t : TypeForm} {kind : DeclarationKind}
    (h : t.Valid version kind) (depth : Nat) (s : NamespaceState) :
    Reads version (namespaceRound depth true s) t.kinds (· ≠ some (.punct .semicolon))
      (isAgain (AddsTypes s fun ts =>
        ∃ d, ts = [d] ∧ t.IsReadAs kind ⟨s.name, [], s.scope⟩ d)) := by
  obtain ⟨k, k', k'', hk, hk', hk'', hcolon, hstart⟩ := t.exists_head h.some_modifier
  have hword : ∀ w, w ≠ "public" → (k.keyword? == some w) = false := by
    intro w hw
    rcases hstart with rfl | rfl
    · rfl
    · simpa [TokenKind.keyword?] using hw.symm
  have hmark : ∀ p, p ≠ .openBracket → k ≠ .punct p := by
    rintro p hp heq
    rcases hstart with rfl | rfl
    · cases heq
      exact hp rfl
    · cases heq
  have husing : (k.keyword? == some "using" || (k.keyword? == some "global" &&
      k'.keyword? == some "using")) = false := by
    rw [hword _ (by decide), hword _ (by decide)]
    rfl
  unfold namespaceRound
  refine .look (looks_peek hk) ?_
  refine .look (looks_accept hk (hmark _ (by decide))) ?_
  refine .look (looks_seesKeyword hk (hword _ (by decide))) ?_
  refine .look (looks_seesKeyword hk' rfl) ?_
  refine .look (looks_seesUsing hk hk' husing) ?_
  refine .look (looks_seesAssemblyAttributes hk hk' hk'' (.inr hcolon)) ?_
  refine .look (looks_seesKeyword hk (hword _ (by decide))) ?_
  refine .look (looks_accept hk (hmark _ (by decide))) ?_
  refine (reads_namespaceType h s).bind_last fun ts hts => .pure ⟨_, rfl, ?_⟩
  exact ⟨rfl, rfl, List.append_nil _, ts, rfl, hts⟩

/-- Type declarations are read as types of some kinds, one after the other. -/
def ReadAsTypes (around : Surroundings) (forms : List (TypeForm × DeclarationKind))
    (ds : List TypeDeclaration) : Prop :=
  List.Forall₂ (fun x d => x.1.IsReadAs x.2 around d) forms ds

/-- The tokens of the types in a namespace. -/
def typesKinds (forms : List (TypeForm × DeclarationKind)) : List TokenKind :=
  forms.flatMap (·.1.kinds)

theorem exists_head_types
    {forms : List (TypeForm × DeclarationKind)}
    (h : ∀ x ∈ forms, x.1.Valid version x.2) :
    ∃ k, (typesKinds forms ++ [TokenKind.punct .closeBrace]).head? = some k ∧
      k ≠ .punct .semicolon := by
  cases forms with
  | nil => exact ⟨_, rfl, nofun⟩
  | cons x forms =>
    obtain ⟨k, -, -, hk, -, -, -, hstart⟩ :=
      x.1.exists_head (h x List.mem_cons_self).some_modifier
    exact ⟨k, by simp [typesKinds, hk], by rcases hstart with rfl | rfl <;> nofun⟩

/-- The types of a block are read up to its end. -/
theorem reads_types
    {forms : List (TypeForm × DeclarationKind)}
    (h : ∀ x ∈ forms, x.1.Valid version x.2) (depth : Nat) (s : NamespaceState) :
    Reads version (loop s (namespaceRound depth true)) (typesKinds forms ++ [.punct .closeBrace])
      (· ≠ some (.punct .semicolon))
      (fun c => c.assemblyAttributes = s.contents.assemblyAttributes ∧
        ∃ ds, c.types = s.contents.types ++ ds ∧
          ReadAsTypes ⟨s.name, [], s.scope⟩ forms ds) := by
  induction forms generalizing s with
  | nil =>
    refine .loop_done ?_
    unfold namespaceRound
    refine .look (looks_peek rfl) ?_
    refine ((reads_accept .closeBrace).follow_mono fun _ _ => trivial).bind_last fun _ hb => ?_
    rw [hb]
    intro endLine toks rest hk hrest
    obtain rfl := kindsOf_eq_nil.1 hk
    refine ⟨.done s.contents, by simp [hrest, pure_apply], _, rfl, rfl, [], ?_, .nil⟩
    exact (List.append_nil _).symm
  | cons x forms ih =>
    have hforms := fun y hy => h y (List.mem_cons_of_mem _ hy)
    have hx := h x List.mem_cons_self
    obtain ⟨k, -, -, hk, -⟩ := x.1.exists_head hx.some_modifier
    obtain ⟨j, hj, hsemicolon⟩ := exists_head_types hforms
    unfold typesKinds
    rw [List.flatMap_cons, List.append_assoc]
    refine (reads_type hx depth s).loop_again (by rintro heq; rw [heq] at hk; cases hk) hj
      (by simpa using hsemicolon) fun s' hs' => (ih hforms s').mono fun c hc => ?_
    obtain ⟨hattributes, ds, hds, hread⟩ := hc
    obtain ⟨_, hts, d, rfl, hd⟩ := hs'.types
    rw [hs'.name, hs'.scope] at hread
    refine ⟨hattributes.trans hs'.attributes, d :: ds, ?_, .cons hd hread⟩
    rw [hds, hts, List.append_assoc]
    rfl

/-! ## Files -/

/-- The tokens of a namespace with types. -/
def namespaceKinds (segments : List String) (last : String)
    (forms : List (TypeForm × DeclarationKind)) : List TokenKind :=
  [.ident "namespace" false] ++ (dottedKinds segments last ++
    ([.punct .openBrace] ++ (typesKinds forms ++ [.punct .closeBrace])))

/-- A namespace is one step in reading a file. -/
theorem reads_namespace
    {segments : List String} {last : String} {forms : List (TypeForm × DeclarationKind)}
    (h : ∀ x ∈ forms, x.1.Valid version x.2) (depth : Nat) {s : NamespaceState} (hname : s.name = "") :
    Reads version (namespaceRound (depth + 1) false s) (namespaceKinds segments last forms)
      (· ≠ some (.punct .semicolon))
      (isAgain (AddsTypes s
        (ReadAsTypes ⟨".".intercalate (segments ++ [last]), [], s.scope⟩ forms))) := by
  obtain ⟨w, k, hw, -, hk, -⟩ := @exists_head_dotted
    ([.punct .openBrace] ++ (typesKinds forms ++ [.punct .closeBrace])) segments last .openBrace
    rfl nofun
  have hsecond : ((namespaceKinds segments last forms).drop 1).head? = some (.ident w false) := hw
  have hthird : ((namespaceKinds segments last forms).drop 2).head? = some k := hk
  obtain ⟨j, hj, -⟩ := exists_head_types h
  unfold namespaceRound
  refine .look (looks_peek rfl) ?_
  refine .look (looks_seesKeyword rfl rfl) ?_
  refine .look (looks_seesKeyword hsecond rfl) ?_
  refine .look (looks_seesUsing rfl hsecond rfl) ?_
  refine .look (looks_seesAssemblyAttributes rfl hsecond hthird (.inl nofun)) ?_
  refine .look (looks_seesKeyword rfl rfl) ?_
  refine .line fun l => ?_
  refine (reads_advance _).bind hw trivial fun _ _ => ?_
  refine (reads_dotted segments last).bind rfl (by simp [endsType, isMark]) fun type htype => ?_
  refine .look (looks_sees rfl rfl) ?_
  refine (reads_expect .openBrace).bind hj trivial fun _ _ => ?_
  rw [namespaceMembersAt_succ]
  have htypes := @reads_types version forms h depth ⟨joinNames s.name (".".intercalate type.path), s.scope, .empty⟩
  refine htypes.bind_last fun c hc => .pure ⟨_, rfl, ?_⟩
  obtain ⟨hattributes, ds, hds, hread⟩ := hc
  refine ⟨rfl, rfl, ?_, ds, ?_, ?_⟩
  · change s.contents.assemblyAttributes ++ c.assemblyAttributes = _
    rw [hattributes]
    exact List.append_nil _
  · change s.contents.types ++ c.types = _
    rw [hds]
    rfl
  · have hjoin : joinNames s.name (".".intercalate type.path) =
        ".".intercalate (segments ++ [last]) := by
      rw [hname, htype.path]
      rfl
    rw [← hjoin]
    exact hread

/-- Directives are given by the segments of the names that they use. -/
abbrev DottedNames := List (List String × String)

/-- The tokens of a file: directives and a namespace. -/
def fileKinds (usings : DottedNames) (segments : List String) (last : String)
    (forms : List (TypeForm × DeclarationKind)) : List TokenKind :=
  usings.flatMap (fun u => usingKinds u.1 u.2) ++ namespaceKinds segments last forms

/-- Directives bring namespaces into scope, in their order. -/
def UseNamespaces (names : DottedNames) (ds : List UsingDirective) : Prop :=
  List.Forall₂ (fun x d => UsesNamespace x.1 x.2 d) names ds

/-- A file of directives and a namespace is read to its end. -/
theorem reads_fileContents
    {usings : DottedNames} {segments : List String} {last : String}
    {forms : List (TypeForm × DeclarationKind)}
    (husings : ∀ u ∈ usings, ∀ s ∈ u.1 ++ [u.2], s ≠ "static")
    (h : ∀ x ∈ forms, x.1.Valid version x.2) :
    Reads version fileContents (fileKinds usings segments last forms) (· = none)
      (fun c => c.assemblyAttributes = [] ∧ ∃ scope, UseNamespaces usings scope ∧
        ReadAsTypes ⟨".".intercalate (segments ++ [last]), [], scope⟩ forms c.types) := by
  have hloop : ∀ depth s, s.name = "" → Reads version (loop s (namespaceRound (depth + 1) false))
      (fileKinds usings segments last forms) (· = none)
      (fun c => c.assemblyAttributes = s.contents.assemblyAttributes ∧
        ∃ scope ds, UseNamespaces usings scope ∧ c.types = s.contents.types ++ ds ∧
          ReadAsTypes ⟨".".intercalate (segments ++ [last]), [], s.scope ++ scope⟩ forms ds) := by
    intro depth s hname
    induction usings generalizing s with
    | nil =>
      intro endLine toks rest hk hrest
      obtain ⟨_, hround, s', rfl, hs'⟩ := reads_namespace h depth hname endLine toks rest hk
        (by rw [hrest]; nofun)
      obtain rfl : rest = [] := by
        cases rest with
        | nil => rfl
        | cons t rest => cases hrest
      have hne : toks ≠ [] := by
        rintro rfl
        cases hk
      obtain ⟨ds, hds, hread⟩ := hs'.types
      refine ⟨s'.contents, loop_of_again hround ?_ (loop_of_done rfl), hs'.attributes, [], ds,
        .nil, hds, ?_⟩
      · rw [List.append_nil]
        exact List.length_pos_iff.2 hne
      · rw [List.append_nil]
        exact hread
    | cons u usings ih =>
      have hrest := fun v hv => husings v (List.mem_cons_of_mem _ hv)
      obtain ⟨k, hk⟩ : ∃ k, (fileKinds usings segments last forms).head? = some k := by
        cases usings <;> exact ⟨_, rfl⟩
      unfold fileKinds
      rw [List.flatMap_cons, List.append_assoc]
      refine (reads_using (husings u List.mem_cons_self) (depth + 1) s).loop_again nofun hk trivial
        fun s' hs' => (ih hrest s' (hs'.name.trans hname)).mono fun c hc => ?_
      obtain ⟨hattributes, scope, ds, hscope, hds, hread⟩ := hc
      obtain ⟨d, hd, heq⟩ := hs'.scope
      rw [heq, List.append_assoc] at hread
      exact ⟨hattributes.trans hs'.attributes, d :: scope, ds, .cons hd hscope,
        hds.trans (congrArg (· ++ ds) hs'.types), hread⟩
  intro endLine toks rest hk hrest
  have hne : toks ≠ [] := by
    rintro rfl
    cases usings <;> cases hk
  obtain ⟨m, hm⟩ : ∃ m, (toks ++ rest).length + 1 = m + 2 := ⟨(toks ++ rest).length - 1, by
    have := List.length_pos_iff.2 hne
    rw [List.length_append]
    omega⟩
  obtain ⟨c, hc, hattributes, scope, ds, hscope, hds, hread⟩ :=
    hloop m ⟨"", [], .empty⟩ rfl endLine toks rest hk hrest
  refine ⟨c, ?_, hattributes, scope, hscope, by rw [hds]; exact hread⟩
  change namespaceMembersAt ((toks ++ rest).length + 1) "" [] false _ _ = _
  rw [hm, namespaceMembersAt_succ]
  exact hc

end Parse

/-! ## Features that tokens need -/

/-- Tokens that need no feature of the language by themselves. -/
def needNothing : List TokenKind → Bool
  | [] => true
  | k :: ks => (neededFeatures k ks.head?).isEmpty && needNothing ks

/-- What needs nothing at the end of a text needs nothing in front of other tokens. -/
theorem neededFeatures_of_last
    {k : TokenKind}
    (h : neededFeatures k none = []) (next : Option TokenKind) :
    neededFeatures k next = [] := by
  unfold neededFeatures at *
  split at h <;> simp_all

theorem needNothing_append
    {ks js : List TokenKind}
    (h : needNothing ks = true) (h' : needNothing js = true) :
    needNothing (ks ++ js) = true := by
  induction ks with
  | nil => exact h'
  | cons k ks ih =>
    rw [needNothing, Bool.and_eq_true] at h
    rw [List.cons_append, needNothing, ih h.2, Bool.and_true]
    cases ks with
    | nil =>
      have hk : neededFeatures k none = [] := List.isEmpty_iff.1 h.1
      rw [neededFeatures_of_last hk]
      rfl
    | cons j ks => exact h.1

/-- A token that needs nothing wherever it stands. -/
def isFree : TokenKind → Bool
  | .str _ interpolated raw => !interpolated && !raw
  | .punct p => p != .conditionalAccess
  | .ident w verbatim => verbatim || w != "default"
  | _ => true

theorem neededFeatures_of_isFree
    {k : TokenKind}
    (h : isFree k = true) (next : Option TokenKind) :
    neededFeatures k next = [] := by
  unfold neededFeatures
  unfold isFree at h
  split <;> simp_all

theorem needNothing_of_forall
    {ks : List TokenKind}
    (h : ∀ k ∈ ks, isFree k = true) :
    needNothing ks = true := by
  induction ks with
  | nil => rfl
  | cons k ks ih =>
    rw [needNothing, neededFeatures_of_isFree (h k List.mem_cons_self),
      ih fun j hj => h j (List.mem_cons_of_mem _ hj)]
    rfl

/-- A word in front of a parenthesis needs nothing. -/
theorem needNothing_call
    (w : String) {ks : List TokenKind} (h : needNothing ks = true)
    (hopen : ks.head? = some (.punct .openParen)) :
    needNothing (.ident w false :: ks) = true := by
  rw [needNothing, h, hopen, Bool.and_true]
  unfold neededFeatures
  split <;> simp_all

/-- Tokens that need nothing are in every version of the language. -/
theorem checkTokens_of_needNothing
    {toks : List Token}
    (h : needNothing (kindsOf toks) = true) (version : LanguageVersion) :
    checkTokens version toks = .ok () := by
  induction toks with
  | nil => rfl
  | cons t toks ih =>
    rw [kindsOf_cons, needNothing, Bool.and_eq_true, List.isEmpty_iff] at h
    have hhead : toks.head?.map (·.kind) = (kindsOf toks).head? := by
      cases toks <;> rfl
    rw [checkTokens, hhead, h.1]
    exact ih h.2

/-- A version that has all features has those that tokens need. -/
theorem checkTokens_of_supports
    {version : LanguageVersion} (hversion : ∀ feature, version.supports feature = true)
    (ts : List Token) :
    checkTokens version ts = .ok () := by
  induction ts with
  | nil => rfl
  | cons t ts ih =>
    rw [checkTokens, List.find?_eq_none.2 (by simp [hversion])]
    exact ih

/-- A text is read as the contents of its tokens. -/
theorem parseSource_of_fileContents
    {source : String} {version : LanguageVersion} {lexed : Lexed} {c : Parse.Contents}
    {rest : List Token} (file : String) (hlexed : tokenize source = .ok lexed)
    (hcheck : checkTokens version lexed.tokens = .ok ())
    (hread : Parse.fileContents ⟨version, (lexed.tokens.getLast?.map (·.line)).getD 1⟩
      lexed.tokens = .ok (c, rest)) :
    parseSource file source version = .ok {
      file
      isGenerated := Text.occursIn generatedMark.toList lexed.leadingComments
      usings := c.usings
      assemblyAttributes := c.assemblyAttributes
      types := c.types } := by
  unfold parseSource
  rw [hlexed]
  simp [bind, Except.bind, pure, Except.pure, hcheck, hread]

end CSharp
end ContentModels

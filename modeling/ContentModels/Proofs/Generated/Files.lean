import ContentModels.Proofs.Generated.Models

/-!
# Reading generated files

The file of a readable model is read back without a fault: it is known as generated, has no
attributes of an assembly, and declares the types of the model in its namespace, in their
order and with nothing else (`exists_unit`).
-/

namespace ContentModels

/-- What is related to a list element by element is related to some element of it. -/
theorem exists_of_mem_right
    {α β : Type} {R : α → β → Prop} {as : List α} {bs : List β} {b : β}
    (h : List.Forall₂ R as bs) (hb : b ∈ bs) :
    ∃ a ∈ as, R a b := by
  induction h with
  | nil => cases hb
  | cons hab _ ih =>
    rcases List.mem_cons.1 hb with rfl | hb
    · exact ⟨_, List.mem_cons_self, hab⟩
    · obtain ⟨a, ha, hr⟩ := ih hb
      exact ⟨a, List.mem_cons_of_mem _ ha, hr⟩

namespace Generated

open CSharp CSharp.Parse

variable {l : Layout} {version : LanguageVersion} {models : List Model} {m : Model}
  {reference : TypeName}

/-- A text of lines is lexed as their tokens. -/
theorem LinesRead.tokenize
    {lines : List String} {ks : List TokenKind}
    (h : LinesRead lines ks) :
    ∃ lexed, CSharp.tokenize (textOf lines) = .ok lexed ∧ kindsOf lexed.tokens = ks := by
  have hkinds := h.reads.kindsFrom_eq
  unfold kindsFrom at hkinds
  rw [show (⟨1, true⟩ : Position) = .start from rfl] at hkinds
  unfold CSharp.tokenize
  cases hlexed : tokenizeFrom .start (textOf lines).toList with
  | error d =>
    rw [hlexed] at hkinds
    cases hkinds
  | ok lexed =>
    rw [hlexed] at hkinds
    exact ⟨lexed, rfl, Option.some.inj hkinds⟩

/-- Forms of type declarations, with the kinds that outlines give them. -/
def AreOf
    (version : LanguageVersion) (os : List TypeOutline) (forms : List (TypeForm × DeclarationKind)) :
    Prop :=
  List.Forall₂ (fun o x => o.IsOf version x.1 ∧ x.2 = o.kind) os forms

/-- Types with outlines are lexed as the tokens of their declarations. -/
theorem exists_forms
    {ws : List WrittenType} {os : List TypeOutline}
    (h : List.Forall₂ (fun w o => w.HasOutline l version o) ws os) :
    ∃ forms, LinesRead (blocks (ws.map (·.lines l))) (typesKinds forms) ∧ AreOf version os forms := by
  induction h with
  | nil => exact ⟨[], .nil, .nil⟩
  | @cons w o ws os hw hws ih =>
    obtain ⟨form, hform, hof⟩ := hw
    obtain ⟨forms, hlines, hall⟩ := ih
    refine ⟨(form, o.kind) :: forms, ?_, .cons ⟨hof, rfl⟩ hall⟩
    cases hws with
    | nil =>
      obtain rfl := List.forall₂_nil_left_iff.1 hall
      simpa [blocks, typesKinds] using hform
    | cons _ _ =>
      rw [List.map_cons, List.map_cons, blocks_cons_cons]
      rw [List.map_cons] at hlines
      simpa [typesKinds] using (hform.append .blank).append hlines

namespace AreOf

variable {os : List TypeOutline} {forms : List (TypeForm × DeclarationKind)} {enclosing : String}
  {scope : List UsingDirective} {ts : List TypeDeclaration}

theorem valid
    (h : AreOf version os forms) :
    ∀ x ∈ forms, x.1.Valid version x.2 := by
  induction h with
  | nil => nofun
  | cons hx _ ih =>
    refine List.forall_mem_cons.2 ⟨?_, ih⟩
    obtain ⟨hof, hkind⟩ := hx
    rw [hkind]
    exact hof.valid

/-- What is read as declarations of these forms is described by the outlines. -/
theorem describes
    (h : AreOf version os forms) (hts : ReadAsTypes ⟨enclosing, [], scope⟩ forms ts) :
    List.Forall₂ (fun o t => o.Describes enclosing t) os ts := by
  induction h generalizing ts with
  | nil =>
    obtain rfl := List.forall₂_nil_left_iff.1 hts
    exact .nil
  | cons hx _ ih =>
    obtain ⟨t, ts', ht, hrest, rfl⟩ := List.forall₂_cons_left_iff.1 hts
    obtain ⟨hof, hkind⟩ := hx
    rw [hkind] at ht
    exact .cons (hof.describes ht) (ih hrest)

end AreOf

/-- The types that are written for a readable model have their outlines. -/
theorem hasOutline_types
    (h : m.IsReadable l models) (husings : ∀ u ∈ l.usings, IsDotted u)
    (hbodies : SupportsBodies l version)
    (hreference : ReferenceRead version (l.shorten (l.settings.referenceType m.type.kind)) reference) :
    List.Forall₂ (fun w o => w.HasOutline l version o) (l.writtenTypes models m)
      (l.outlines reference m) := by
  have hclass := hasOutline_class h husings hbodies hreference
  have hextensions : List.Forall₂ (fun w o => WrittenType.HasOutline w l version o)
      (if l.settings.propertyStyle.hasExtensionMethods then [l.writtenExtensions m] else [])
      (if l.settings.propertyStyle.hasExtensionMethods then
        [⟨.classType, ["public", "static", "partial"], m.extensionsName, [], []⟩] else []) := by
    split
    · exact .cons (hasOutline_extensions h husings hbodies) .nil
    · exact .nil
  have hinterface : List.Forall₂ (fun w o => WrittenType.HasOutline w l version o)
      (if m.isMixin then [l.writtenInterface m] else [])
      (if m.isMixin then
        [⟨.interfaceType, ["public", "partial"], m.interfaceName, m.interfaceBases.map l.shorten, []⟩]
      else []) := by
    split
    · exact .cons (hasOutline_interface h husings) .nil
    · exact .nil
  exact List.rel_append (List.rel_append hinterface (.cons hclass .nil)) hextensions

/-! ## Around the types -/

/-- A line that is a comment. -/
def isComment (line : String) : Bool :=
  "//".toList.isPrefixOf line.toList && !line.toList.contains '\n'

theorem linesRead_comments
    {lines : List String} (h : lines.all isComment = true) :
    LinesRead lines [] := by
  induction lines with
  | nil => exact .nil
  | cons line lines ih =>
    rw [List.all_cons, Bool.and_eq_true] at h
    obtain ⟨hline, hlines⟩ := h
    unfold isComment at hline
    rw [Bool.and_eq_true, List.isPrefixOf_iff_prefix] at hline
    obtain ⟨⟨rest, hrest⟩, hfeed⟩ := hline
    have hcomment : LinesRead [line] [] := by
      refine @LinesRead.comment line 0 rest hrest.symm fun hmem => ?_
      rw [← hrest] at hfeed
      simp [hmem] at hfeed
    simpa using hcomment.append (ih hlines)

theorem linesRead_header : LinesRead header [] := by
  have hcomments : LinesRead (header.take 9) [] := linesRead_comments (by decide +kernel)
  exact hcomments.append .blank

/-- A dotted name in the rest of a line. -/
theorem lineRead_dotted
    {segments : List String} {last rest : String} {ys : List Lexeme} {ks : List TokenKind}
    (hsegments : ∀ s ∈ segments, isIdentifier s = true) (hlast : isIdentifier last = true)
    (hrest : IsLexed rest ys ks) (hchain : Lexeme.chain (.word last :: ys) = true)
    (hks : needNothing ks = true) :
    LineRead (".".intercalate (segments ++ [last]) ++ rest) (dottedKinds segments last ++ ks) := by
  have hdefault : ∀ {s}, isIdentifier s = true → s ≠ "default" := fun h =>
    ne_of_isIdentifier h (by decide)
  have hname : IsLexed (".".intercalate (segments ++ [last])) (Lexeme.dotted segments last)
      (dottedKinds segments last) := by
    refine ⟨?_, ?_, ?_⟩
    · rw [toList_intercalate_dot, Lexeme.text_dotted]
    · exact Lexeme.valid_dotted (fun s hs => isWord_of_isIdentifier (hsegments s hs))
        (isWord_of_isIdentifier hlast)
    · have hkinds := Lexeme.allKinds_dotted segments last []
      rw [List.append_nil] at hkinds
      rw [hkinds]
      rfl
  refine ⟨⟨_, hname.append hrest, ?_⟩, needNothing_append (needNothing_of_forall ?_) hks⟩
  · rw [← Lexeme.chain_blank, Lexeme.chain_dotted]
    exact hchain
  · intro k hk
    rcases List.mem_append.1 hk with hk | hk
    · obtain ⟨s, hs, hk⟩ := List.mem_flatMap.1 hk
      simp only [List.mem_cons, List.not_mem_nil, or_false] at hk
      rcases hk with rfl | rfl
      · simp [isFree, hdefault (hsegments s hs)]
      · rfl
    · obtain rfl := List.mem_singleton.1 hk
      simp [isFree, hdefault hlast]

/-- The directives of a file are lexed as such. -/
theorem exists_usings
    {usings : List String} (h : ∀ u ∈ usings, IsDotted u) :
    ∃ names : DottedNames, usings = names.map (fun x => ".".intercalate (x.1 ++ [x.2])) ∧
      LinesRead (usings.map fun name => "using " ++ name ++ ";")
        (names.flatMap fun x => usingKinds x.1 x.2) ∧
      ∀ x ∈ names, ∀ s ∈ x.1 ++ [x.2], s ≠ "static" := by
  induction usings with
  | nil => exact ⟨[], rfl, .nil, nofun⟩
  | cons u usings ih =>
    obtain ⟨names, rfl, hlines, hnames⟩ := ih fun v hv => h v (List.mem_cons_of_mem _ hv)
    obtain ⟨segments, last, rfl, hsegments, hlast⟩ := (h u List.mem_cons_self).exists_last
    have hsemicolon : IsLexed ";" [.mark .semicolon] [.punct .semicolon] :=
      ⟨rfl, by simp [Piece.simpleMarks], rfl⟩
    have husing := (FrontRead.word (by decide : isWord "using" = true) (by decide)).line
      (lineRead_dotted hsegments hlast hsemicolon rfl rfl)
    refine ⟨(segments, last) :: names, rfl, ?_, List.forall_mem_cons.2 ⟨fun s hs => ?_, hnames⟩⟩
    · have hline : "using " ++ ".".intercalate (segments ++ [last]) ++ ";" =
          "using" ++ " " ++ (".".intercalate (segments ++ [last]) ++ ";") := by
        simp [← String.toList_inj]
      rw [List.map_cons, hline]
      simpa [usingKinds] using husing.linesRead.append hlines
    · rcases List.mem_append.1 hs with hs | hs
      · exact ne_of_isIdentifier (hsegments s hs) (by decide)
      · exact List.mem_singleton.1 hs ▸ ne_of_isIdentifier hlast (by decide)

/-! ## Files -/

/-- The lines of a file with lines in a namespace. -/
def Layout.fileLines (l : Layout) (modelsNamespace : String) (body : List String) : List String :=
  header ++ l.usings.map (fun name => "using " ++ name ++ ";") ++
    ["", "namespace " ++ modelsNamespace, "\x7b"] ++ body ++ ["\x7d"]

/-- The lines of a file with types in a namespace are those of the directives and the types. -/
theorem exists_fileLines
    {modelsNamespace : String} {body : List String} {forms : List (TypeForm × DeclarationKind)}
    (husings : ∀ u ∈ l.usings, IsDotted u) (hnamespace : IsDotted modelsNamespace)
    (h : LinesRead body (typesKinds forms)) :
    ∃ (names : DottedNames) (segments : List String) (last : String),
      l.usings = names.map (fun x => ".".intercalate (x.1 ++ [x.2])) ∧
      modelsNamespace = ".".intercalate (segments ++ [last]) ∧
      (∀ x ∈ names, ∀ s ∈ x.1 ++ [x.2], s ≠ "static") ∧
      LinesRead (l.fileLines modelsNamespace body) (fileKinds names segments last forms) := by
  obtain ⟨names, husing, hnames, hstatic⟩ := exists_usings husings
  obtain ⟨segments, last, rfl, hsegments, hlast⟩ := hnamespace.exists_last
  have hnothing : IsLexed "" [] [] := ⟨rfl, nofun, rfl⟩
  have hname := (FrontRead.word (by decide : isWord "namespace" = true) (by decide)).line
    (lineRead_dotted hsegments hlast hnothing rfl rfl)
  have hall := ((((linesRead_header.append hnames).append .blank).append hname.linesRead).append
    lineRead_openBrace.linesRead).append (h.append lineRead_closeBrace.linesRead)
  have hline : "namespace" ++ " " ++ (".".intercalate (segments ++ [last]) ++ "") =
      "namespace " ++ ".".intercalate (segments ++ [last]) := by
    simp
  rw [hline] at hall
  refine ⟨names, segments, last, husing, rfl, hstatic, ?_⟩
  unfold Layout.fileLines
  simpa [fileKinds, namespaceKinds] using hall

/-- A file with types in a namespace is lexed as the tokens of the directives and the types. -/
theorem exists_file
    {modelsNamespace : String} {body : List String} {forms : List (TypeForm × DeclarationKind)}
    (husings : ∀ u ∈ l.usings, IsDotted u) (hnamespace : IsDotted modelsNamespace)
    (h : LinesRead body (typesKinds forms)) :
    ∃ (names : DottedNames) (segments : List String) (last : String) (lexed : Lexed),
      l.usings = names.map (fun x => ".".intercalate (x.1 ++ [x.2])) ∧
      modelsNamespace = ".".intercalate (segments ++ [last]) ∧
      (∀ x ∈ names, ∀ s ∈ x.1 ++ [x.2], s ≠ "static") ∧
      CSharp.tokenize (l.file modelsNamespace body) = .ok lexed ∧
      kindsOf lexed.tokens = fileKinds names segments last forms ∧
      needNothing (kindsOf lexed.tokens) = true := by
  obtain ⟨names, segments, last, husing, hnamespace, hstatic, hfile⟩ :=
    exists_fileLines husings hnamespace h
  obtain ⟨lexed, hlexed, hkinds⟩ := hfile.tokenize
  exact ⟨names, segments, last, lexed, husing, hnamespace, hstatic, hlexed, hkinds,
    hkinds ▸ hfile.features⟩

/-- Directives use namespaces, and do nothing else. -/
def UsesOnly (usings : List String) (ds : List UsingDirective) : Prop :=
  ds.map (fun d => (d.kind, ".".intercalate d.target.path)) =
    usings.map (UsingKind.namespaceMembers, ·)

/-- Types are read within the directives in front of them. -/
theorem usesOnly_of_useNamespaces
    {names : DottedNames} {enclosing : String} {scope : List UsingDirective}
    {forms : List (TypeForm × DeclarationKind)} {ts : List TypeDeclaration}
    (hscope : UseNamespaces names scope) (hts : ReadAsTypes ⟨enclosing, [], scope⟩ forms ts) :
    ∀ t ∈ ts, UsesOnly (names.map fun x => ".".intercalate (x.1 ++ [x.2])) t.usings := by
  intro t ht
  obtain ⟨_, -, hdeclares, -⟩ := exists_of_mem_right hts ht
  unfold UsesOnly
  rw [hdeclares.usings]
  clear hts hdeclares
  induction hscope with
  | nil => rfl
  | cons hd _ ih =>
    rw [List.map_cons, List.map_cons, List.map_cons, ih, hd.1, hd.2]

/-- The file of a readable model is read back as its types, and as nothing else. -/
theorem exists_unit
    {modelsNamespace : String} (file : String)
    (h : m.IsReadable l models) (husings : ∀ u ∈ l.usings, IsDotted u)
    (hnamespace : IsDotted modelsNamespace) (hbodies : SupportsBodies l version)
    (hreference : ReferenceRead version (l.shorten (l.settings.referenceType m.type.kind)) reference) :
    ∃ unit, parseUnit file (l.file modelsNamespace (l.types models m)) version = .ok unit ∧
      unit.isGenerated = true ∧ unit.assemblyAttributes = [] ∧
      List.Forall₂ (fun o t => o.Describes modelsNamespace t) (l.outlines reference m)
        unit.types ∧ ∀ t ∈ unit.types, UsesOnly l.usings t.usings := by
  obtain ⟨forms, hlines, hforms⟩ := exists_forms (hasOutline_types h husings hbodies hreference)
  rw [← Layout.types_eq] at hlines
  obtain ⟨names, segments, last, lexed, husing, rfl, hstatic, hlexed, hkinds, hnothing⟩ :=
    exists_file husings hnamespace hlines
  obtain ⟨c, hread, hattributes, scope, hscope, htypes⟩ := reads_fileContents hstatic hforms.valid
    ((lexed.tokens.getLast?.map (·.line)).getD 1) lexed.tokens [] hkinds rfl
  rw [List.append_nil] at hread
  have hparse : parseUnit file
      (l.file (".".intercalate (segments ++ [last])) (l.types models m)) version = .ok {
        file
        isGenerated := Text.occursIn generatedMark.toList lexed.leadingComments
        usings := c.usings
        assemblyAttributes := c.assemblyAttributes
        types := c.types } := by
    rw [parseUnit, parseSource_of_fileContents file hlexed
      (checkTokens_of_needNothing hnothing version) hread]
  exact ⟨_, hparse, isGenerated_file hparse, hattributes, hforms.describes htypes,
    husing ▸ usesOnly_of_useNamespaces hscope htypes⟩

end Generated
end ContentModels

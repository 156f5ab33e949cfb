import ContentModels.Facts
import ContentModels.Proofs.Generated.Files

/-!
# Looking up generated names

A simple name in the base list of a class is looked up as a type nested in the class first
and in the namespace of the class next.  So a name that a generated file declares denotes
this type, unless the class has a nested type of that name.

What is written for a type name decides which type name is read back (`IsSpelled`).
-/

namespace ContentModels

open CSharp CSharp.Parse Generated

/-! ## Type names by their texts -/

/-- There are tokens of any kinds, behind which nothing follows. -/
theorem CSharp.Parse.Reads.exists_read
    {α : Type} {version : LanguageVersion} {p : Parse α} {ks : List TokenKind} {good : α → Prop}
    (h : Reads version p ks endsType good) :
    ∃ a, p ⟨version, 0⟩ (ks.map (⟨·, 0⟩)) = .ok (a, []) ∧ good a := by
  have hks : kindsOf (ks.map (⟨·, 0⟩)) = ks := by
    rw [kindsOf, List.map_map]
    exact List.map_id ks
  obtain ⟨a, ha, hgood⟩ := h 0 _ [] hks (by simp [endsType, isMark])
  rw [List.append_nil] at ha
  exact ⟨a, ha, hgood⟩

namespace Generated

/-- A text is read as the same tokens wherever it stands as a type. -/
theorem Spelled.eq_of_lineRead
    {T : String} {ks js : List TokenKind} (h : Spelled T ks) (h' : LineRead T js) :
    ks = js := by
  obtain ⟨xs, hxs, hchain⟩ := h'.lexemes
  cases xs with
  | nil =>
    have hreads := h.reads
    obtain ⟨_, -, hspells⟩ := h.spells
    rw [hxs.text, List.flatMap_nil, kindsFrom_nil] at hreads
    exact absurd (Option.some.inj hreads).symm hspells.ne_nil
  | cons x xs =>
    have hread := Lexeme.readsBefore_chain hxs.valid hchain true []
    have hread' := (Lexeme.valid_type h).2 '\n' (by simp [Spelled.followers]) true []
    rw [← hxs.text, hxs.kinds, Option.bind_some] at hread
    rw [Option.bind_some, hread, kindsFrom_newline, kindsFrom_nil] at hread'
    simpa using hread'.symm

theorem not_mem_of_isIdentifier
    {s : String} (h : isIdentifier s = true) :
    '.' ∉ s.toList := by
  obtain ⟨c, cs, htext, -, hpart⟩ := Lexeme.head_of_isWord (isWord_of_isIdentifier h)
  rw [htext]
  intro hmem
  have hdot := hpart '.' hmem
  revert hdot
  decide

end Generated

namespace Text

/-- A name is split at the dots between its segments. -/
theorem split_intercalate
    {segments : List String} {last : String} (hsegments : ∀ s ∈ segments, '.' ∉ s.toList)
    (hlast : '.' ∉ last.toList) :
    split '.' (".".intercalate (segments ++ [last])) = segments ++ [last] := by
  unfold split
  rw [toList_intercalate_dot]
  induction segments with
  | nil =>
    have hsplit := splitFrom_append hlast [] []
    rw [List.append_nil] at hsplit
    simp [hsplit, splitFrom]
  | cons s segments ih =>
    obtain ⟨hs, hrest⟩ := List.forall_mem_cons.1 hsegments
    rw [qualifierText_cons, List.append_assoc, List.cons_append, splitFrom_append hs, splitFrom,
      if_pos rfl, List.map_cons, ih hrest]
    simp

/-- A dotted name is split into its segments. -/
theorem split_dotted
    {segments : List String} {last : String} (hsegments : ∀ s ∈ segments, isIdentifier s = true)
    (hlast : isIdentifier last = true) :
    split '.' (".".intercalate (segments ++ [last])) = segments ++ [last] :=
  split_intercalate (fun s hs => not_mem_of_isIdentifier (hsegments s hs))
    (not_mem_of_isIdentifier hlast)

theorem afterLast_intercalate
    {segments : List String} {last : String} (hlast : '.' ∉ last.toList) :
    afterLast '.' (".".intercalate (segments ++ [last])).toList = last.toList := by
  have htake : last.toList.reverse.takeWhile (· != '.') = last.toList.reverse := by
    rw [List.takeWhile_eq_self_iff]
    intro c hc
    have hne : c ≠ '.' := fun heq => hlast (heq ▸ List.mem_reverse.1 hc)
    simpa using hne
  unfold afterLast
  rw [toList_intercalate_dot, List.reverse_append]
  cases hsegments : segments.reverse with
  | nil =>
    obtain rfl := List.reverse_eq_nil_iff.1 hsegments
    simp [htake]
  | cons s rest =>
    obtain rfl : segments = rest.reverse ++ [s] := by
      rw [← List.reverse_reverse segments, hsegments, List.reverse_cons]
    rw [List.takeWhile_append_of_pos fun c hc => List.takeWhile_eq_self_iff.1 htake c hc]
    simp [qualifierText]

/-- The last segment is what stands behind the last dot. -/
theorem lastSegment_intercalate
    {segments : List String} {last : String} (hlast : '.' ∉ last.toList) :
    lastSegment (".".intercalate (segments ++ [last])) = last := by
  unfold lastSegment
  rw [afterLast_intercalate hlast, String.ofList_toList]

theorem lastSegment_dotted
    {segments : List String} {last : String} (hlast : isIdentifier last = true) :
    lastSegment (".".intercalate (segments ++ [last])) = last :=
  lastSegment_intercalate (not_mem_of_isIdentifier hlast)

end Text

namespace Generated

/-- A dotted name as the name of a type. -/
def dottedType (T : String) : TypeName :=
  ⟨T, Text.split '.' T, 0, false⟩

theorem isDotted_of_isIdentifier
    {w : String} (h : isIdentifier w = true) :
    IsDotted w :=
  ⟨[w], by simp, by simpa using h, rfl⟩

theorem split_of_isIdentifier
    {w : String} (h : isIdentifier w = true) :
    Text.split '.' w = [w] :=
  @Text.split_dotted [] w nofun h

/-- A name is dotted if its segments are identifiers. -/
theorem isDotted_iff
    {name : String} :
    IsDotted name ↔ Text.split '.' name ≠ [] ∧ (∀ s ∈ Text.split '.' name, isIdentifier s = true) ∧
      name = ".".intercalate (Text.split '.' name) := by
  constructor
  · intro h
    obtain ⟨segments, last, rfl, hsegments, hlast⟩ := h.exists_last
    rw [Text.split_dotted hsegments hlast]
    refine ⟨by simp, fun s hs => ?_, rfl⟩
    exact (List.mem_append.1 hs).elim (hsegments s) fun hs => List.mem_singleton.1 hs ▸ hlast
  · rintro ⟨hne, hsegments, hname⟩
    exact ⟨_, hne, hsegments, hname⟩

instance (name : String) : Decidable (IsDotted name) :=
  decidable_of_iff _ isDotted_iff.symm

/-- A dotted name is read back as such. -/
theorem IsSpelled.eq_dottedType
    {name : TypeName} (h : IsSpelled name) (hdotted : IsDotted name.text) :
    name = dottedType name.text := by
  obtain ⟨segments, last, htext, hsegments, hlast⟩ := hdotted.exists_last
  obtain ⟨ks, hspelled, hspells⟩ := h
  have hnothing : IsLexed "" [] [] := ⟨rfl, nofun, rfl⟩
  have hline := lineRead_dotted hsegments hlast hnothing rfl rfl
  rw [String.append_empty, List.append_nil, ← htext] at hline
  obtain rfl := hspelled.eq_of_lineRead hline
  obtain ⟨a, ha, rfl⟩ := (hspells.reads default).exists_read
  obtain ⟨b, hb, hpath⟩ :=
    (reads_dotted segments last : Reads default typeName _ _ _).exists_read
  obtain rfl : a = b := by
    cases ha.symm.trans hb
    rfl
  obtain ⟨text, path, arity, fromGlobal⟩ := a
  obtain ⟨rfl, rfl, rfl⟩ := hpath
  dsimp only at htext
  subst htext
  rw [dottedType, Text.split_dotted hsegments hlast]

/-- A dotted name is written as it is, or without a namespace that is used. -/
theorem Layout.shorten_dotted
    {l : Layout} {T : String} (hT : IsDotted T) :
    l.shorten T = T ∨
      ∃ u ∈ l.usings, l.shorten T = Text.lastSegment T ∧ T = u ++ "." ++ Text.lastSegment T := by
  obtain ⟨segments, last, rfl, -, hlast⟩ := hT.exists_last
  rw [Text.lastSegment_dotted hlast]
  unfold shorten
  dsimp only
  rw [Text.afterLast_intercalate (not_mem_of_isIdentifier hlast), String.ofList_toList]
  split
  · exact .inl rfl
  split
  · rename_i hused
    rw [Bool.and_eq_true, List.contains_iff_mem, List.contains_iff_mem] at hused
    obtain ⟨hdot, hused⟩ := hused
    refine .inr ⟨_, hused, rfl, ?_⟩
    rw [← String.toList_inj]
    cases hsegments : segments.reverse with
    | nil =>
      -- There is no dot in a single segment.
      obtain rfl := List.reverse_eq_nil_iff.1 hsegments
      exact absurd hdot (by simpa using not_mem_of_isIdentifier hlast)
    | cons s rest =>
      obtain rfl : segments = rest.reverse ++ [s] := by
        rw [← List.reverse_reverse segments, hsegments, List.reverse_cons]
      have htext : (".".intercalate (rest.reverse ++ [s] ++ [last])).toList =
          (qualifierText rest.reverse ++ s.toList) ++ '.' :: last.toList := by
        rw [toList_intercalate_dot]
        simp [qualifierText]
      rw [htext, List.take_left' (by simp; omega)]
      simp
  · exact .inl rfl

theorem Layout.isDotted_shorten
    {l : Layout} {T : String} (hT : IsDotted T) :
    IsDotted (l.shorten T) := by
  rcases l.shorten_dotted hT with hfull | ⟨_, -, hsimple, -⟩
  · rw [hfull]
    exact hT
  · rw [hsimple]
    obtain ⟨segments, last, rfl, -, hlast⟩ := hT.exists_last
    rw [Text.lastSegment_dotted hlast]
    exact isDotted_of_isIdentifier hlast

/-- The last segment of a dotted name that is written without its namespace, or with it. -/
theorem IsSpelled.simpleName_eq
    {name : TypeName} {l : Layout} {T : String} (h : IsSpelled name) (htext : name.text = l.shorten T)
    (hT : IsDotted T) :
    name.simpleName = Text.lastSegment T := by
  obtain ⟨segments, last, rfl, hsegments, hlast⟩ := hT.exists_last
  have hpath : ∃ qualifier, name.path = qualifier ++ [last] := by
    rcases l.shorten_dotted hT with hfull | ⟨_, -, hsimple, -⟩
    · rw [h.eq_dottedType (htext.trans hfull ▸ hT), htext, hfull]
      exact ⟨segments, Text.split_dotted hsegments hlast⟩
    · rw [Text.lastSegment_dotted hlast] at hsimple
      rw [h.eq_dottedType (htext.trans hsimple ▸ isDotted_of_isIdentifier hlast), htext, hsimple]
      exact ⟨[], split_of_isIdentifier hlast⟩
  obtain ⟨qualifier, hpath⟩ := hpath
  rw [Text.lastSegment_dotted hlast]
  simp [TypeName.simpleName, hpath]

end Generated

/-! ## Candidates -/

theorem Generated.IsDotted.ne_empty
    {name : String} (h : IsDotted name) :
    name ≠ "" := by
  obtain ⟨segments, last, rfl, -, hlast⟩ := h.exists_last
  obtain ⟨c, cs, htext, -⟩ := Lexeme.head_of_isWord (isWord_of_isIdentifier hlast)
  intro hempty
  have hlist := congrArg String.toList hempty
  rw [toList_intercalate_dot, htext] at hlist
  simp at hlist

namespace CSharp

/-- The segments of a namespace are those of its name. -/
theorem Scope.intercalate_segments
    {d : TypeDeclaration} (h : IsDotted d.enclosing) (w : String) :
    ".".intercalate ((Scope.ofType d).segments ++ [w]) = ".".intercalate [d.enclosing, w] := by
  obtain ⟨segments, last, henclosing, hsegments, hlast⟩ := h.exists_last
  have hall : ∀ s ∈ segments ++ [last], s ≠ "" := by
    intro s hs heq
    have hs : isIdentifier s = true := by
      rcases List.mem_append.1 hs with hs | hs
      · exact hsegments s hs
      · exact List.mem_singleton.1 hs ▸ hlast
    subst heq
    revert hs
    decide
  have hfilter : (Scope.ofType d).segments = segments ++ [last] := by
    unfold Scope.segments Scope.ofType
    rw [henclosing, Text.split_dotted hsegments hlast, List.filter_eq_self]
    simpa using hall
  have hpair : [".".intercalate (segments ++ [last]), w] =
      [".".intercalate (segments ++ [last])] ++ [w] := rfl
  rw [hfilter, henclosing, ← String.toList_inj, hpair, toList_intercalate_dot,
    toList_intercalate_dot, qualifierText_cons, toList_intercalate_dot]
  simp [qualifierText]

/-- A simple name in a class is that of a nested type, or else that of a type next to the class. -/
theorem Scope.exists_candidates
    {d : TypeDeclaration} (henclosing : IsDotted d.enclosing) (hcontaining : d.containing = [])
    (w : String) :
    ∃ rest, (Scope.ofType d).candidates (wordType w) =
      (".".intercalate [d.enclosing, d.name, w], 0) :: (".".intercalate [d.enclosing, w], 0) ::
        rest := by
  have hnested : (Scope.ofType d).nestedNames w = [".".intercalate [d.enclosing, d.name, w]] := by
    have htypes : (Scope.ofType d).types = [d.name] := by
      simp [ofType, TypeDeclaration.path, hcontaining]
    have h : (Scope.ofType d).enclosing = d.enclosing := rfl
    unfold nestedNames
    rw [htypes, h, if_neg henclosing.ne_empty]
    simp [beginnings, List.range_succ]
  obtain ⟨names, hnames⟩ : ∃ names, (Scope.ofType d).namespaceNames w =
      ".".intercalate [d.enclosing, w] :: names := by
    unfold namespaceNames beginnings
    rw [List.range_succ, List.reverse_append, List.reverse_singleton, List.singleton_append,
      List.map_cons, List.map_cons, List.take_length, intercalate_segments henclosing]
    exact ⟨_, rfl⟩
  have hjoin : ".".intercalate [w] = w := rfl
  unfold candidates wordType
  dsimp only
  rw [hjoin, hnested, hnames]
  simp only [Bool.false_eq_true, if_false]
  split
  · exact ⟨_, rfl⟩
  · exact ⟨_, rfl⟩

/-- The directives by which generated files use namespaces. -/
def usingDirectives (usings : List String) : List UsingDirective :=
  usings.map fun u => ⟨.namespaceMembers, dottedType u⟩

theorem usesOnly_usingDirectives
    {usings : List String} (h : ∀ u ∈ usings, IsDotted u) :
    UsesOnly usings (usingDirectives usings) := by
  unfold UsesOnly usingDirectives
  rw [List.map_map, List.map_inj_left]
  intro u hu
  obtain ⟨segments, last, rfl, hsegments, hlast⟩ := (h u hu).exists_last
  simp [dottedType, Text.split_dotted hsegments hlast]

namespace Scope

variable {s : Scope} {usings : List String}

theorem kind_of_usesOnly
    (h : UsesOnly usings s.usings) :
    ∀ d ∈ s.usings, d.kind = .namespaceMembers := by
  intro d hd
  have hmem := List.mem_map_of_mem (f := fun d : UsingDirective =>
    (d.kind, ".".intercalate d.target.path)) hd
  rw [show s.usings.map _ = _ from h] at hmem
  obtain ⟨_, -, heq⟩ := List.mem_map.1 hmem
  exact (congrArg Prod.fst heq).symm

theorem aliasTarget?_of_usesOnly
    (h : UsesOnly usings s.usings) (name : String) :
    s.aliasTarget? name = none := by
  unfold aliasTarget?
  rw [Option.map_eq_none_iff, List.find?_eq_none]
  intro d hd
  simp [kind_of_usesOnly h d (List.mem_reverse.1 hd)]

theorem importedNames_of_usesOnly
    (h : UsesOnly usings s.usings) (w : String) :
    s.importedNames w = usings.map (· ++ "." ++ w) := by
  have hall : s.usings.filter (fun d => d.kind == .namespaceMembers) = s.usings := by
    rw [List.filter_eq_self]
    intro d hd
    rw [kind_of_usesOnly h d hd]
    rfl
  have hmap := congrArg (List.map fun x : UsingKind × String => x.2 ++ "." ++ w) h
  rw [List.map_map, List.map_map] at hmap
  unfold importedNames
  rw [hall]
  exact hmap

/-- What a name may denote within directives depends only on the namespaces that they use. -/
theorem candidates_of_usesOnly
    (h : UsesOnly usings s.usings) (husings : ∀ u ∈ usings, IsDotted u) (name : TypeName) :
    s.candidates name = (Scope.mk s.enclosing s.types (usingDirectives usings)).candidates name := by
  have h' : UsesOnly usings (Scope.mk s.enclosing s.types (usingDirectives usings)).usings :=
    usesOnly_usingDirectives husings
  unfold candidates
  simp only [aliasTarget?_of_usesOnly h, aliasTarget?_of_usesOnly h', importedNames_of_usesOnly h,
    importedNames_of_usesOnly h']
  rfl

theorem mem_namespaceNames
    (s : Scope) (w : String) :
    w ∈ s.namespaceNames w :=
  List.mem_map.2 ⟨[], List.mem_map.2 ⟨0, by simp, rfl⟩, rfl⟩

theorem mem_candidates_of_namespaceNames
    {name : TypeName} {fullName : String} (hpath : name.path ≠ []) (hglobal : name.fromGlobal = false)
    (h : fullName ∈ s.namespaceNames (".".intercalate name.path)) :
    (fullName, name.arity) ∈ s.candidates name := by
  have hdirect : (fullName, name.arity) ∈ (s.nestedNames (".".intercalate name.path) ++
      s.namespaceNames (".".intercalate name.path)).map (·, name.arity) :=
    List.mem_map_of_mem (List.mem_append_right _ h)
  obtain ⟨text, _ | ⟨first, others⟩, arity, fromGlobal⟩ := name
  · exact absurd rfl hpath
  obtain rfl : fromGlobal = false := hglobal
  unfold candidates
  dsimp only
  rw [if_neg Bool.false_ne_true]
  split
  · exact List.mem_append_left _ hdirect
  · split
    · exact List.mem_append_left _ hdirect
    · exact hdirect

/-- A type is among what is denoted by its name without a namespace that is used. -/
theorem mem_candidates_shorten
    {l : Layout} {T : String} (h : UsesOnly l.usings s.usings) (hT : IsDotted T) :
    (T, 0) ∈ s.candidates (dottedType (l.shorten T)) := by
  obtain ⟨segments, last, rfl, hsegments, hlast⟩ := hT.exists_last
  rcases l.shorten_dotted hT with hfull | ⟨u, hu, hsimple, hT'⟩
  · rw [hfull]
    have hpath := Text.split_dotted hsegments hlast
    refine @mem_candidates_of_namespaceNames s (dottedType _) _ ?_ rfl ?_
    · simp [dottedType, hpath]
    · unfold dottedType
      rw [hpath]
      exact s.mem_namespaceNames _
  · rw [Text.lastSegment_dotted hlast] at hsimple hT'
    have himported : (".".intercalate (segments ++ [last]), 0) ∈
        (s.importedNames last).map (·, 0) := by
      rw [importedNames_of_usesOnly h, hT']
      exact List.mem_map_of_mem (List.mem_map_of_mem hu)
    rw [hsimple]
    unfold candidates dottedType
    rw [split_of_isIdentifier hlast]
    dsimp only
    rw [aliasTarget?_of_usesOnly h]
    exact List.mem_append_right _ himported

end Scope

end CSharp

/-! ## Symbols of declared types -/

namespace CSharp.Compilation

variable {c : Compilation} {fullName w : String} {kind : DeclarationKind} {d : TypeDeclaration}
  {s : Symbol}

/-- The types that the files of a compilation declare. -/
def declaredTypes (c : Compilation) : List TypeDeclaration :=
  c.units.flatMap (·.types)

/-- Declared types come before those of references. -/
theorem symbols_of_compile
    {r : FactReader} {sources : SourceFiles} (h : r.compile sources = .ok c) :
    c.symbols = c.declaredTypes.map .ofDeclaration ++
      (r.references.flatMap Symbol.ofAssembly).reverse := by
  obtain ⟨units, -, h⟩ := Outcome.bind_eq_ok.1 h
  obtain ⟨_, -, h⟩ := Outcome.bind_eq_ok.1 h
  cases h
  unfold declaredTypes declarations
  rw [List.map_flatMap, List.map_flatMap]
  simp only [List.map_map]
  rfl

theorem fullName_of_symbol?
    {arity : Nat} (h : c.symbol? fullName arity = some s) :
    s.fullName = fullName := by
  have hsome := List.find?_some h
  rw [Bool.and_eq_true, beq_iff_eq, beq_iff_eq] at hsome
  exact hsome.2

/-- A name that denotes nothing still denotes nothing if no new type has it. -/
theorem symbol?_eq_none_of_compile
    {r : FactReader} {sources more : SourceFiles} {after : Compilation}
    (h : r.compile sources = .ok c) (hafter : r.compile more = .ok after)
    (hdeclared : ∀ d ∈ after.declaredTypes, d ∈ c.declaredTypes ∨ d.fullName ≠ fullName)
    {arity : Nat} (hnone : c.symbol? fullName arity = none) :
    after.symbol? fullName arity = none := by
  unfold symbol? at hnone ⊢
  rw [symbols_of_compile h, List.find?_append, Option.or_eq_none_iff] at hnone
  rw [symbols_of_compile hafter, List.find?_append, Option.or_eq_none_iff]
  refine ⟨List.find?_eq_none.2 fun s hs => ?_, hnone.2⟩
  obtain ⟨d, hd, rfl⟩ := List.mem_map.1 hs
  rcases hdeclared d hd with hd | hne
  · exact List.find?_eq_none.1 hnone.1 _ (List.mem_map_of_mem hd)
  · simp [Symbol.ofDeclaration, hne]

/-- A name that no file declares denotes the same with any files. -/
theorem symbol?_eq_of_compile
    {r : FactReader} {sources more : SourceFiles} {after : Compilation}
    (h : r.compile sources = .ok c) (hafter : r.compile more = .ok after)
    (hc : ∀ d ∈ c.declaredTypes, d.fullName ≠ fullName)
    (hdeclared : ∀ d ∈ after.declaredTypes, d.fullName ≠ fullName) (arity : Nat) :
    after.symbol? fullName arity = c.symbol? fullName arity := by
  have hnone : ∀ ds : List TypeDeclaration, (∀ d ∈ ds, d.fullName ≠ fullName) →
      (ds.map Symbol.ofDeclaration).find? (fun s => s.arity == arity && s.fullName == fullName) =
        none := by
    intro ds hds
    rw [List.find?_eq_none]
    intro s hs
    obtain ⟨d, hd, rfl⟩ := List.mem_map.1 hs
    simp [Symbol.ofDeclaration, hds d hd]
  unfold symbol?
  rw [symbols_of_compile h, symbols_of_compile hafter, List.find?_append, List.find?_append,
    hnone _ hc, hnone _ hdeclared]

/-- A declared type has a symbol, of the kind that all its parts have. -/
theorem exists_symbol
    {r : FactReader} {sources : SourceFiles} (h : r.compile sources = .ok c)
    (hd : ∃ d ∈ c.declaredTypes, d.fullName = fullName ∧ d.arity = 0)
    (hkind : ∀ d ∈ c.declaredTypes, d.fullName = fullName → d.arity = 0 → d.kind = kind) :
    ∃ s, c.symbol? fullName 0 = some s ∧ s.kind = .ofDeclaration kind := by
  obtain ⟨d, hd, hname, harity⟩ := hd
  obtain ⟨s, hs⟩ : ∃ s, (c.declaredTypes.map Symbol.ofDeclaration).find?
      (fun s => s.arity == 0 && s.fullName == fullName) = some s := by
    rw [← Option.isSome_iff_exists, List.find?_isSome]
    exact ⟨_, List.mem_map_of_mem hd, by simp [Symbol.ofDeclaration, hname, harity]⟩
  refine ⟨s, ?_, ?_⟩
  · unfold symbol?
    rw [symbols_of_compile h, List.find?_append, hs, Option.some_or]
  · obtain ⟨e, he, rfl⟩ := List.mem_map.1 (List.mem_of_find?_eq_some hs)
    have hsome := List.find?_some hs
    simp only [Symbol.ofDeclaration, Bool.and_eq_true, beq_iff_eq] at hsome
    exact congrArg SymbolKind.ofDeclaration (hkind e he hsome.2 hsome.1)

/-- A name denotes a type if nothing else has any of the full names that it may stand for. -/
theorem resolve_of_unhidden
    {scope : Scope} {name : TypeName} (hmem : (fullName, 0) ∈ scope.candidates name)
    (hhidden : ∀ x ∈ scope.candidates name, x = (fullName, 0) ∨ c.symbol? x.1 x.2 = none)
    (hs : c.symbol? fullName 0 = some s) :
    c.resolve name scope = some s := by
  unfold resolve
  cases hfind : (scope.candidates name).findSome? fun x => c.symbol? x.1 x.2 with
  | none =>
    rw [List.findSome?_eq_none_iff] at hfind
    cases (hfind _ hmem).symm.trans hs
  | some s' =>
    obtain ⟨x, hx, hs'⟩ := List.exists_of_findSome?_eq_some hfind
    rcases hhidden x hx with rfl | hnone
    · exact hs'.symm.trans hs
    · cases hnone.symm.trans hs'

/-- A simple name that no nested type of a class has denotes the type next to the class. -/
theorem resolve_wordType
    (henclosing : IsDotted d.enclosing) (hcontaining : d.containing = [])
    (hnested : c.symbol? (".".intercalate [d.enclosing, d.name, w]) 0 = none)
    (hs : c.symbol? (".".intercalate [d.enclosing, w]) 0 = some s) :
    c.resolve (wordType w) (.ofType d) = some s := by
  obtain ⟨rest, hcandidates⟩ := Scope.exists_candidates henclosing hcontaining w
  unfold resolve
  rw [hcandidates, List.findSome?_cons, hnested, List.findSome?_cons, hs]

end CSharp.Compilation

end ContentModels

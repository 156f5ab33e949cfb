import ContentModels.Proofs.Compilation
import ContentModels.Proofs.Lookup
import ContentModels.Proofs.Parsing.Directives
import ContentModels.Proofs.Parsing.Names

/-!
# Types declared twice

A compilation tells types apart by their full names and numbers of type parameters, and the
types of a file stand in one list.  Which type a declaration is of, its namespace, the types
around it with their numbers of type parameters, its name and its own number, can be read off
that list, since a type stands in front of the types in it (`identities`).
-/

namespace ContentModels
namespace CSharp

/-! ## Which type a declaration is of -/

/-- What tells a type apart from every other. -/
structure TypeIdentity where
  enclosing : String
  /-- The types around it, outermost first, by their names and numbers of type parameters. -/
  containers : List (String × Nat)
  name : String
  arity : Nat
deriving DecidableEq, Repr

attribute [ext] TypeIdentity

/--
The types that declarations in their order are of.  The opened types are the one declared last
and those around it; the first of them are those around the next.
-/
def identitiesFrom (opened : List (String × Nat)) : List TypeDeclaration → List TypeIdentity
  | [] => []
  | t :: ts =>
    let containers := opened.take t.containing.length
    ⟨t.enclosing, containers, t.name, t.arity⟩ ::
      identitiesFrom (containers ++ [(t.name, t.arity)]) ts

/-- The types that the declarations of a file are of. -/
def identities (types : List TypeDeclaration) : List TypeIdentity :=
  identitiesFrom [] types

/--
Declarations in a namespace and in some types around them, with the types they are of: each of
them stands in front of those in it, which name it as the innermost type around them.
-/
inductive Nested (enclosing : String) :
    List (String × Nat) → List TypeDeclaration → List TypeIdentity → Prop
  | nil {containers : List (String × Nat)} : Nested enclosing containers [] []
  | cons {containers : List (String × Nat)} {t : TypeDeclaration}
      {inner rest : List TypeDeclaration} {is js : List TypeIdentity}
      (henclosing : t.enclosing = enclosing) (hcontaining : t.containing = containers.map Prod.fst)
      (hname : IsSegment t.name)
      (hinner : Nested enclosing (containers ++ [(t.name, t.arity)]) inner is)
      (hrest : Nested enclosing containers rest js) :
      Nested enclosing containers (t :: (inner ++ rest))
        (⟨enclosing, containers, t.name, t.arity⟩ :: (is ++ js))

/-- A declaration whose names are single words, and the type it is of. -/
structure IsNamed (t : TypeDeclaration) (i : TypeIdentity) : Prop where
  isSegment : ∀ w ∈ t.path, IsSegment w
  enclosing : i.enclosing = t.enclosing
  containers : i.containers.map Prod.fst = t.containing
  name : i.name = t.name
  arity : i.arity = t.arity

namespace Nested

variable {enclosing : String} {containers : List (String × Nat)}
variable {ts us : List TypeDeclaration} {is js : List TypeIdentity}

theorem append
    (h : Nested enclosing containers ts is) (h' : Nested enclosing containers us js) :
    Nested enclosing containers (ts ++ us) (is ++ js) := by
  induction h with
  | nil => exact h'
  | cons henclosing hcontaining hname hinner _ _ ih =>
    rw [List.cons_append, List.append_assoc, List.cons_append, List.append_assoc]
    exact .cons henclosing hcontaining hname hinner (ih h')

/-- The types around declarations are the first ones that are open, whatever was declared before. -/
theorem identitiesFrom_append
    (h : Nested enclosing containers ts is) {opened : List (String × Nat)}
    (hopened : containers <+: opened) (more : List TypeDeclaration) :
    ∃ left, containers <+: left ∧
      identitiesFrom opened (ts ++ more) = is ++ identitiesFrom left more := by
  induction h generalizing opened more with
  | nil => exact ⟨opened, hopened, rfl⟩
  | @cons containers t inner rest is js henclosing hcontaining _ _ _ ihinner ihrest =>
    have htake : opened.take t.containing.length = containers := by
      rw [hcontaining, List.length_map]
      exact (List.prefix_iff_eq_take.1 hopened).symm
    obtain ⟨left, hleft, hread⟩ := ihinner (List.prefix_refl _) (rest ++ more)
    obtain ⟨left', hleft', hread'⟩ := ihrest ((List.prefix_append _ _).trans hleft) more
    refine ⟨left', hleft', ?_⟩
    rw [List.cons_append, List.append_assoc, identitiesFrom, htake, hread, hread', henclosing,
      List.cons_append, List.append_assoc]

/-- The types around all declarations are the outermost ones around each. -/
theorem prefix_containing
    (h : Nested enclosing containers ts is) {t : TypeDeclaration} (ht : t ∈ ts) :
    containers.map Prod.fst <+: t.containing := by
  induction h with
  | nil => cases ht
  | cons _ hcontaining _ _ _ ihinner ihrest =>
    rcases List.mem_cons.1 ht with rfl | ht
    · exact hcontaining ▸ List.prefix_refl _
    · rcases List.mem_append.1 ht with ht | ht
      · exact List.IsPrefix.trans (by simp) (ihinner ht)
      · exact ihrest ht

theorem enclosing_eq
    (h : Nested enclosing containers ts is) {t : TypeDeclaration} (ht : t ∈ ts) :
    t.enclosing = enclosing := by
  induction h with
  | nil => cases ht
  | cons henclosing _ _ _ _ ihinner ihrest =>
    rcases List.mem_cons.1 ht with rfl | ht
    · exact henclosing
    · exact (List.mem_append.1 ht).elim ihinner ihrest

/-- A declaration and the type it is of have one name. -/
theorem isNamed
    (h : Nested enclosing containers ts is) (hcontainers : ∀ x ∈ containers, IsSegment x.1) :
    List.Forall₂ IsNamed ts is := by
  induction h with
  | nil => exact .nil
  | @cons containers t inner rest is js henclosing hcontaining hname _ _ ihinner ihrest =>
    have hmore : ∀ x ∈ containers ++ [(t.name, t.arity)], IsSegment x.1 := by
      intro x hx
      rcases List.mem_append.1 hx with hx | hx
      · exact hcontainers x hx
      · exact List.mem_singleton.1 hx ▸ hname
    have hpath : t.path = (containers ++ [(t.name, t.arity)]).map Prod.fst := by
      simp [TypeDeclaration.path, hcontaining]
    refine .cons ⟨?_, henclosing.symm, hcontaining.symm, rfl, rfl⟩
      (List.rel_append (ihinner hmore) (ihrest hcontainers))
    intro w hw
    rw [hpath] at hw
    obtain ⟨x, hx, rfl⟩ := List.mem_map.1 hw
    exact hmore x hx

/-- Every type around a declaration, up to those around all, is declared too. -/
theorem exists_container
    (h : Nested enclosing containers ts is) {t : TypeDeclaration} (ht : t ∈ ts)
    {path : List String} (hpath : path <+: t.containing)
    (hlonger : containers.length < path.length) :
    ∃ c ∈ ts, c.enclosing = enclosing ∧ c.path = path := by
  induction h with
  | nil => cases ht
  | @cons containers u inner rest is js henclosing hcontaining _ hinner _ ihinner ihrest =>
    rcases List.mem_cons.1 ht with rfl | ht
    · have hlen := hpath.length_le
      rw [hcontaining, List.length_map] at hlen
      omega
    rcases List.mem_append.1 ht with ht | ht
    · have hfirst : u.path <+: t.containing := by
        have hprefix := hinner.prefix_containing ht
        simpa [TypeDeclaration.path, hcontaining] using hprefix
      by_cases hlen : path.length = containers.length + 1
      · have hlen' : u.path.length = path.length := by
          simp [TypeDeclaration.path, hcontaining, hlen]
        exact ⟨u, List.mem_cons_self, henclosing, List.prefix_of_prefix_length_le hfirst hpath
          hlen'.le |>.eq_of_length hlen'⟩
      · obtain ⟨c, hc, hnames⟩ := ihinner ht (by simp; omega)
        exact ⟨c, List.mem_cons_of_mem _ (List.mem_append_left _ hc), hnames⟩
    · obtain ⟨c, hc, hnames⟩ := ihrest ht hlonger
      exact ⟨c, List.mem_cons_of_mem _ (List.mem_append_right _ hc), hnames⟩

end Nested

/--
The declarations of a file, with the types they are of: one namespace after another, each of
some segments.
-/
inductive Placed : List TypeDeclaration → List TypeIdentity → Prop
  | nil : Placed [] []
  | append {segments : List String} {ts us : List TypeDeclaration} {is js : List TypeIdentity}
      (hsegments : ∀ w ∈ segments, IsSegment w) (h : Nested (".".intercalate segments) [] ts is)
      (hrest : Placed us js) : Placed (ts ++ us) (is ++ js)

theorem Placed.append_placed
    {ts us : List TypeDeclaration} {is js : List TypeIdentity} (h : Placed ts is)
    (h' : Placed us js) :
    Placed (ts ++ us) (is ++ js) := by
  induction h with
  | nil => exact h'
  | append hsegments h _ ih =>
    rw [List.append_assoc, List.append_assoc]
    exact .append hsegments h ih

/-! ## The declarations of a file -/

namespace Parse

/-- A type that is read where some names are around it. -/
def StandsIn (around : Surroundings) (t : TypeDeclaration) : Prop :=
  t.enclosing = around.enclosing ∧ t.containing = around.containing ∧ IsSegment t.name

/-- Types that are read where some types are around them. -/
def AreNested (around : Surroundings) (containers : List (String × Nat))
    (types : List TypeDeclaration) : Prop :=
  ∃ is, Nested around.enclosing containers types is

section

variable {kind : DeclarationKind} {attributes : List AttributeUse} {modifiers : List String}
variable {around : Surroundings} {containers : List (String × Nat)}

theorem answers_delegateDeclaration :
    Answers (delegateDeclaration attributes modifiers around) (StandsIn around) := by
  unfold delegateDeclaration
  refine .behind fun _ => .behind fun line => answers_ident.bind fun name hname => ?_
  exact .behind fun arity => .behind fun _ => .behind fun _ => .pure ⟨rfl, rfl, hname⟩

theorem answers_typeHead :
    Answers (typeHead kind attributes modifiers around) (StandsIn around) := by
  unfold typeHead
  refine .behind fun line => answers_ident.bind fun name hname => .behind fun arity => ?_
  have hbehind : Answers (do
      let bases ← baseList kind
      skipConstraints [.openBrace, .semicolon] (.expected .openBrace)
      return {
        kind, name, arity, attributes, modifiers, line
        enclosing := around.enclosing, containing := around.containing, usings := around.usings
        baseList := bases, members := [] }) (StandsIn around) :=
    .behind fun bases => .behind fun _ => .pure ⟨rfl, rfl, hname⟩
  dsimp only
  exact .ite (.behind fun parameters => .ite (.behind fun _ => hbehind) hbehind) hbehind

theorem StandsIn.areNested
    {t : TypeDeclaration} {inner : List TypeDeclaration} (h : StandsIn around t)
    (hcontaining : around.containing = containers.map Prod.fst)
    (hinner : AreNested around (containers ++ [(t.name, t.arity)]) inner) :
    AreNested around containers (t :: inner) := by
  obtain ⟨henclosing, hcontaining', hname⟩ := h
  obtain ⟨is, his⟩ := hinner
  have hcons := Nested.cons henclosing (hcontaining'.trans hcontaining) hname his .nil
  rw [List.append_nil] at hcons
  exact ⟨_, hcons⟩

/-- What stands in a type is nested in it. -/
theorem answers_types
    (depth : Nat) :
    (∀ {kind attributes modifiers around} containers,
      around.containing = containers.map Prod.fst →
      Answers (typeDeclarationAt depth kind attributes modifiers around)
        (AreNested around containers)) ∧
    ∀ {name around} containers, around.containing = containers.map Prod.fst →
      Answers (typeBodyAt depth name around) fun x => AreNested around containers x.2 := by
  induction depth with
  | zero =>
    constructor
    · intro kind attributes modifiers around containers _
      unfold typeDeclarationAt
      exact .fail _
    · intro name around containers _
      unfold typeBodyAt
      exact .fail _
  | succ depth ih =>
    obtain ⟨htypes, hbody⟩ := ih
    constructor
    · intro kind attributes modifiers around containers hcontaining
      have hsingle : ∀ t, StandsIn around t → AreNested around containers [t] :=
        fun t ht => ht.areNested hcontaining ⟨[], .nil⟩
      unfold typeDeclarationAt
      dsimp only
      refine .behind fun _ => .ite ?_ ?_
      · exact answers_delegateDeclaration.bind fun t ht => .pure (hsingle t ht)
      · refine answers_typeHead.bind fun head hhead => ?_
        have hbehind : Answers (do
            let read ←
              typeBodyAt depth head.name { around with containing := around.containing ++ [head.name] }
            let _ ← accept .semicolon
            return { head with members := read.1 } :: read.2) (AreNested around containers) := by
          refine .bind (hbody (containers ++ [(head.name, head.arity)]) ?_) ?_
          · simp [hcontaining]
          · exact fun x hx => .behind fun _ => .pure (StandsIn.areNested hhead hcontaining hx)
        refine .ite ?_ (.ite ?_ hbehind)
        · have hrest : Answers (do
              skipGroup
              let _ ← accept .semicolon
              return [head]) (AreNested around containers) :=
            .behind fun _ => .behind fun _ => .pure (hsingle head hhead)
          exact .behind fun opened => .ite (.fail_bind _ _) hrest
        · exact .behind fun empty => .ite (.pure (hsingle head hhead)) hbehind
    · intro name around containers hcontaining
      rw [typeBodyAt_succ]
      refine .behind fun _ => .loop (fun s => AreNested around containers s.2) ⟨[], .nil⟩ ?_
      intro s hs
      unfold bodyRound
      dsimp only
      refine .behind fun next => .ite (.fail_bind _ _) (.behind fun closed => .ite (.pure hs) ?_)
      refine .behind fun empty => .ite (.pure hs) (.behind fun attributes => .behind fun words => ?_)
      refine .behind fun kind => ?_
      split
      · refine (htypes containers hcontaining).bind fun types htypes => .pure ?_
        obtain ⟨is, his⟩ := hs
        obtain ⟨js, hjs⟩ := htypes
        exact ⟨_, his.append hjs⟩
      · exact .behind fun more => .pure hs

theorem answers_typeDeclaration
    (around : Surroundings) :
    Answers (typeDeclaration kind attributes modifiers ⟨around.enclosing, [], around.usings⟩)
      (AreNested around []) :=
  .nested fun depth => (answers_types depth).1 [] rfl

end

/-- A namespace of some segments. -/
def IsNamespace (name : String) : Prop :=
  ∃ segments : List String, (∀ w ∈ segments, IsSegment w) ∧ name = ".".intercalate segments

theorem IsNamespace.join
    {outer : String} {path : List String} (h : IsNamespace outer) (hpath : HasSegments path) :
    IsNamespace (joinNames outer (".".intercalate path)) := by
  obtain ⟨segments, hsegments, rfl⟩ := h
  refine ⟨segments ++ path, ?_, SourceTree.joinNames_intercalate (fun w hw => (hsegments w hw).1) hpath.1⟩
  intro w hw
  rcases List.mem_append.1 hw with hw | hw
  · exact hsegments w hw
  · exact hpath.2 w hw

/-- Contents whose types are placed. -/
def Contents.IsPlaced (c : Contents) : Prop :=
  ∃ is, Placed c.types is

theorem Contents.IsPlaced.append
    {c d : Contents} (hc : c.IsPlaced) (hd : d.IsPlaced) :
    (c ++ d).IsPlaced := by
  obtain ⟨is, his⟩ := hc
  obtain ⟨js, hjs⟩ := hd
  exact ⟨_, his.append_placed hjs⟩

/-- A place among namespaces with the types read so far. -/
structure NamespaceState.IsPlaced (s : NamespaceState) : Prop where
  isNamespace : IsNamespace s.name
  contents : s.contents.IsPlaced

namespace NamespaceState.IsPlaced

variable {s : NamespaceState}

theorem add
    (h : s.IsPlaced) {c : Contents} (hc : c.IsPlaced) :
    (s.add c).IsPlaced :=
  ⟨h.isNamespace, h.contents.append hc⟩

theorem addUsing
    (h : s.IsPlaced) (d : UsingDirective) :
    (s.addUsing d).IsPlaced := by
  unfold NamespaceState.addUsing
  dsimp only
  split
  · have hadd := h.add (c := ⟨[d], [], []⟩) ⟨[], .nil⟩
    exact ⟨hadd.isNamespace, hadd.contents⟩
  · exact ⟨h.isNamespace, h.contents⟩

end NamespaceState.IsPlaced

theorem answers_namespaceType
    {s : NamespaceState} (h : IsNamespace s.name) :
    Answers (namespaceType s) fun types => ∃ is, Placed types is := by
  obtain ⟨segments, hsegments, hname⟩ := h
  unfold namespaceType
  refine .behind fun attributes => .behind fun words => .behind fun kind => ?_
  split
  · refine (answers_typeDeclaration ⟨s.name, [], s.scope⟩).mono fun types hnested => ?_
    obtain ⟨is, his⟩ := hnested
    have hplaced := Placed.append hsegments (hname ▸ his) .nil
    rw [List.append_nil] at hplaced
    exact ⟨_, hplaced⟩
  · exact .fail _

/-- The types in a namespace are placed. -/
theorem answers_namespaceMembersAt
    (depth : Nat) {name : String} (h : IsNamespace name) (scope : List UsingDirective)
    (inBlock : Bool) :
    Answers (namespaceMembersAt depth name scope inBlock) Contents.IsPlaced := by
  induction depth generalizing name scope inBlock with
  | zero =>
    unfold namespaceMembersAt
    exact .fail _
  | succ depth ih =>
    rw [namespaceMembersAt_succ]
    refine .loop NamespaceState.IsPlaced ⟨h, ⟨[], .nil⟩⟩ fun s hs => ?_
    have hitem : Answers (do
        if (← seesKeyword "extern") && (← seesKeyword "alias" 1) then
          skipStatement
          return .again s
        if ← seesUsing then
          return .again (s.addUsing (← usingDirective))
        if ← seesAssemblyAttributes then
          return .again (s.add ⟨[], ← attributeSection, []⟩)
        if ← seesKeyword "namespace" then
          let line ← line
          advance
          let inner := joinNames s.name (".".intercalate (← typeName).path)
          if ← sees .semicolon then
            require .fileScopedNamespace line
            advance
            return .again { s with name := inner }
          expect .openBrace
          let contents ← namespaceMembersAt depth inner s.scope true
          return .again (s.add contents)
        if ← accept .semicolon then return .again s
        return .again (s.add ⟨[], [], ← namespaceType s⟩) : Parse (Round NamespaceState Contents))
        (Answers.RoundAnswers NamespaceState.IsPlaced Contents.IsPlaced) := by
      refine .behind fun a => .behind fun b => .ite (.behind fun _ => .pure hs) ?_
      refine .behind fun a => .ite (.behind fun d => .pure (hs.addUsing d)) ?_
      refine .behind fun a => .ite (.behind fun uses => .pure (hs.add ⟨[], .nil⟩)) ?_
      refine .behind fun a => .ite ?_ ?_
      · refine .behind fun line => .behind fun _ => answers_typeName.bind fun type htype => ?_
        have hinner := hs.isNamespace.join htype
        refine .behind fun empty => .ite ?_ ?_
        · exact .behind fun _ => .behind fun _ => .pure ⟨hinner, hs.contents⟩
        · exact .behind fun _ => (ih hinner s.scope true).bind fun c hc => .pure (hs.add hc)
      · refine .behind fun empty => .ite (.pure hs) ?_
        exact (answers_namespaceType hs.isNamespace).bind fun types htypes => .pure (hs.add htypes)
    unfold namespaceRound
    dsimp only
    refine .behind fun next => .ite (.ite (.fail_bind _ _) (.pure hs.contents)) (.ite ?_ hitem)
    exact .behind fun closed => .ite (.behind fun _ => .pure hs.contents) hitem

theorem exists_placed_of_parseUnit
    {file source : String} {version : LanguageVersion} {u : CompilationUnit}
    (h : parseUnit file source version = .ok u) :
    ∃ is, Placed u.types is := by
  obtain ⟨lexed, c, rest, hlexed, -, hread, rfl⟩ := parseUnit_eq_ok.1 h
  have hcontents : Answers fileContents Contents.IsPlaced :=
    .nested fun depth => answers_namespaceMembersAt depth ⟨[], nofun, rfl⟩ [] false
  exact hcontents _ _ _ _ (areNamed_of_tokenizeFrom hlexed) hread

end Parse

/-! ## Full names -/

namespace Placed

variable {ts : List TypeDeclaration} {is : List TypeIdentity}

theorem identitiesFrom_eq
    (h : Placed ts is) (opened : List (String × Nat)) :
    identitiesFrom opened ts = is := by
  induction h generalizing opened with
  | nil => rfl
  | append _ h _ ih =>
    obtain ⟨left, -, hread⟩ := h.identitiesFrom_append List.nil_prefix _
    rw [hread, ih]

theorem isNamed
    (h : Placed ts is) :
    List.Forall₂ IsNamed ts is := by
  induction h with
  | nil => exact .nil
  | append _ h _ ih => exact List.rel_append (h.isNamed nofun) ih

theorem isNamespace
    (h : Placed ts is) {t : TypeDeclaration} (ht : t ∈ ts) :
    Parse.IsNamespace t.enclosing := by
  induction h with
  | nil => cases ht
  | append hsegments h _ ih =>
    rcases List.mem_append.1 ht with ht | ht
    · exact ⟨_, hsegments, h.enclosing_eq ht⟩
    · exact ih ht

/-- Every type around a declaration is declared in the same namespace. -/
theorem exists_container
    (h : Placed ts is) {t : TypeDeclaration} (ht : t ∈ ts) {path : List String}
    (hpath : path <+: t.containing) (hne : path ≠ []) :
    ∃ c ∈ ts, c.enclosing = t.enclosing ∧ c.path = path := by
  induction h with
  | nil => cases ht
  | append hsegments h _ ih =>
    rcases List.mem_append.1 ht with ht | ht
    · obtain ⟨c, hc, henclosing, hcpath⟩ := h.exists_container ht hpath (List.length_pos_iff.2 hne)
      exact ⟨c, List.mem_append_left _ hc, henclosing.trans (h.enclosing_eq ht).symm, hcpath⟩
    · obtain ⟨c, hc, hnames⟩ := ih ht
      exact ⟨c, List.mem_append_right _ hc, hnames⟩

end Placed

theorem intercalate_inj
    {ws vs : List String} (hws : ∀ w ∈ ws, IsSegment w) (hvs : ∀ v ∈ vs, IsSegment v)
    (hne : ws ≠ []) (hne' : vs ≠ []) (h : ".".intercalate ws = ".".intercalate vs) :
    ws = vs := by
  have hsplit : ∀ {l : List String}, (∀ w ∈ l, IsSegment w) → l ≠ [] →
      Text.split '.' (".".intercalate l) = l := by
    intro l hl hne
    obtain ⟨front, last, rfl⟩ : ∃ front last, l = front ++ [last] :=
      ⟨_, _, (List.dropLast_concat_getLast hne).symm⟩
    exact Text.split_intercalate (fun w hw => (hl w (List.mem_append_left _ hw)).2)
      (hl last (by simp)).2
  rw [← hsplit hws hne, h, hsplit hvs hne']

namespace TypeDeclaration

theorem path_ne_nil
    (t : TypeDeclaration) :
    t.path ≠ [] := by
  simp [path]

/-- The full name has the segments of the namespace and one for each type. -/
theorem fullName_eq_intercalate
    {t : TypeDeclaration} {segments : List String} (hsegments : ∀ w ∈ segments, IsSegment w)
    (henclosing : t.enclosing = ".".intercalate segments) :
    t.fullName = ".".intercalate (segments ++ t.path) := by
  unfold fullName
  cases segments with
  | nil =>
    rw [henclosing]
    rfl
  | cons w segments =>
    have hne : t.enclosing ≠ "" :=
      henclosing ▸ SourceTree.intercalate_ne_empty (fun w hw => (hsegments w hw).1) (by simp)
    rw [if_neg hne, String.intercalate_append_of_ne_nil (by simp) t.path_ne_nil,
      String.intercalate_append_of_ne_nil (by simp) t.path_ne_nil, henclosing]
    rfl

end TypeDeclaration

/-! ## Declarations of one type -/

/-- A declaration with its file and the type it is of. -/
structure IdentifiedType where
  file : String
  declaration : TypeDeclaration
  identity : TypeIdentity

/-- What files declare, in the order of the files and of each file. -/
def identifiedTypes (units : List CompilationUnit) : List IdentifiedType :=
  units.flatMap fun u => (u.types.zip (identities u.types)).map fun x => ⟨u.file, x.1, x.2⟩

namespace IdentifiedType

/-- Two declarations of one type that are not both partial. -/
def Conflicts (a b : IdentifiedType) : Prop :=
  a.identity = b.identity ∧ ¬ (a.declaration.isPartial = true ∧ b.declaration.isPartial = true)

instance (a b : IdentifiedType) : Decidable (a.Conflicts b) :=
  inferInstanceAs (Decidable (_ ∧ _))

end IdentifiedType

/--
Full names tell the types of some declarations apart: none differ in nothing but the numbers of
type parameters of the types around them, and none is named like a namespace that has types.
-/
structure ToldApart (ds : List IdentifiedType) : Prop where
  containers : ∀ a ∈ ds, ∀ b ∈ ds, a.identity.enclosing = b.identity.enclosing →
    a.identity.containers.map Prod.fst = b.identity.containers.map Prod.fst →
    a.identity.name = b.identity.name → a.identity.arity = b.identity.arity →
    a.identity.containers = b.identity.containers
  namespaces : ∀ a ∈ ds, ∀ b ∈ ds, a.declaration.fullName ≠ b.declaration.enclosing

instance (ds : List IdentifiedType) : Decidable (ToldApart ds) :=
  decidable_of_iff (_ ∧ _) ⟨fun h => ⟨h.1, h.2⟩, fun h => ⟨h.containers, h.namespaces⟩⟩

section

variable {units : List CompilationUnit}

theorem map_declaration_identifiedTypes
    (hunits : ∀ u ∈ units, ∃ is, Placed u.types is) :
    (identifiedTypes units).map (fun d => (d.file, d.declaration)) = Compilation.declarations units := by
  unfold identifiedTypes Compilation.declarations
  rw [List.map_flatMap]
  refine List.flatMap_congr fun u hu => ?_
  obtain ⟨is, his⟩ := hunits u hu
  have hids : identities u.types = is := his.identitiesFrom_eq []
  rw [hids, List.map_map]
  conv_rhs => rw [← List.map_fst_zip his.isNamed.length_eq.le]
  rw [List.map_map]
  rfl

theorem mem_identifiedTypes
    {d : IdentifiedType} (hunits : ∀ u ∈ units, ∃ is, Placed u.types is) (h : d ∈ identifiedTypes units) :
    IsNamed d.declaration d.identity ∧ Parse.IsNamespace d.declaration.enclosing ∧
      ∀ path, path <+: d.declaration.containing → path ≠ [] → ∃ c ∈ identifiedTypes units,
        c.declaration.enclosing = d.declaration.enclosing ∧ c.declaration.path = path := by
  obtain ⟨u, hu, h⟩ := List.mem_flatMap.1 h
  obtain ⟨⟨t, i⟩, hzip, rfl⟩ := List.mem_map.1 h
  obtain ⟨is, his⟩ := hunits u hu
  have hids : identities u.types = is := his.identitiesFrom_eq []
  rw [hids] at hzip
  have ht := (List.of_mem_zip hzip).1
  refine ⟨(List.forall₂_iff_zip.1 his.isNamed).2 hzip, his.isNamespace ht, fun path hpath hne => ?_⟩
  obtain ⟨c, hc, hnames⟩ := his.exists_container ht hpath hne
  rw [← List.map_fst_zip his.isNamed.length_eq.le] at hc
  obtain ⟨⟨c, j⟩, hczip, rfl⟩ := List.mem_map.1 hc
  exact ⟨⟨u.file, c, j⟩, List.mem_flatMap.2 ⟨u, hu, List.mem_map.2 ⟨(c, j), hids ▸ hczip, rfl⟩⟩, hnames⟩

/--
A type is not named like another one in a longer namespace: what the second namespace has more
would be the name of a type around the first.
-/
theorem enclosing_eq_of_fullName
    {a b : IdentifiedType} {segments more : List String} (hapart : ToldApart (identifiedTypes units))
    (ha : a ∈ identifiedTypes units) (hb : b ∈ identifiedTypes units)
    (hunits : ∀ u ∈ units, ∃ is, Placed u.types is)
    (hsegments : ∀ w ∈ segments, IsSegment w)
    (haenclosing : a.declaration.enclosing = ".".intercalate segments)
    (hbenclosing : b.declaration.enclosing = ".".intercalate (segments ++ more))
    (hpath : a.declaration.path = more ++ b.declaration.path) :
    more = [] := by
  by_contra hne
  obtain ⟨-, -, hcontainers⟩ := mem_identifiedTypes hunits ha
  have hprefix : more <+: a.declaration.containing := by
    refine ⟨b.declaration.containing, ?_⟩
    rw [TypeDeclaration.path, TypeDeclaration.path, ← List.append_assoc] at hpath
    exact (List.append_inj_left' hpath rfl).symm
  obtain ⟨c, hc, hcenclosing, hcpath⟩ := hcontainers more hprefix hne
  refine hapart.namespaces c hc b hb ?_
  rw [hbenclosing, ← hcpath]
  exact TypeDeclaration.fullName_eq_intercalate hsegments (hcenclosing.trans haenclosing)

/-- Declarations have one full name and number of type parameters if they are of one type. -/
theorem sameType_iff_identity_eq
    {a b : IdentifiedType} (hapart : ToldApart (identifiedTypes units))
    (hunits : ∀ u ∈ units, ∃ is, Placed u.types is)
    (ha : a ∈ identifiedTypes units) (hb : b ∈ identifiedTypes units) :
    Compilation.sameType a.declaration b.declaration = true ↔ a.identity = b.identity := by
  obtain ⟨hanamed, ⟨segments, hsegments, haenclosing⟩, -⟩ := mem_identifiedTypes hunits ha
  obtain ⟨hbnamed, ⟨segments', hsegments', hbenclosing⟩, -⟩ := mem_identifiedTypes hunits hb
  rw [Compilation.sameType_iff]
  constructor
  · rintro ⟨harity, hfull⟩
    rw [TypeDeclaration.fullName_eq_intercalate hsegments haenclosing,
      TypeDeclaration.fullName_eq_intercalate hsegments' hbenclosing] at hfull
    have happend := intercalate_inj (List.forall_mem_append.2 ⟨hsegments, hanamed.isSegment⟩)
      (List.forall_mem_append.2 ⟨hsegments', hbnamed.isSegment⟩)
      (List.append_ne_nil_of_right_ne_nil _ a.declaration.path_ne_nil)
      (List.append_ne_nil_of_right_ne_nil _ b.declaration.path_ne_nil) hfull
    have heq : segments = segments' ∧ a.declaration.path = b.declaration.path := by
      rcases List.append_eq_append_iff.1 happend with ⟨more, rfl, hpath⟩ | ⟨more, rfl, hpath⟩
      · obtain rfl := enclosing_eq_of_fullName hapart ha hb hunits hsegments haenclosing hbenclosing hpath
        exact ⟨by simp, hpath⟩
      · obtain rfl := enclosing_eq_of_fullName hapart hb ha hunits hsegments' hbenclosing haenclosing hpath
        exact ⟨by simp, hpath.symm⟩
    obtain ⟨rfl, hpath⟩ := heq
    obtain ⟨hcontaining, hname⟩ := List.append_inj' hpath rfl
    have hidenclosing : a.identity.enclosing = b.identity.enclosing := by
      rw [hanamed.enclosing, hbnamed.enclosing, haenclosing, hbenclosing]
    have hidcontaining : a.identity.containers.map Prod.fst = b.identity.containers.map Prod.fst := by
      rw [hanamed.containers, hbnamed.containers, hcontaining]
    have hidname : a.identity.name = b.identity.name := by
      rw [hanamed.name, hbnamed.name, List.singleton_inj.1 hname]
    have hidarity : a.identity.arity = b.identity.arity := by
      rw [hanamed.arity, hbnamed.arity, harity]
    exact TypeIdentity.ext hidenclosing
      (hapart.containers a ha b hb hidenclosing hidcontaining hidname hidarity) hidname hidarity
  · intro h
    have hcontaining : a.declaration.containing = b.declaration.containing := by
      rw [← hanamed.containers, ← hbnamed.containers, h]
    have henclosing : a.declaration.enclosing = b.declaration.enclosing := by
      rw [← hanamed.enclosing, ← hbnamed.enclosing, h]
    have hname : a.declaration.name = b.declaration.name := by
      rw [← hanamed.name, ← hbnamed.name, h]
    constructor
    · rw [← hanamed.arity, ← hbnamed.arity, h]
    · unfold TypeDeclaration.fullName TypeDeclaration.path
      rw [henclosing, hcontaining, hname]

end

/-! ## The first conflict -/

namespace Compilation

/-- A failure is that of the first declaration that does not fit an earlier one. -/
def IsFirstConflict
    (passed : List TypeDeclaration) (declared : List (String × TypeDeclaration)) (e : Failure) :
    Prop :=
  ∃ front x back, declared = front ++ x :: back ∧ (passed ++ front.map (·.2)).Pairwise Fits ∧
    (∃ a ∈ passed ++ front.map (·.2), ¬ Fits a x.2) ∧
    e = .compilation x.1 ⟨x.2.line, duplicateFault x.2⟩

section

variable {before passed : List TypeDeclaration} {declared : List (String × TypeDeclaration)}
variable {x : String × TypeDeclaration} {e : Failure}

theorem isFirstConflict_of_not_fits
    (hpassed : passed.Pairwise Fits) {a : TypeDeclaration} (ha : a ∈ passed) (hnot : ¬ Fits a x.2) :
    IsFirstConflict passed (x :: declared) e ↔
      e = .compilation x.1 ⟨x.2.line, duplicateFault x.2⟩ := by
  constructor
  · rintro ⟨front, y, back, heq, hfits, -, rfl⟩
    cases front with
    | nil =>
      cases heq
      rfl
    | cons z front =>
      cases heq
      exact absurd ((List.pairwise_append.1 hfits).2.2 a ha _ List.mem_cons_self) hnot
  · rintro rfl
    exact ⟨[], x, declared, rfl, by simpa using hpassed, ⟨a, by simpa using ha, hnot⟩, rfl⟩

theorem isFirstConflict_of_fits
    (hfits : ∀ p ∈ passed, Fits p x.2) :
    IsFirstConflict passed (x :: declared) e ↔ IsFirstConflict (passed ++ [x.2]) declared e := by
  constructor
  · rintro ⟨front, y, back, heq, hall, ⟨a, ha, hnot⟩, rfl⟩
    cases front with
    | nil =>
      cases heq
      exact absurd (hfits a (by simpa using ha)) hnot
    | cons z front =>
      cases heq
      exact ⟨front, y, back, rfl, by simpa using hall, ⟨a, by simpa using ha, hnot⟩, rfl⟩
  · rintro ⟨front, y, back, rfl, hall, ⟨a, ha, hnot⟩, rfl⟩
    exact ⟨x :: front, y, back, rfl, by simpa using hall, ⟨a, by simpa using ha, hnot⟩, rfl⟩

/--
Declarations are refused at the first one that does not fit an earlier one.  Of the earlier ones
that have passed, one of each type is kept to compare with.
-/
theorem checkDuplicates_eq_error_iff
    (hpassed : passed.Pairwise Fits) (hbefore : ∀ b ∈ before, b ∈ passed)
    (hkept : ∀ p ∈ passed, ∃ b ∈ before, sameType p b = true) :
    checkDuplicates before declared = .error e ↔ IsFirstConflict passed declared e := by
  induction declared generalizing before passed with
  | nil => simp [checkDuplicates, IsFirstConflict]
  | cons x declared ih =>
    obtain ⟨file, t⟩ := x
    have hnext : (∀ p ∈ passed, Fits p t) → (passed ++ [t]).Pairwise Fits := fun hfits =>
      List.pairwise_append.2 ⟨hpassed, List.pairwise_singleton _ _, by simpa using hfits⟩
    rw [checkDuplicates]
    cases hfind : before.find? (sameType t) with
    | none =>
      have hfits : ∀ p ∈ passed, Fits p t := by
        intro p hp hpt
        obtain ⟨b, hb, hpb⟩ := hkept p hp
        exact absurd (sameType_trans (sameType_comm.trans hpt) hpb) (List.find?_eq_none.1 hfind b hb)
      rw [isFirstConflict_of_fits hfits]
      refine ih (hnext hfits) (fun b hb => ?_) fun p hp => ?_
      · exact List.mem_append.2 ((List.mem_append.1 hb).imp_left (hbefore b))
      rcases List.mem_append.1 hp with hp | hp
      · obtain ⟨b, hb, hpb⟩ := hkept p hp
        exact ⟨b, List.mem_append_left _ hb, hpb⟩
      · exact ⟨p, List.mem_append_right _ hp, sameType_iff.2 ⟨rfl, rfl⟩⟩
    | some earlier =>
      have hmem := List.mem_of_find?_eq_some hfind
      have hsame : sameType t earlier = true := by simpa using List.find?_some hfind
      dsimp only
      split
      · rename_i hpartial
        rw [Bool.and_eq_true] at hpartial
        have hfits : ∀ p ∈ passed, Fits p t := fun p hp =>
          (forall_fits_of_sameType hpassed (hbefore _ hmem) hsame hpartial p hp).symm
        rw [isFirstConflict_of_fits hfits]
        refine ih (hnext hfits) (fun b hb => List.mem_append_left _ (hbefore b hb)) fun p hp => ?_
        rcases List.mem_append.1 hp with hp | hp
        · exact hkept p hp
        · exact ⟨earlier, hmem, List.mem_singleton.1 hp ▸ hsame⟩
      · rename_i hpartial
        have hnot : ¬ Fits earlier t := fun hfit => by
          rw [Bool.and_eq_true] at hpartial
          exact hpartial (hfit (sameType_comm.trans hsame))
        rw [isFirstConflict_of_not_fits hpassed (hbefore _ hmem) hnot, Except.error.injEq, eq_comm]

end

end Compilation

/-! ## Results -/

section

variable {units : List CompilationUnit}

theorem conflicts_iff_not_fits
    {a b : IdentifiedType} (hapart : ToldApart (identifiedTypes units))
    (hunits : ∀ u ∈ units, ∃ is, Placed u.types is)
    (ha : a ∈ identifiedTypes units) (hb : b ∈ identifiedTypes units) :
    a.Conflicts b ↔ ¬ Compilation.Fits a.declaration b.declaration := by
  unfold IdentifiedType.Conflicts Compilation.Fits
  rw [sameType_iff_identity_eq hapart hunits ha hb, Classical.not_imp]

/-- The first declaration that does not fit an earlier one is the first that conflicts with one. -/
theorem isFirstConflict_iff
    {e : Failure} (hapart : ToldApart (identifiedTypes units))
    (hunits : ∀ u ∈ units, ∃ is, Placed u.types is) :
    Compilation.IsFirstConflict [] (Compilation.declarations units) e ↔
      ∃ front d back, identifiedTypes units = front ++ d :: back ∧
        front.Pairwise (fun a b => ¬ a.Conflicts b) ∧ (∃ a ∈ front, a.Conflicts d) ∧
        e = .compilation d.file ⟨d.declaration.line, Compilation.duplicateFault d.declaration⟩ := by
  -- Among the declarations of a part, conflicts and declarations that do not fit are the same.
  have hpart : ∀ {front d back}, identifiedTypes units = front ++ d :: back →
      (((front.map fun d => (d.file, d.declaration)).map (·.2)).Pairwise Compilation.Fits ↔
        front.Pairwise fun a b => ¬ a.Conflicts b) ∧
      ((∃ a ∈ (front.map fun d => (d.file, d.declaration)).map (·.2),
        ¬ Compilation.Fits a d.declaration) ↔ ∃ a ∈ front, a.Conflicts d) := by
    intro front d back heq
    have hd : d ∈ identifiedTypes units := by simp [heq]
    have hfront : ∀ a ∈ front, a ∈ identifiedTypes units := fun a ha => by simp [heq, ha]
    rw [List.map_map]
    constructor
    · rw [List.pairwise_map]
      refine List.Pairwise.iff_of_mem fun {a b} ha hb => ?_
      rw [conflicts_iff_not_fits hapart hunits (hfront a ha) (hfront b hb), Classical.not_not]
      rfl
    · constructor
      · rintro ⟨_, hmem, hnot⟩
        obtain ⟨a, ha, rfl⟩ := List.mem_map.1 hmem
        exact ⟨a, ha, (conflicts_iff_not_fits hapart hunits (hfront a ha) hd).2 hnot⟩
      · rintro ⟨a, ha, hconflict⟩
        exact ⟨_, List.mem_map_of_mem ha, (conflicts_iff_not_fits hapart hunits (hfront a ha) hd).1 hconflict⟩
  unfold Compilation.IsFirstConflict
  rw [← map_declaration_identifiedTypes hunits]
  simp only [List.nil_append]
  constructor
  · rintro ⟨front, x, back, heq, hfits, hnot, rfl⟩
    obtain ⟨front, _, hparts, rfl, hmap⟩ := List.map_eq_append_iff.1 heq
    obtain ⟨d, back, rfl, rfl, rfl⟩ := List.map_eq_cons_iff.1 hmap
    obtain ⟨hpairs, hconflict⟩ := hpart hparts
    exact ⟨front, d, back, hparts, hpairs.1 hfits, hconflict.1 hnot, rfl⟩
  · rintro ⟨front, d, back, heq, hpairs, hconflict, rfl⟩
    obtain ⟨hpairs', hconflict'⟩ := hpart heq
    refine ⟨_, (d.file, d.declaration), back.map fun d => (d.file, d.declaration), ?_,
      hpairs'.2 hpairs, hconflict'.2 hconflict, rfl⟩
    rw [heq, List.map_append, List.map_cons]

end

namespace Compilation

/-- A declared type is found as that of its first declaration, whatever the references offer. -/
theorem symbol?_of_declared
    {units : List CompilationUnit} {references : List Assembly} {c : Compilation}
    (h : ofUnits units references = .ok c) {x : String × TypeDeclaration}
    (hx : x ∈ declarations units) :
    ∃ y ∈ declarations units, sameType y.2 x.2 = true ∧
      c.symbol? x.2.fullName x.2.arity = some (.ofDeclaration y.2) := by
  obtain ⟨_, -, h⟩ := Outcome.bind_eq_ok.1 h
  cases h
  obtain ⟨s, hs⟩ : ∃ s, ((declarations units).map fun x => Symbol.ofDeclaration x.2).find?
      (fun s => s.arity == x.2.arity && s.fullName == x.2.fullName) = some s := by
    rw [← Option.isSome_iff_exists, List.find?_isSome]
    exact ⟨_, List.mem_map_of_mem hx, by simp [Symbol.ofDeclaration]⟩
  obtain ⟨y, hy, rfl⟩ := List.mem_map.1 (List.mem_of_find?_eq_some hs)
  have hsame := List.find?_some hs
  refine ⟨y, hy, hsame, ?_⟩
  unfold symbol?
  rw [List.find?_append, hs, Option.some_or]

/--
Files that are read one by one fail together exactly if two declarations of one type are not both
partial, and the failure is that of the first declaration that conflicts with an earlier one.
Where they do not fail, each declared type is found in the files, whatever the references offer.
All this is so where full names tell the types apart.
-/
theorem ofUnits_of_toldApart
    {units : List CompilationUnit}
    (hparsed : ∀ u ∈ units, ∃ file source version, parseUnit file source version = .ok u)
    (hapart : ToldApart (identifiedTypes units)) (references : List Assembly) :
    ((∃ e, ofUnits units references = .error e) ↔
      ∃ front d back, identifiedTypes units = front ++ d :: back ∧ ∃ a ∈ front, a.Conflicts d) ∧
    (∀ e, ofUnits units references = .error e ↔
      ∃ front d back, identifiedTypes units = front ++ d :: back ∧
        front.Pairwise (fun a b => ¬ a.Conflicts b) ∧ (∃ a ∈ front, a.Conflicts d) ∧
        e = .compilation d.file ⟨d.declaration.line, duplicateFault d.declaration⟩) ∧
    ∀ c, ofUnits units references = .ok c → ∀ d ∈ identifiedTypes units,
      ∃ first ∈ identifiedTypes units, first.identity = d.identity ∧
        c.symbol? d.declaration.fullName d.declaration.arity =
          some (.ofDeclaration first.declaration) := by
  have hunits : ∀ u ∈ units, ∃ is, Placed u.types is := by
    intro u hu
    obtain ⟨file, source, version, h⟩ := hparsed u hu
    exact Parse.exists_placed_of_parseUnit h
  have herror : ∀ e, ofUnits units references = .error e ↔
      IsFirstConflict [] (declarations units) e := by
    intro e
    rw [← @checkDuplicates_eq_error_iff [] [] _ e .nil nofun nofun]
    show (checkDuplicates [] (declarations units) >>= _) = _ ↔ _
    cases checkDuplicates [] (declarations units) with
    | error f => exact ⟨fun h => by cases h; rfl, fun h => by cases h; rfl⟩
    | ok u => exact ⟨nofun, nofun⟩
  refine ⟨⟨?_, ?_⟩, fun e => (herror e).trans (isFirstConflict_iff hapart hunits), ?_⟩
  · rintro ⟨e, he⟩
    obtain ⟨front, d, back, heq, -, hconflict, -⟩ := (isFirstConflict_iff hapart hunits).1 ((herror e).1 he)
    exact ⟨front, d, back, heq, hconflict⟩
  · rintro ⟨front, d, back, heq, a, ha, hconflict⟩
    cases hc : ofUnits units references with
    | error e => exact ⟨e, rfl⟩
    | ok c =>
      have hfits := (exists_ofUnits_iff units references).1 ⟨c, hc⟩
      rw [← map_declarations, ← map_declaration_identifiedTypes hunits, List.map_map, heq,
        List.pairwise_map] at hfits
      have hfit := (List.pairwise_append.1 hfits).2.2 a ha d List.mem_cons_self
      exact absurd hfit ((conflicts_iff_not_fits hapart hunits (by simp [heq, ha]) (by simp [heq])).1 hconflict)
  · intro c hc d hd
    have hmem : ∀ d, d ∈ identifiedTypes units → (d.file, d.declaration) ∈ declarations units := by
      intro d hd
      rw [← map_declaration_identifiedTypes hunits]
      exact List.mem_map_of_mem hd
    obtain ⟨y, hy, hsame, hsymbol⟩ := symbol?_of_declared hc (hmem d hd)
    rw [← map_declaration_identifiedTypes hunits] at hy
    obtain ⟨first, hfirst, rfl⟩ := List.mem_map.1 hy
    exact ⟨first, hfirst, (sameType_iff_identity_eq hapart hunits hfirst hd).1 hsame, hsymbol⟩

/-- Files that declare a page twice, with some modifiers, next to a page with a type parameter. -/
def pageFiles (modifiers : String) : List (String × String) :=
  [("A.cs", modifiers ++ "class Page { class Item { } }"),
    ("B.cs", "class Page<T> { }\n" ++ modifiers ++ "class Page { }")]

/-- The files that declare a page, read one by one. -/
def pageUnits (modifiers : String) : List CompilationUnit :=
  (pageFiles modifiers).filterMap fun x => (parseUnit x.1 x.2 .standard).toOption

theorem parseUnit_of_mem_pageUnits
    {modifiers : String} {u : CompilationUnit} (hu : u ∈ pageUnits modifiers) :
    ∃ file source version, parseUnit file source version = .ok u := by
  obtain ⟨x, -, hx⟩ := List.mem_filterMap.1 hu
  exact ⟨x.1, x.2, .standard, Outcome.ok_of_toOption hx⟩

/--
The second page is refused at its line, unless both are partial.  Then the page, what is in it
and the page with a type parameter are all found.
-/
theorem ofUnits_of_toldApart_pages :
    (∀ modifiers, ∀ u ∈ pageUnits modifiers,
        ∃ file source version, parseUnit file source version = .ok u) ∧
      ToldApart (identifiedTypes (pageUnits "")) ∧
      ofUnits (pageUnits "") [] =
        .error (.compilation "B.cs" ⟨2, .duplicateType "<global namespace>" "Page"⟩) ∧
      ToldApart (identifiedTypes (pageUnits "partial ")) ∧
      ∃ c, ofUnits (pageUnits "partial ") [] = .ok c ∧
        ∀ x ∈ [("Page", 0), ("Page.Item", 0), ("Page", 1)], (c.symbol? x.1 x.2).isSome = true := by
  have hapart : ToldApart (identifiedTypes (pageUnits "")) := by decide +kernel
  have hapart' : ToldApart (identifiedTypes (pageUnits "partial ")) := by decide +kernel
  obtain ⟨-, hfails, -⟩ := ofUnits_of_toldApart (fun _ => parseUnit_of_mem_pageUnits) hapart []
  obtain ⟨hfails', -, hfound⟩ := ofUnits_of_toldApart (fun _ => parseUnit_of_mem_pageUnits) hapart' []
  refine ⟨fun _ _ => parseUnit_of_mem_pageUnits, hapart, (hfails _).2 ?_, hapart', ?_⟩
  · -- The first three types are the page, what is in it and the page with a type parameter.
    have hlength : 3 < (identifiedTypes (pageUnits "")).length := by decide +kernel
    refine ⟨(identifiedTypes (pageUnits "")).take 3, (identifiedTypes (pageUnits ""))[3],
      (identifiedTypes (pageUnits "")).drop 4, ?_, ?_, ?_, ?_⟩
    · rw [← List.drop_eq_getElem_cons hlength, List.take_append_drop]
    all_goals decide +kernel +revert
  · have hnone : (identifiedTypes (pageUnits "partial ")).Pairwise fun a b => ¬ a.Conflicts b := by
      decide +kernel
    have hdeclared : ∀ x ∈ [("Page", 0), ("Page.Item", 0), ("Page", 1)],
        ∃ d ∈ identifiedTypes (pageUnits "partial "),
          (d.declaration.fullName, d.declaration.arity) = x := by
      decide +kernel
    cases hc : ofUnits (pageUnits "partial ") [] with
    | error e =>
      obtain ⟨front, d, back, heq, a, ha, hconflict⟩ := hfails'.1 ⟨e, hc⟩
      rw [heq] at hnone
      exact absurd hconflict ((List.pairwise_append.1 hnone).2.2 a ha d List.mem_cons_self)
    | ok c =>
      refine ⟨c, rfl, fun x hx => ?_⟩
      obtain ⟨d, hd, rfl⟩ := hdeclared x hx
      obtain ⟨first, -, -, hsymbol⟩ := hfound c hc d hd
      rw [hsymbol]
      rfl

end Compilation

end CSharp
end ContentModels

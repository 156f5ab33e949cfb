import ContentModels.Proofs.Generated.Members

/-!
# Reading generated types

A generated type is read back as one declaration: with its modifiers, its name, the texts of
its bases as they are written, and the constructors among its members (`TypeOutline`).  Its
body is a sequence of pieces, each of which is a note or a member.
-/

namespace ContentModels
namespace Generated

open CSharp CSharp.Parse

variable {l : Layout} {version : LanguageVersion} {typeName : String}

/-! ## Bodies -/

/-- Parts of a body that are read back as members, with the constructors among them. -/
def PartsRead
    (l : Layout) (version : LanguageVersion) (typeName : String) (parts : List Part)
    (constructors : List ConstructorHead) : Prop :=
  ∃ bs : List BodyPart, LinesRead (parts.flatMap (·.lines l)) (bs.flatMap (·.kinds)) ∧
    (∀ b ∈ bs, ReadsMembers version typeName b) ∧ bs.flatMap (·.constructors) = constructors

namespace PartsRead

variable {parts more : List Part} {cs cs' : List ConstructorHead}

theorem nil : PartsRead l version typeName [] [] :=
  ⟨[], .nil, nofun, rfl⟩

theorem append
    (h : PartsRead l version typeName parts cs) (h' : PartsRead l version typeName more cs') :
    PartsRead l version typeName (parts ++ more) (cs ++ cs') := by
  obtain ⟨bs, hlines, hreads, rfl⟩ := h
  obtain ⟨bs', hlines', hreads', rfl⟩ := h'
  refine ⟨bs ++ bs', ?_, ?_, List.flatMap_append⟩
  · rw [List.flatMap_append, List.flatMap_append]
    exact hlines.append hlines'
  · intro b hb
    exact (List.mem_append.1 hb).elim (hreads b) (hreads' b)

theorem note
    {line : String}
    (h : LinesRead [line] []) :
    PartsRead l version typeName [.note line] [] :=
  ⟨[], h, nofun, rfl⟩

theorem blank : PartsRead l version typeName [.note ""] [] :=
  note .blank

theorem member
    {w : WrittenMember} {constructors : List (List TypeName)}
    (h : MemberRead l version typeName w constructors)
    (hmodifiers : w.modifiers ⊆ memberModifiers)
    (hnotes : ∀ line ∈ w.notes, isNote line = true)
    (himplemented : ∀ aliasName, w.implemented = some aliasName → '\n' ∉ aliasName.toList) :
    PartsRead l version typeName [.member w] (constructors.map (⟨w.modifiers, ·⟩)) := by
  obtain ⟨part, hlines, hreads, hconstructors⟩ := h.exists_part hmodifiers hnotes himplemented
  exact ⟨[part], by simpa using hlines, by simpa using hreads, by simpa using hconstructors⟩

/-- A member that is no constructor. -/
theorem member_nil
    {w : WrittenMember} (h : MemberRead l version typeName w [])
    (hmodifiers : w.modifiers ⊆ memberModifiers)
    (hnotes : ∀ line ∈ w.notes, isNote line = true)
    (himplemented : ∀ aliasName, w.implemented = some aliasName → '\n' ∉ aliasName.toList) :
    PartsRead l version typeName [.member w] [] :=
  member h hmodifiers hnotes himplemented

/-- Parts without constructors, one after the other. -/
theorem flatMap
    {α : Type} {xs : List α} {f : α → List Part}
    (h : ∀ x ∈ xs, PartsRead l version typeName (f x) []) :
    PartsRead l version typeName (xs.flatMap f) [] := by
  induction xs with
  | nil => exact nil
  | cons x xs ih =>
    have hxs := ih fun y hy => h y (List.mem_cons_of_mem _ hy)
    exact (h x List.mem_cons_self).append hxs

/-- Parts without constructors and blank lines between them. -/
theorem intercalate :
    {bodies : List (List Part)} → (∀ body ∈ bodies, PartsRead l version typeName body []) →
      PartsRead l version typeName (List.intercalate [.note ""] bodies) []
  | [], _ => nil
  | [body], h => by
    rw [List.intercalate_singleton]
    exact h body List.mem_cons_self
  | body :: next :: bodies, h => by
    have hrest : PartsRead l version typeName
        (List.intercalate [.note ""] (next :: bodies)) [] :=
      intercalate fun b hb => h b (List.mem_cons_of_mem _ hb)
    rw [List.intercalate_cons_cons]
    exact ((h body List.mem_cons_self).append blank).append hrest

end PartsRead

/-! ## Base lists -/

/-- A type name is spelled by its text. -/
def IsSpelled (name : TypeName) : Prop :=
  ∃ ks, Spelled name.text ks ∧ SpellsType ks name

/-- Texts that are written as types when their namespaces are left out. -/
def BasesRead (l : Layout) (bases : List String) : Prop :=
  ∀ b ∈ bases, ∃ ks, Spelled (l.shorten b) ks

theorem exists_spelledTypes
    {bases : List String}
    (h : BasesRead l bases) :
    ∃ types : SpelledTypes, AllSpell types ∧ types.map (·.2.text) = bases.map l.shorten ∧
      (∀ x ∈ types, IsSpelled x.2) ∧
      List.Forall₂ (fun b x => Spelled (l.shorten b) x.1) bases types := by
  induction bases with
  | nil => exact ⟨[], nofun, rfl, nofun, .nil⟩
  | cons b bases ih =>
    obtain ⟨types, hspell, htexts, hspelled, hall⟩ := ih fun x hx => h x (List.mem_cons_of_mem _ hx)
    obtain ⟨ks, hks⟩ := h b List.mem_cons_self
    obtain ⟨name, htext, hname⟩ := hks.spells
    refine ⟨(ks, name) :: types, List.forall_mem_cons.2 ⟨hname, hspell⟩, ?_,
      List.forall_mem_cons.2 ⟨⟨ks, htext ▸ hks, hname⟩, hspelled⟩, .cons hks hall⟩
    rw [List.map_cons, List.map_cons, htext, htexts]

/-- Types with commas between them are read one after the other. -/
theorem lineRead_listed
    {b : String} {bases : List String} {types : SpelledTypes}
    (h : List.Forall₂ (fun b x => Spelled (l.shorten b) x.1) (b :: bases) types) :
    LineRead (", ".intercalate ((b :: bases).map l.shorten)) (listedKinds (types.map (·.1))) := by
  induction bases generalizing b types with
  | nil =>
    obtain ⟨x, types, hx, hnil, rfl⟩ := List.forall₂_cons_left_iff.1 h
    obtain rfl := List.forall₂_nil_left_iff.1 hnil
    refine ⟨⟨[.type (l.shorten b) x.1], ⟨?_, ?_, ?_⟩, rfl⟩, needNothing_of_spelled hx⟩
    · simp [Lexeme.text, Lexeme.type]
    · simpa using Lexeme.valid_type hx
    · simp [Lexeme.allKinds, Lexeme.kinds, Lexeme.type, listedKinds]
  | cons c bases ih =>
    obtain ⟨x, types, hx, htypes, rfl⟩ := List.forall₂_cons_left_iff.1 h
    obtain ⟨y, types', -, -, rfl⟩ := List.forall₂_cons_left_iff.1 htypes
    have hfront : FrontRead (l.shorten b ++ ", ") (x.1 ++ [.punct .comma]) := by
      refine ⟨⟨[.type (l.shorten b) x.1, .mark .comma, .blank], ⟨?_, ?_, ?_⟩, fun ys => ?_⟩,
        needNothing_append (needNothing_of_spelled hx) rfl⟩
      · simp [Lexeme.text, Lexeme.type, Punct.text]
      · simpa [Piece.simpleMarks] using Lexeme.valid_type hx
      · simp [Lexeme.allKinds, Lexeme.kinds, Lexeme.type]
      · exact (Lexeme.chain_of_fits rfl _).trans ((Lexeme.chain_of_fits rfl _).trans
          (Lexeme.chain_blank ys))
    have hline := hfront.line (ih htypes)
    rw [List.map_cons, String.intercalate_cons_of_ne_nil (by simp)]
    simpa [listedKinds, String.append_assoc] using hline

/-- A name with the bases of a type, up to the end of the line. -/
theorem lineRead_bases
    {name : String} {bases : List String} {types : SpelledTypes} (hname : isIdentifier name = true)
    (h : List.Forall₂ (fun b x => Spelled (l.shorten b) x.1) bases types) :
    LineRead
      (name ++ if bases.isEmpty then "" else " : " ++ ", ".intercalate (bases.map l.shorten))
      ([.ident name false] ++ baseKinds (types.map (·.1))) := by
  have hdefault : name ≠ "default" := ne_of_isIdentifier hname (by decide)
  cases bases with
  | nil =>
    obtain rfl := List.forall₂_nil_left_iff.1 h
    simpa [baseKinds] using lineRead_name (isWord_of_isIdentifier hname) hdefault
  | cons b bases =>
    obtain ⟨x, types', -, -, rfl⟩ := List.forall₂_cons_left_iff.1 h
    have hcolon : FrontRead ": " [.punct .colon] :=
      ⟨⟨[.mark .colon, .blank], ⟨rfl, by simp [Piece.simpleMarks], rfl⟩, by simp [Lexeme.fits]⟩, rfl⟩
    have hline := ((FrontRead.word (isWord_of_isIdentifier hname) hdefault).append hcolon).line
      (lineRead_listed h)
    have htext : name ++ (" : " ++ ", ".intercalate ((b :: bases).map l.shorten)) =
        name ++ " " ++ ": " ++ ", ".intercalate ((b :: bases).map l.shorten) := by
      simp [← String.toList_inj]
    rw [List.isEmpty_cons, if_neg Bool.false_ne_true, htext]
    simpa [baseKinds] using hline

/-! ## Declarations -/

/-- What a generated type is read back as: its declaration, as far as it is written. -/
structure TypeOutline where
  kind : DeclarationKind
  modifiers : List String
  name : String
  /-- The texts of the bases. -/
  bases : List String
  constructors : List ConstructorHead
deriving DecidableEq

/-- A declaration in a namespace is read as an outline says. -/
structure TypeOutline.Describes (o : TypeOutline) (enclosing : String) (t : TypeDeclaration) :
    Prop where
  kind : t.kind = o.kind
  modifiers : t.modifiers = o.modifiers
  name : t.name = o.name
  arity : t.arity = 0
  enclosing : t.enclosing = enclosing
  containing : t.containing = []
  bases : t.baseList.map (·.text) = o.bases
  spelled : ∀ b ∈ t.baseList, IsSpelled b
  constructors : constructorHeads t.members = o.constructors

/-- The form of a type declaration that an outline is of. -/
structure TypeOutline.IsOf (o : TypeOutline) (version : LanguageVersion) (form : TypeForm) :
    Prop where
  valid : form.Valid version o.kind
  modifiers : "public" :: form.modifiers = o.modifiers
  name : form.name = o.name
  bases : form.bases.map (·.2.text) = o.bases
  spelled : ∀ x ∈ form.bases, IsSpelled x.2
  constructors : form.parts.flatMap (·.constructors) = o.constructors

theorem TypeOutline.IsOf.describes
    {o : TypeOutline} {form : TypeForm} {enclosing : String} {scope : List UsingDirective}
    {t : TypeDeclaration} (h : o.IsOf version form)
    (ht : form.IsReadAs o.kind ⟨enclosing, [], scope⟩ t) :
    o.Describes enclosing t := by
  obtain ⟨hdeclares, hconstructors⟩ := ht
  refine ⟨hdeclares.kind, hdeclares.modifiers.trans h.modifiers, hdeclares.name.trans h.name,
    hdeclares.arity, hdeclares.enclosing, hdeclares.containing, ?_, ?_,
    hconstructors.trans h.constructors⟩
  · rw [hdeclares.bases, List.map_map]
    exact h.bases
  · rw [hdeclares.bases, List.forall_mem_map]
    exact h.spelled

/-- A generated type is lexed as the tokens of a declaration with an outline. -/
def WrittenType.HasOutline
    (w : WrittenType) (l : Layout) (version : LanguageVersion) (o : TypeOutline) : Prop :=
  ∃ form : TypeForm, LinesRead (w.lines l) form.kinds ∧ o.IsOf version form

/-- The words in front of the names of generated types. -/
def declarationWords : List String :=
  ["public", "static", "partial", "class", "interface"]

/-- A type whose parts are read back has the outline that it is written with. -/
theorem WrittenType.hasOutline
    {w : WrittenType} {o : TypeOutline} (ms : List String) (keyword : String)
    (hdeclaration : w.declaration =
      String.join (("public" :: (ms ++ [keyword])).map (· ++ " ")))
    (hmodifiers : ms ⊆ ["static", "partial"]) (hne : ms ≠ [])
    (hkeyword : keyword = "class" ∧ o.kind = .classType ∨
      keyword = "interface" ∧ o.kind = .interfaceType)
    (hname : isIdentifier w.name = true) (hnotes : LinesRead w.notes [])
    (hmodelled : ∀ aliasName, w.modelled = some aliasName → '\n' ∉ aliasName.toList)
    (hbases : BasesRead l w.bases) (hparts : PartsRead l version w.name w.parts o.constructors)
    (homodifiers : o.modifiers = "public" :: ms) (honame : o.name = w.name)
    (hobases : o.bases = w.bases.map l.shorten) :
    w.HasOutline l version o := by
  obtain ⟨types, hspell, htexts, hspelled, hall⟩ := exists_spelledTypes hbases
  obtain ⟨bs, hlines, hreads, hconstructors⟩ := hparts
  refine ⟨⟨w.modelled, ms, keyword, w.name, types, bs⟩, ?_, ⟨⟨?_, ?_, ?_, hne, hspell, hreads⟩,
    homodifiers.symm, honame.symm, htexts.trans hobases.symm, hspelled, hconstructors⟩⟩
  · have hwords : ∀ v ∈ declarationWords, isWord v = true ∧ v ≠ "default" := by decide
    have hsubset : ∀ v ∈ "public" :: (ms ++ [keyword]), v ∈ declarationWords := by
      simp only [List.forall_mem_cons, List.forall_mem_append, List.mem_singleton, forall_eq]
      refine ⟨by decide, fun v hv => ?_, ?_⟩
      · have hsub : ∀ v ∈ ["static", "partial"], v ∈ declarationWords := by decide
        exact hsub v (hmodifiers hv)
      · rcases hkeyword with ⟨rfl, -⟩ | ⟨rfl, -⟩ <;> decide
    have hhead := (FrontRead.tab.append
      (.words fun v hv => hwords v (hsubset v hv))).line (lineRead_bases hname hall)
    have hopen := FrontRead.tab.line lineRead_openBrace
    have hclose := FrontRead.tab.line lineRead_closeBrace
    have hbody := ((hhead.linesRead.append hopen.linesRead).append hlines).append hclose.linesRead
    have htext : l.head (w.declaration ++ w.name) w.bases =
        "\t" ++ String.join (("public" :: (ms ++ [keyword])).map (· ++ " ")) ++ (w.name ++
          if w.bases.isEmpty then "" else " : " ++ ", ".intercalate (w.bases.map l.shorten)) := by
      rw [Layout.head, hdeclaration]
      simp only [String.append_assoc]
    unfold WrittenType.lines TypeForm.kinds
    rw [htext]
    cases hmodel : w.modelled with
    | none =>
      have hall := hnotes.append hbody
      simpa [typeKinds, wordKinds] using hall
    | some aliasName =>
      have hattribute := lineRead_attribute FrontRead.tab (by decide : isWord "PublishedModel" = true)
        (hmodelled aliasName hmodel)
      have hall := (hnotes.append hattribute.linesRead).append hbody
      have hline : "\t[PublishedModel(" ++ literal aliasName ++ ")]" =
          "\t" ++ ("[" ++ "PublishedModel" ++ "(" ++ literal aliasName ++ ")]") := by
        simp [← String.toList_inj]
      rw [Option.toList_some, List.map_singleton, hline]
      simpa [typeKinds, wordKinds] using hall
  · rcases hkeyword with ⟨rfl, hk⟩ | ⟨rfl, hk⟩ <;> simp [hk, typeKeyword?]
  · rcases hkeyword with ⟨-, hk⟩ | ⟨-, hk⟩ <;> simp [hk]
  · have hwords : ∀ v ∈ ["static", "partial"], v ∈ modifierWords := by decide
    exact fun v hv => hwords v (hmodifiers hv)

end Generated
end ContentModels

import ContentModels.Proofs.Generated.Expressions
import ContentModels.Proofs.Generated.Written

/-!
# Reading generated members

Each form in which members are generated is read back as one member: its lines are lexed as
the tokens of its modifiers, its type, its name, its parameters and its body, and in the
body of a type these tokens are one step of the reader.  Of all forms only the constructor is
read as a constructor, with the type of its parameter.
-/

namespace ContentModels
namespace Generated

open CSharp CSharp.Parse

variable {l : Layout} {version : LanguageVersion} {ks js : List TokenKind} {T : String}

/-! ## Types in lines -/

/-- A text that is read as a type in front of a blank. -/
structure TypeRead (T : String) (ks : List TokenKind) : Prop where
  lexemes : ∃ x xs, IsLexed T (x :: xs) ks ∧ (Lexeme.mark .openParen).fits x = true ∧
    ∀ ys, Lexeme.chain (x :: xs ++ .blank :: ys) = Lexeme.chain ys
  features : needNothing ks = true

theorem typeRead_of_spelled
    (h : Spelled T ks) :
    TypeRead T ks := by
  refine ⟨⟨.type T ks, [], ⟨by simp [Lexeme.text, Lexeme.type], ?_, ?_⟩, rfl, fun ys => ?_⟩,
    needNothing_of_spelled h⟩
  · simpa using Lexeme.valid_type h
  · simp [Lexeme.allKinds, Lexeme.kinds, Lexeme.type]
  · rw [List.cons_append, List.nil_append, Lexeme.chain_cons_blank]
    rfl

/-- A type with a blank behind it. -/
theorem TypeRead.front
    (h : TypeRead T ks) :
    FrontRead (T ++ " ") ks := by
  obtain ⟨x, xs, hlexed, -, hchain⟩ := h.lexemes
  have hblank : IsLexed " " [.blank] [] := ⟨rfl, by simp, rfl⟩
  refine ⟨⟨x :: xs ++ [.blank], ?_, fun ys => ?_⟩, h.features⟩
  · simpa using hlexed.append hblank
  · rw [List.append_assoc]
    exact hchain ys

/-- The type of an expression that selects a property of a class. -/
theorem typeRead_selector
    {name : String} (h : isIdentifier name = true) :
    TypeRead ("Expression<Func<" ++ name ++ ", TValue>>")
      (genericKinds "Expression" (genericKinds "Func"
        ([.ident name false] ++ ([.punct .comma] ++ [.ident "TValue" false])))) := by
  refine ⟨⟨.word "Expression", [.mark .less, .word "Func", .mark .less, .word name, .mark .comma,
    .blank, .word "TValue", .mark .greater, .mark .greater], ⟨?_, ?_, rfl⟩, rfl, fun ys => ?_⟩, ?_⟩
  · simp [Lexeme.text, Punct.text]
  · simp (disch := decide) [Piece.simpleMarks, isWord_of_mem_fixedWords, isWord_of_isIdentifier h]
  · exact (rfl : _ = Lexeme.chain (.blank :: ys)).trans (Lexeme.chain_blank ys)
  · refine needNothing_of_forall ?_
    simp [genericKinds, isFree,
      ne_of_isIdentifier h (by decide : Naming.keywords.contains "default" = true)]

/-! ## Names with parameters -/

/-- What stands in front of the parenthesis that opens a list of parameters. -/
structure CalleeRead (text : String) (ks : List TokenKind) : Prop where
  lexemes : ∃ xs, IsLexed text xs ks ∧
    ∀ ys, Lexeme.chain (xs ++ .mark .openParen :: ys) = Lexeme.chain (.mark .openParen :: ys)
  features : ∀ js, needNothing js = true →
    needNothing (ks ++ .punct .openParen :: js) = true

theorem calleeRead_word
    {name : String} (h : isWord name = true) :
    CalleeRead name [.ident name false] := by
  refine ⟨⟨[.word name], ⟨by simp [Lexeme.text], by simp [h], rfl⟩, fun _ => rfl⟩, fun js hjs => ?_⟩
  exact needNothing_call name (@needNothing_append [.punct .openParen] js rfl hjs) rfl

theorem calleeRead_generic :
    CalleeRead "GetModelPropertyType<TValue>"
      ([.ident "GetModelPropertyType" false] ++
        [.punct .less, .ident "TValue" false, .punct .greater]) := by
  refine ⟨⟨[.word "GetModelPropertyType", .mark .less, .word "TValue", .mark .greater],
    ⟨by simp [Lexeme.text, Punct.text], ?_, rfl⟩, fun _ => rfl⟩, fun js hjs => ?_⟩
  · simp (disch := decide) [Piece.simpleMarks, isWord_of_mem_fixedWords]
  · exact needNothing_append rfl (@needNothing_append [.punct .openParen] js rfl hjs)

namespace CalleeRead

variable {callee : String}

/-- A list of parameters in front of its first parameter, which is extended. -/
theorem extended
    (h : CalleeRead callee ks) :
    FrontRead (callee ++ "(this ") (ks ++ [.punct .openParen, .ident "this" false]) := by
  obtain ⟨xs, hxs, hchain⟩ := h.lexemes
  have hthis : IsLexed "(this " [.mark .openParen, .word "this", .blank]
      [.punct .openParen, .ident "this" false] :=
    ⟨rfl, by simp (disch := decide) [Piece.simpleMarks, isWord_of_mem_fixedWords], rfl⟩
  refine ⟨⟨_, hxs.append hthis, fun ys => ?_⟩, h.features _ rfl⟩
  rw [List.append_assoc]
  exact (hchain _).trans ((rfl : _ = Lexeme.chain (.blank :: ys)).trans (Lexeme.chain_blank ys))

/-- A list of parameters in front of the name of its first parameter. -/
theorem type
    (h : CalleeRead callee ks) (htype : TypeRead T js) :
    FrontRead (callee ++ ("(" ++ (T ++ " "))) (ks ++ .punct .openParen :: js) := by
  obtain ⟨xs, hxs, hchain⟩ := h.lexemes
  obtain ⟨y, ys, hys, hfits, hychain⟩ := htype.lexemes
  have hblank : IsLexed " " [.blank] [] := ⟨rfl, by simp, rfl⟩
  have hopen : IsLexed "(" [.mark .openParen] [.punct .openParen] :=
    ⟨rfl, by simp [Piece.simpleMarks], rfl⟩
  have hall := hxs.append (hopen.append (hys.append hblank))
  rw [List.append_nil] at hall
  refine ⟨⟨_, hall, fun zs => ?_⟩, h.features _ htype.features⟩
  rw [List.append_assoc]
  have hrest : Lexeme.chain (y :: (ys ++ [.blank] ++ zs)) = Lexeme.chain zs := by
    simpa using hychain zs
  exact (hchain _).trans ((Lexeme.chain_of_fits hfits _).trans hrest)

end CalleeRead

/-- The keyword of a parameter that is extended. -/
def extensionWords (isExtended : Bool) : List String :=
  if isExtended then ["this"] else []

/-- Parameters of generated members, of which there is one at most. -/
inductive ParametersRead (version : LanguageVersion) : List Parameter → List TokenKind → Prop
  | none : ParametersRead version [] [.punct .openParen, .punct .closeParen]
  | one (p : Parameter) (js : List TokenKind) (type : TypeRead p.type js)
      (reads : ReadsType version js anyResult) (head : startsNone parameterWords js.head?)
      (name : isWord p.name = true) (default : p.name ≠ "default") :
      ParametersRead version [p] (parameterKinds (extensionWords p.isExtended) js p.name)

namespace ParametersRead

variable {ps : List Parameter}

theorem exists_tail
    (h : ParametersRead version ps ks) :
    ∃ js, ks = .punct .openParen :: js := by
  cases h <;> exact ⟨_, rfl⟩

theorem extensionWords_subset
    (isExtended : Bool) :
    ∀ w ∈ extensionWords isExtended, w ∈ parameterModifiers := by
  cases isExtended <;> decide

theorem reads
    (h : ParametersRead version ps ks) :
    Reads version parameters ks anything anyResult := by
  cases h with
  | none => exact reads_parameters_nil version
  | one p js _ hreads hhead =>
    exact (reads_parameters (extensionWords_subset _) hreads hhead p.name).mono fun _ _ => trivial

/-- A name with parameters, and what stands behind them. -/
theorem lineRead
    (h : ParametersRead version ps ks) {callee rest : String} {cs ms : List TokenKind}
    {ys : List Lexeme}
    (hcallee : CalleeRead callee cs) (hrest : IsLexed rest ys ms)
    (hms : needNothing ms = true) (hchain : Lexeme.chain (.mark .closeParen :: ys) = true) :
    LineRead (callee ++ ("(" ++ (", ".intercalate (ps.map (·.text)) ++ (")" ++ rest))))
      (cs ++ (ks ++ ms)) := by
  have hclose : IsLexed ")" [.mark .closeParen] [.punct .closeParen] :=
    ⟨rfl, by simp [Piece.simpleMarks], rfl⟩
  cases h with
  | none =>
    obtain ⟨xs, hxs, hxchain⟩ := hcallee.lexemes
    have hopen : IsLexed "(" [.mark .openParen] [.punct .openParen] :=
      ⟨rfl, by simp [Piece.simpleMarks], rfl⟩
    refine ⟨⟨_, hxs.append (hopen.append (hclose.append hrest)), ?_⟩,
      hcallee.features _ (@needNothing_append [.punct .closeParen] _ rfl hms)⟩
    exact (hxchain _).trans ((Lexeme.chain_of_fits rfl _).trans hchain)
  | one p js htype _ _ hname hdefault =>
    have hword : IsLexed p.name [.word p.name] [.ident p.name false] :=
      ⟨by simp [Lexeme.text], by simp [hname], rfl⟩
    have hend : LineRead (p.name ++ (")" ++ rest)) (.ident p.name false :: .punct .closeParen :: ms) := by
      refine ⟨⟨_, hword.append (hclose.append hrest), ?_⟩, ?_⟩
      · exact (Lexeme.chain_of_fits rfl _).trans hchain
      · exact @needNothing_append [.ident p.name false] _
          (needNothing_of_forall (by simp [isFree, hdefault]))
          (@needNothing_append [.punct .closeParen] _ rfl hms)
    have hsingle : ", ".intercalate ([p].map (·.text)) = p.text := rfl
    rw [hsingle]
    cases hextended : p.isExtended with
    | false =>
      have hline := (hcallee.type htype).line hend
      have htext : p.text = p.type ++ " " ++ p.name := by
        simp [Parameter.text, hextended]
      rw [htext]
      simpa [parameterKinds, extensionWords, String.append_assoc] using hline
    | true =>
      have hline := (hcallee.extended.append htype.front).line hend
      have htext : callee ++ ("(" ++ (p.text ++ (")" ++ rest))) =
          callee ++ "(this " ++ (p.type ++ " ") ++ (p.name ++ (")" ++ rest)) := by
        simp [← String.toList_inj, Parameter.text, hextended]
      rw [htext]
      simpa only [parameterKinds, extensionWords, if_true, wordKinds_cons, wordKinds_nil,
        List.cons_append, List.nil_append, List.append_assoc] using hline

end ParametersRead

/-! ## Bodies -/

theorem lineRead_openBrace : LineRead "\x7b" [.punct .openBrace] :=
  ⟨⟨[.mark .openBrace], ⟨rfl, by simp [Piece.simpleMarks], rfl⟩, rfl⟩, rfl⟩

theorem lineRead_closeBrace : LineRead "\x7d" [.punct .closeBrace] :=
  ⟨⟨[.mark .closeBrace], ⟨rfl, by simp [Piece.simpleMarks], rfl⟩, rfl⟩, rfl⟩

/-- A method with the expression that it returns. -/
theorem linesRead_method
    {head value : String} (h : LineRead ("\t\t" ++ head) ks) (hvalue : ExpressionRead value js) :
    LinesRead (l.method head value) (ks ++ bodyKinds l.expressionBodies js) := by
  have hnothing : IsLexed "" [] [] := ⟨rfl, nofun, rfl⟩
  have hline := hvalue.line hnothing rfl rfl
  rw [String.append_empty] at hline
  unfold Layout.method bodyKinds
  cases l.expressionBodies with
  | true =>
    have harrow : FrontRead "\t\t\t=> " [.punct .arrow] :=
      ⟨⟨[.tab, .tab, .tab, .arrow, .blank], ⟨by simp [Lexeme.text], by simp, rfl⟩, by simp [Lexeme.fits]⟩, rfl⟩
    have hbody := (harrow.line hline).linesRead
    simpa [String.append_assoc] using h.linesRead.append hbody
  | false =>
    have hopen := FrontRead.tabs.line lineRead_openBrace
    have hclose := FrontRead.tabs.line lineRead_closeBrace
    have hreturn : FrontRead "\t\t\treturn " [.ident "return" false] :=
      ⟨⟨[.tab, .tab, .tab, .word "return", .blank], ⟨by simp [Lexeme.text],
        by simp (disch := decide) [isWord_of_mem_fixedWords], rfl⟩, fun ys => by
          simp [Lexeme.fits]⟩, rfl⟩
    have hbody := (hopen.linesRead.append (hreturn.line hline).linesRead).append hclose.linesRead
    simpa [String.append_assoc] using h.linesRead.append hbody

/-- The tokens of a property with the expression that it gets. -/
def propertyBodyKinds (arrow : Bool) (ks : List TokenKind) : List TokenKind :=
  if arrow then bodyKinds true ks
  else [.punct .openBrace] ++ ((.ident "get" false :: bodyKinds false ks) ++ [.punct .closeBrace])

/-- The end of a line with the name of a member. -/
theorem lineRead_name
    {n : String} (h : isWord n = true) (hdefault : n ≠ "default") :
    LineRead n [.ident n false] :=
  ⟨⟨[.word n], ⟨by simp [Lexeme.text], by simp [h], rfl⟩, rfl⟩,
    needNothing_of_forall (by simp [isFree, hdefault])⟩

/-- A property with the expression that it gets. -/
theorem linesRead_property
    {front n value : String} (h : FrontRead front ks) (hn : isWord n = true) (hdefault : n ≠ "default")
    (hvalue : ExpressionRead value js) :
    LinesRead
      (if l.expressionBodies then ["\t\t" ++ front ++ n ++ " => " ++ value ++ ";"]
      else
        ["\t\t" ++ front ++ n, "\t\t\x7b", "\t\t\tget \x7b return " ++ value ++ "; \x7d",
          "\t\t\x7d"])
      (ks ++ ([.ident n false] ++ propertyBodyKinds l.expressionBodies js)) := by
  unfold propertyBodyKinds bodyKinds
  cases l.expressionBodies with
  | true =>
    have hnothing : IsLexed "" [] [] := ⟨rfl, nofun, rfl⟩
    have harrow : FrontRead "=> " [.punct .arrow] :=
      ⟨⟨[.arrow, .blank], ⟨by simp [Lexeme.text], by simp, rfl⟩, by simp [Lexeme.fits]⟩, rfl⟩
    have hline := hvalue.line hnothing rfl rfl
    have hall := ((FrontRead.tabs.append h).append (.word hn hdefault)).append harrow
    have htext : "\t\t" ++ front ++ n ++ " => " ++ value ++ ";" =
        "\t\t" ++ front ++ (n ++ " ") ++ "=> " ++ (value ++ (";" ++ "")) := by
      simp [← String.toList_inj]
    rw [if_pos rfl, htext]
    simpa using (hall.line hline).linesRead
  | false =>
    have hopen := FrontRead.tabs.line lineRead_openBrace
    have hclose := FrontRead.tabs.line lineRead_closeBrace
    have hget : FrontRead "\t\t\tget \x7b return "
        [.ident "get" false, .punct .openBrace, .ident "return" false] :=
      ⟨⟨[.tab, .tab, .tab, .word "get", .blank, .mark .openBrace, .blank, .word "return", .blank],
        ⟨by simp [Lexeme.text, Punct.text],
          by simp (disch := decide) [isWord_of_mem_fixedWords, Piece.simpleMarks], rfl⟩, fun ys => by
          simp [Lexeme.fits]⟩, rfl⟩
    have hend : IsLexed " \x7d" [.blank, .mark .closeBrace] [.punct .closeBrace] :=
      ⟨rfl, by simp [Piece.simpleMarks], rfl⟩
    have hname := (FrontRead.tabs.append h).line (lineRead_name hn hdefault)
    have hvalueLine := hget.line (hvalue.line hend rfl rfl)
    have hall := ((hname.linesRead.append hopen.linesRead).append hvalueLine.linesRead).append
      hclose.linesRead
    have htext : "\t\t\tget \x7b return " ++ value ++ "; \x7d" =
        "\t\t\tget \x7b return " ++ (value ++ (";" ++ " \x7d")) := by
      simp [← String.toList_inj]
    rw [if_neg Bool.false_ne_true, htext]
    simpa using hall

/-! ## Members -/

/-- The modifiers of generated members. -/
def memberModifiers : List String :=
  ["public", "new", "static", "const"]

theorem frontRead_modifiers
    {modifiers : List String} (h : modifiers ⊆ memberModifiers) :
    FrontRead (String.join (modifiers.map (· ++ " "))) (wordKinds modifiers) := by
  have hwords : ∀ v ∈ memberModifiers, isWord v = true ∧ v ≠ "default" := by decide
  exact .words fun v hv => hwords v (h hv)

/-- What stands in front of the name of a member. -/
theorem frontRead_front
    {w : WrittenMember} (hmodifiers : w.modifiers ⊆ memberModifiers) (htype : w.type = some T)
    (h : TypeRead T ks) :
    FrontRead w.front (wordKinds w.modifiers ++ ks) := by
  have hfront : w.front = String.join (w.modifiers.map (· ++ " ")) ++ (T ++ " ") := by
    rw [WrittenMember.front, htype, Option.toList_some, List.map_append, String.join_append]
    simp [String.join]
  rw [hfront]
  exact (frontRead_modifiers hmodifiers).append h.front

/-- A member that is read back as one, with the types of its parameters if it is a constructor. -/
def MemberRead
    (l : Layout) (version : LanguageVersion) (typeName : String) (w : WrittenMember)
    (constructors : List (List TypeName)) : Prop :=
  ∃ js, LinesRead (w.declaration l) (wordKinds w.modifiers ++ js) ∧
    ReadsMember version typeName js constructors

section Forms

variable {w : WrittenMember} {typeName value : String}

theorem memberRead_constant
    (hform : w.form = .constant value) (hmodifiers : w.modifiers ⊆ memberModifiers)
    (htype : w.type = some T) (hT : TypeRead T ks) (hks : ReadsMemberType version ks)
    (hname : isIdentifier w.name = true) (hvalue : ExpressionRead value js)
    (hflat : ∀ k ∈ js, isFlat k = true) :
    MemberRead l version typeName w [] := by
  have hnothing : IsLexed "" [] [] := ⟨rfl, nofun, rfl⟩
  have hassign : FrontRead "= " [.punct .assign] :=
    ⟨⟨[.mark .assign, .blank], ⟨rfl, by simp [Piece.simpleMarks], rfl⟩, by simp [Lexeme.fits]⟩, rfl⟩
  have hdefault : w.name ≠ "default" := ne_of_isIdentifier hname (by decide)
  have hoperator : w.name ≠ "operator" := ne_of_isIdentifier hname (by decide)
  refine ⟨ks ++ ([TokenKind.ident w.name false] ++
      (([TokenKind.punct .assign] ++ js) ++ [TokenKind.punct .semicolon])), ?_,
    readsMember_constant hks hvalue.expression.ne_nil hflat hoperator⟩
  have hfront := (FrontRead.tabs.append (frontRead_front hmodifiers htype hT)).append
    (.word (isWord_of_isIdentifier hname) hdefault)
  have hline := (hfront.append hassign).line (hvalue.line hnothing rfl rfl)
  have htext : "\t\t" ++ w.front ++ w.name ++ " = " ++ value ++ ";" =
      "\t\t" ++ w.front ++ (w.name ++ " ") ++ "= " ++ (value ++ (";" ++ "")) := by
    simp [← String.toList_inj]
  unfold WrittenMember.declaration
  rw [hform]
  simp only [htext]
  simpa using hline.linesRead

theorem memberRead_property
    (hform : w.form = .property (some value)) (hmodifiers : w.modifiers ⊆ memberModifiers)
    (htype : w.type = some T) (hT : TypeRead T ks) (hks : ReadsMemberType version ks)
    (hname : isIdentifier w.name = true) (hvalue : ExpressionRead value js)
    (hversion : l.expressionBodies = true →
      version.supports .expressionBodiedProperty = true) :
    MemberRead l version typeName w [] := by
  have hdefault : w.name ≠ "default" := ne_of_isIdentifier hname (by decide)
  have hoperator : w.name ≠ "operator" := ne_of_isIdentifier hname (by decide)
  refine ⟨ks ++ ([TokenKind.ident w.name false] ++ propertyBodyKinds l.expressionBodies js), ?_, ?_⟩
  · have hlines := linesRead_property (l := l) (frontRead_front hmodifiers htype hT)
      (isWord_of_isIdentifier hname) hdefault hvalue
    unfold WrittenMember.declaration
    rw [hform, ← List.append_assoc]
    exact hlines
  · unfold propertyBodyKinds
    cases harrow : l.expressionBodies with
    | true =>
      have hbody := reads_skipPropertyBody_arrow hvalue.expression (hversion harrow)
      exact readsMember_property hks (hbody.follow_mono fun _ _ => trivial) (.inr rfl) hoperator
    | false =>
      have hbody := @reads_skipBody version js .expressionBodiedAccessor false hvalue.expression nofun
      exact readsMember_property hks (reads_skipPropertyBody hbody) (.inl rfl) hoperator

/-- A property that an interface asks for. -/
theorem memberRead_interfaceProperty
    (hform : w.form = .property none) (hmodifiers : w.modifiers ⊆ memberModifiers)
    (htype : w.type = some T) (hT : TypeRead T ks) (hks : ReadsMemberType version ks)
    (hname : isIdentifier w.name = true) :
    MemberRead l version typeName w [] := by
  have hdefault : w.name ≠ "default" := ne_of_isIdentifier hname (by decide)
  have hoperator : w.name ≠ "operator" := ne_of_isIdentifier hname (by decide)
  have hget : LineRead "\x7b get; \x7d"
      [.punct .openBrace, .ident "get" false, .punct .semicolon, .punct .closeBrace] :=
    ⟨⟨[.mark .openBrace, .blank, .word "get", .mark .semicolon, .blank, .mark .closeBrace],
      ⟨by simp [Lexeme.text, Punct.text],
        by simp (disch := decide) [isWord_of_mem_fixedWords, Piece.simpleMarks], rfl⟩, rfl⟩, rfl⟩
  refine ⟨ks ++ ([TokenKind.ident w.name false] ++ (TokenKind.punct .openBrace ::
      (TokenKind.ident "get" false ::
        ([TokenKind.punct .semicolon] ++ [TokenKind.punct .closeBrace])))), ?_, ?_⟩
  · have hfront := (FrontRead.tabs.append (frontRead_front hmodifiers htype hT)).append
      (.word (isWord_of_isIdentifier hname) hdefault)
    have htext : "\t\t" ++ w.front ++ w.name ++ " \x7b get; \x7d" =
        "\t\t" ++ w.front ++ (w.name ++ " ") ++ "\x7b get; \x7d" := by
      simp [← String.toList_inj]
    unfold WrittenMember.declaration
    rw [hform]
    simp only [htext]
    simpa using (hfront.line hget).linesRead
  · have hbody : Reads version (skipBody .expressionBodiedAccessor) [.punct .semicolon] anything
        anyResult := reads_skipBody_semicolon _
    exact readsMember_property hks (reads_skipPropertyBody hbody) (.inl rfl) hoperator

section Methods

variable {ps : List Parameter} {pks cs : List TokenKind}

/-- The head of a method. -/
theorem lineRead_head
    {generics rest : String} {ys : List Lexeme} {ms : List TokenKind}
    (hmodifiers : w.modifiers ⊆ memberModifiers) (htype : w.type = some T) (hT : TypeRead T ks)
    (hcallee : CalleeRead (w.name ++ generics) cs) (hps : ParametersRead version ps pks)
    (hrest : IsLexed rest ys ms) (hms : needNothing ms = true)
    (hchain : Lexeme.chain (.mark .closeParen :: ys) = true) :
    LineRead
      ("\t\t" ++ (w.front ++ w.name ++ generics ++ "(" ++
        ", ".intercalate (ps.map (·.text)) ++ ")" ++ rest))
      (wordKinds w.modifiers ++ (ks ++ (cs ++ (pks ++ ms)))) := by
  have hline := (FrontRead.tabs.append (frontRead_front hmodifiers htype hT)).line
    (hps.lineRead hcallee hrest hms hchain)
  have htext : "\t\t" ++ (w.front ++ w.name ++ generics ++ "(" ++
      ", ".intercalate (ps.map (·.text)) ++ ")" ++ rest) =
        "\t\t" ++ w.front ++ (w.name ++ generics ++
          ("(" ++ (", ".intercalate (ps.map (·.text)) ++ (")" ++ rest)))) := by
    simp [String.append_assoc]
  rw [htext]
  simpa using hline

theorem memberRead_method
    (hform : w.form = .method "" ps (some value)) (hmodifiers : w.modifiers ⊆ memberModifiers)
    (htype : w.type = some T) (hT : TypeRead T ks) (hks : ReadsMemberType version ks)
    (hname : isWord w.name = true) (hps : ParametersRead version ps pks)
    (hvalue : ExpressionRead value js)
    (hversion : l.expressionBodies = true → version.supports .expressionBodiedMethod = true) :
    MemberRead l version typeName w [] := by
  have hnothing : IsLexed "" [] [] := ⟨rfl, nofun, rfl⟩
  have hcallee : CalleeRead (w.name ++ "") [.ident w.name false] := by
    rw [String.append_empty]
    exact calleeRead_word hname
  obtain ⟨tail, rfl⟩ := hps.exists_tail
  refine ⟨ks ++ ([TokenKind.ident w.name false] ++ ((TokenKind.punct .openParen :: tail) ++
    bodyKinds l.expressionBodies js)), ?_, ?_⟩
  · have hhead := lineRead_head hmodifiers htype hT hcallee hps hnothing rfl rfl
    rw [String.append_empty] at hhead
    unfold WrittenMember.declaration
    rw [hform]
    simpa using linesRead_method (l := l) hhead hvalue
  · obtain ⟨p, hp⟩ : ∃ p, (bodyKinds l.expressionBodies js).head? = some (.punct p) := by
      cases l.expressionBodies <;> exact ⟨_, rfl⟩
    exact readsMember_method hks hps.reads (reads_skipBody hvalue.expression hversion) hp w.name

/-- A method that an interface asks for. -/
theorem memberRead_interfaceMethod
    (hform : w.form = .method "" ps none) (hmodifiers : w.modifiers ⊆ memberModifiers)
    (htype : w.type = some T) (hT : TypeRead T ks) (hks : ReadsMemberType version ks)
    (hname : isWord w.name = true) (hps : ParametersRead version ps pks) :
    MemberRead l version typeName w [] := by
  have hsemicolon : IsLexed ";" [.mark .semicolon] [.punct .semicolon] :=
    ⟨rfl, by simp [Piece.simpleMarks], rfl⟩
  have hcallee : CalleeRead (w.name ++ "") [.ident w.name false] := by
    rw [String.append_empty]
    exact calleeRead_word hname
  obtain ⟨tail, rfl⟩ := hps.exists_tail
  refine ⟨ks ++ ([TokenKind.ident w.name false] ++
    ((TokenKind.punct .openParen :: tail) ++ [TokenKind.punct .semicolon])), ?_, ?_⟩
  · have hhead := lineRead_head hmodifiers htype hT hcallee hps hsemicolon rfl rfl
    unfold WrittenMember.declaration
    rw [hform]
    simpa [String.append_assoc] using hhead.linesRead
  · exact readsMember_method hks hps.reads (reads_skipBody_semicolon _) rfl w.name

/-- The method with a type parameter that every class has. -/
theorem memberRead_genericMethod
    (hform : w.form = .method "<TValue>" ps (some value))
    (hmodifiers : w.modifiers ⊆ memberModifiers) (htype : w.type = some T) (hT : TypeRead T ks)
    (hks : ReadsMemberType version ks) (hname : w.name = "GetModelPropertyType")
    (hps : ParametersRead version ps pks) (hvalue : ExpressionRead value js)
    (hversion : l.expressionBodies = true → version.supports .expressionBodiedMethod = true) :
    MemberRead l version typeName w [] := by
  have hnothing : IsLexed "" [] [] := ⟨rfl, nofun, rfl⟩
  have hcallee : CalleeRead (w.name ++ "<TValue>") ([TokenKind.ident w.name false] ++
      [TokenKind.punct .less, .ident "TValue" false, .punct .greater]) := by
    rw [hname]
    exact calleeRead_generic
  obtain ⟨tail, rfl⟩ := hps.exists_tail
  refine ⟨ks ++ ([TokenKind.ident w.name false] ++
    ([TokenKind.punct .less, .ident "TValue" false, .punct .greater] ++
      ((.punct .openParen :: tail) ++ bodyKinds l.expressionBodies js))), ?_, ?_⟩
  · have hhead := lineRead_head hmodifiers htype hT hcallee hps hnothing rfl rfl
    rw [String.append_empty] at hhead
    unfold WrittenMember.declaration
    rw [hform]
    simpa using linesRead_method (l := l) hhead hvalue
  · obtain ⟨p, hp⟩ : ∃ p, (bodyKinds l.expressionBodies js).head? = some (.punct p) := by
      cases l.expressionBodies <;> exact ⟨_, rfl⟩
    exact readsMember_genericMethod hks (by decide) hps.reads
      (reads_skipBody hvalue.expression hversion) hp (by rw [hname]; decide)

end Methods

/-- A word that is no keyword and starts no record can be the name of a constructor. -/
theorem constructorName
    {n : String} (h : isIdentifier n = true) (hrecord : n ≠ "record") :
    n ∉ memberWords ∧ n ∉ typeWords ∧ (n ∈ modifierWords → n ∈ contextualModifiers) := by
  have hmember : ∀ v ∈ memberWords, Naming.keywords.contains v = true := by decide
  have htype : ∀ v ∈ typeWords, Naming.keywords.contains v = true ∨ v = "record" := by decide
  have hmodifier : ∀ v ∈ modifierWords, Naming.keywords.contains v = true ∨ v ∈ contextualModifiers :=
    by decide
  refine ⟨fun hn => ne_of_isIdentifier h (hmember n hn) rfl, fun hn => ?_, fun hn => ?_⟩
  · exact (htype n hn).elim (fun hk => ne_of_isIdentifier h hk rfl) hrecord
  · exact (hmodifier n hn).resolve_left fun hk => ne_of_isIdentifier h hk rfl

/-- A constructor that hands its parameter to the base class. -/
theorem memberRead_constructor
    {type : String} {name : TypeName}
    (hform : w.form = .constructor ⟨false, type, "content"⟩)
    (hmodifiers : w.modifiers ⊆ memberModifiers) (htype : w.type = none)
    (hname : isIdentifier w.name = true) (hrecord : w.name ≠ "record") (hT : TypeRead type ks)
    (hreads : ReadsType version ks (· = name)) (hhead : startsNone parameterWords ks.head?) :
    MemberRead l version w.name w [[name]] := by
  have hnothing : IsLexed "" [] [] := ⟨rfl, by simp, rfl⟩
  have hps : ParametersRead version [⟨false, type, "content"⟩] (parameterKinds [] ks "content") :=
    .one _ ks hT hreads.any hhead (by decide : isWord "content" = true)
      (by decide : "content" ≠ "default")
  refine ⟨[TokenKind.ident w.name false] ++ (parameterKinds [] ks "content" ++
    (chainKinds "content" ++ [TokenKind.punct .openBrace, .punct .closeBrace])), ?_, ?_⟩
  · have hfront : w.front = String.join (w.modifiers.map (· ++ " ")) := by
      rw [WrittenMember.front, htype, Option.toList_none, List.append_nil]
    have hhead := (FrontRead.tabs.append (frontRead_modifiers hmodifiers)).line
      (hps.lineRead (calleeRead_word (isWord_of_isIdentifier hname)) hnothing rfl rfl)
    have hchain : LineRead "\t\t\t: base(content)" (chainKinds "content") :=
      ⟨⟨[.tab, .tab, .tab, .mark .colon, .blank, .word "base", .mark .openParen, .word "content",
        .mark .closeParen], ⟨by simp [Lexeme.text, Punct.text],
          by simp (disch := decide) [isWord_of_mem_fixedWords, Piece.simpleMarks], rfl⟩, rfl⟩, rfl⟩
    have hblock : LineRead "\t\t\x7b \x7d" [.punct .openBrace, .punct .closeBrace] :=
      ⟨⟨[.tab, .tab, .mark .openBrace, .blank, .mark .closeBrace],
        ⟨by simp [Lexeme.text, Punct.text], by simp [Piece.simpleMarks], rfl⟩, rfl⟩, rfl⟩
    have hlines := (hhead.linesRead.append hchain.linesRead).append hblock.linesRead
    have htext : "\t\t" ++ w.front ++ w.name ++ "(" ++
        (⟨false, type, "content"⟩ : Parameter).text ++ ")" =
          "\t\t" ++ String.join (w.modifiers.map (· ++ " ")) ++ (w.name ++ ("(" ++
            (", ".intercalate ([(⟨false, type, "content"⟩ : Parameter)].map (·.text)) ++
              (")" ++ "")))) := by
      rw [hfront, show ", ".intercalate ([(⟨false, type, "content"⟩ : Parameter)].map (·.text)) =
        (⟨false, type, "content"⟩ : Parameter).text from rfl]
      simp [String.append_assoc]
    unfold WrittenMember.declaration
    rw [hform]
    simp only [htext]
    simpa using hlines
  · obtain ⟨hmember, hnoType, hmodifier⟩ := constructorName hname hrecord
    have hnoWords : ∀ v ∈ ([] : List String), v ∈ parameterModifiers := by simp
    have hparameters : Reads version parameters (parameterKinds [] ks "content") anything
        (·.map (·.type) = [name]) :=
      (reads_parameters hnoWords hreads hhead "content").mono fun _ h => by
        obtain ⟨_, hp, htype⟩ := h
        rw [hp, List.map_singleton, htype]
    exact readsMember_constructor hmember hnoType hmodifier hparameters "content"

end Forms

/-- The attribute of a member with the alias of a property. -/
theorem lineRead_attribute
    {indent name aliasName : String} (hindent : FrontRead indent [])
    (hname : isWord name = true) (halias : '\n' ∉ aliasName.toList) :
    LineRead (indent ++ ("[" ++ name ++ "(" ++ literal aliasName ++ ")]"))
      (attributeKinds name aliasName) := by
  refine hindent.line ⟨⟨[.mark .openBracket, .word name, .mark .openParen, .literal aliasName,
    .mark .closeParen, .mark .closeBracket], ⟨?_, ?_, ?_⟩, rfl⟩,
    @needNothing_append [.punct .openBracket] _ rfl (needNothing_call name rfl rfl)⟩
  · simp [Lexeme.text, Lexeme.literal, Punct.text]
  · simp [Piece.simpleMarks, hname, Lexeme.valid_literal]
  · simp [Lexeme.allKinds, Lexeme.kinds, Lexeme.literal, literalKinds, halias]

/-- A member with its documentation and its attribute is a piece of the body of a type. -/
theorem MemberRead.exists_part
    {w : WrittenMember} {typeName : String} {constructors : List (List TypeName)}
    (h : MemberRead l version typeName w constructors)
    (hmodifiers : w.modifiers ⊆ memberModifiers)
    (hnotes : ∀ line ∈ w.notes, isNote line = true)
    (himplemented : ∀ aliasName, w.implemented = some aliasName → '\n' ∉ aliasName.toList) :
    ∃ part : BodyPart, LinesRead (w.lines l) part.kinds ∧ ReadsMembers version typeName part ∧
      part.constructors = constructors.map (⟨w.modifiers, ·⟩) := by
  obtain ⟨js, hlines, hreads⟩ := h
  have hwords : ∀ v ∈ memberModifiers, v ∈ modifierWords ∧ v ∉ contextualModifiers := by decide
  have hmodifier : ∀ v ∈ w.modifiers, v ∈ modifierWords := fun v hv => (hwords v (hmodifiers hv)).1
  have hname : ∀ v ∈ w.modifiers, v ∉ contextualModifiers := fun v hv =>
    (hwords v (hmodifiers hv)).2
  have hcomment := LinesRead.notes hnotes
  cases himpl : w.implemented with
  | none =>
    have hmembers := hreads.members (reads_attributeSections_nil version) (.inl rfl) hmodifier hname
    refine ⟨_, ?_, hmembers, rfl⟩
    unfold WrittenMember.lines
    rw [himpl]
    simpa using hcomment.append hlines
  | some aliasName =>
    have hmembers := hreads.members
      (reads_attributeSections version "ImplementPropertyType" aliasName) (.inr rfl) hmodifier hname
    refine ⟨_, ?_, hmembers, rfl⟩
    have hattribute := lineRead_attribute FrontRead.tabs (by decide : isWord "ImplementPropertyType" = true)
      (himplemented aliasName himpl)
    have htext : "\t\t[ImplementPropertyType(" ++ literal aliasName ++ ")]" =
        "\t\t" ++ ("[" ++ "ImplementPropertyType" ++ "(" ++ literal aliasName ++ ")]") := by
      simp [← String.toList_inj]
    unfold WrittenMember.lines
    rw [himpl, Option.toList_some, List.map_singleton, htext]
    simpa using (hcomment.append hattribute.linesRead).append hlines

end Generated
end ContentModels

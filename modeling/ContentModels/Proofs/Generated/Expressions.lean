import ContentModels.Proofs.Generated.Lines

/-!
# Expressions in generated code

The bodies of generated members: the value of a property, read from an object, the call of
a getter, and the calls in the members that every class has.
-/

namespace ContentModels
namespace Generated

open CSharp CSharp.Parse

/-! ## Words -/

/-- The words that stand in generated code whatever the model. -/
def fixedWords : List String :=
  ["this", "that", "Value", "PublishedModelUtility", "GetModelContentType",
    "GetModelPropertyType", "ModelItemType", "ModelTypeAlias", "selector", "public", "new",
    "static", "const", "string", "PublishedItemType", "Content", "Media", "Member", "Element",
    "IPublishedContentType", "IPublishedPropertyType", "Expression", "Func", "TValue", "content",
    "base", "get", "return", "class", "interface", "partial", "namespace", "using",
    "PublishedModel", "ImplementPropertyType"]

theorem isWord_of_mem_fixedWords
    {w : String}
    (h : w ∈ fixedWords) :
    isWord w = true := by
  have hall : fixedWords.all isWord = true := by decide
  exact List.all_eq_true.1 hall w h

theorem ne_default_of_mem_fixedWords
    {w : String}
    (h : w ∈ fixedWords) :
    w ≠ "default" := by
  rintro rfl
  revert h
  decide

/-- What is spelled as a type is no expression by itself, but stands in one. -/
theorem semicolon_notMem_of_spelled
    {text : String} {ks : List TokenKind}
    (h : Spelled text ks) :
    .punct .semicolon ∉ ks := by
  intro hmem
  have := h.kinds _ hmem
  simp [isTypeKind, typeMarks] at this

theorem needNothing_of_spelled
    {text : String} {ks : List TokenKind}
    (h : Spelled text ks) :
    needNothing ks = true := by
  refine needNothing_of_forall fun k hk => ?_
  have hkind := h.kinds k hk
  unfold isTypeKind at hkind
  unfold isFree
  split at hkind <;> simp_all
  rintro rfl
  simp [typeMarks] at hkind

/-! ## Values and calls -/

variable {l : Layout} {p : ModelProperty} {ks : List TokenKind}

/-- The tokens of the value of a property. -/
def valueKinds (target aliasName : String) (ks : List TokenKind) : List TokenKind :=
  [.ident target false, .punct .dot, .ident "Value" false, .punct .less] ++ (ks ++
    [.punct .greater, .punct .openParen, .str aliasName false false, .punct .closeParen])

theorem expressionRead_valueOf
    {target : String}
    (htarget : target ∈ fixedWords) (htype : Spelled (l.shorten p.valueType) ks)
    (halias : '\n' ∉ p.type.aliasName.toList) :
    ExpressionRead (l.valueOf target p) (valueKinds target p.type.aliasName ks) := by
  refine ⟨⟨[.word target, .mark .dot, .word "Value", .mark .less, .type (l.shorten p.valueType) ks,
    .mark .greater, .mark .openParen, .literal p.type.aliasName, .mark .closeParen],
    ⟨?_, ?_, ?_⟩, ?_⟩, ?_, ?_, ?_, ?_⟩
  · simp [Layout.valueOf, Lexeme.text, Lexeme.type, Lexeme.literal, Punct.text]
  · simp (disch := decide) [Piece.simpleMarks, isWord_of_mem_fixedWords,
      isWord_of_mem_fixedWords htarget, Lexeme.valid_type htype, Lexeme.valid_literal]
  · simp [Lexeme.allKinds, Lexeme.kinds, Lexeme.type, Lexeme.literal, literalKinds, halias, valueKinds]
  · intro ys
    rfl
  · refine needNothing_append (needNothing_of_forall ?_)
      (needNothing_append (needNothing_of_spelled htype) rfl)
    simp [isFree, ne_default_of_mem_fixedWords htarget]
  · obtain ⟨_, -, hspells⟩ := htype.spells
    refine (Balanced.of_inert (by simp [isInert, Punct.closer?, Punct.isCloser])).append
      (hspells.balanced.append ?_)
    rfl
  · have := semicolon_notMem_of_spelled htype
    simp [valueKinds, this]
  · simp [valueKinds]

/-- The tokens of a call with words as arguments. -/
def callKinds (name : String) (arguments : List TokenKind) : List TokenKind :=
  [.ident name false] ++ (.punct .openParen :: (arguments ++ [.punct .closeParen]))

theorem isExpression_call
    (name : String) {arguments : List TokenKind} (h : Balanced arguments)
    (hsemicolon : .punct .semicolon ∉ arguments) :
    IsExpression (callKinds name arguments) := by
  refine ⟨?_, ?_, by simp [callKinds]⟩
  · exact (Balanced.of_inert (by simp [isInert])).append (.group rfl h)
  · simp [callKinds, hsemicolon]

theorem needNothing_callKinds
    (name : String) {arguments : List TokenKind} (h : needNothing arguments = true) :
    needNothing (callKinds name arguments) = true :=
  needNothing_call name (needNothing_append rfl (needNothing_append h rfl)) rfl

/-- A getter is called on this object. -/
theorem expressionRead_getter
    {getter : String} (h : isWord getter = true) :
    ExpressionRead (getter ++ "(this)") (callKinds getter [.ident "this" false]) := by
  refine ⟨⟨[.word getter, .mark .openParen, .word "this", .mark .closeParen], ⟨?_, ?_, rfl⟩,
    fun _ => rfl⟩, ?_, ?_⟩
  · simp [Lexeme.text, Punct.text]
  · simp (disch := decide) [Piece.simpleMarks, isWord_of_mem_fixedWords, h]
  · exact needNothing_callKinds _ rfl
  · exact isExpression_call _ (.of_inert (by simp [isInert])) (by simp)

/-- A getter of a mixin is called on this object. -/
theorem expressionRead_mixin
    {mixin getter : String}
    (hmixin : isIdentifier mixin = true) (h : isWord getter = true) :
    ExpressionRead (mixin ++ "." ++ getter ++ "(this)")
      ([.ident mixin false, .punct .dot] ++ callKinds getter [.ident "this" false]) := by
  have hcall := isExpression_call getter (.of_inert (by simp [isInert]))
    (by simp : .punct .semicolon ∉ [TokenKind.ident "this" false])
  refine ⟨⟨[.word mixin, .mark .dot, .word getter, .mark .openParen, .word "this",
    .mark .closeParen], ⟨?_, ?_, rfl⟩, fun _ => rfl⟩, ?_, ?_, ?_, ?_⟩
  · simp [Lexeme.text, Punct.text]
  · simp (disch := decide) [Piece.simpleMarks, isWord_of_mem_fixedWords, h,
      isWord_of_isIdentifier hmixin]
  · refine needNothing_append (needNothing_of_forall ?_) (needNothing_callKinds _ rfl)
    simp [isFree, ne_of_isIdentifier hmixin (by decide : Naming.keywords.contains "default" = true)]
  · exact (Balanced.of_inert (by simp [isInert, Punct.closer?, Punct.isCloser])).append hcall.balanced
  · simpa using hcall.semicolon
  · simp

/-- A method of the helper class is called. -/
theorem expressionRead_contentType :
    ExpressionRead "PublishedModelUtility.GetModelContentType(ModelItemType, ModelTypeAlias)"
      ([.ident "PublishedModelUtility" false, .punct .dot] ++
        callKinds "GetModelContentType" [.ident "ModelItemType" false, .punct .comma,
          .ident "ModelTypeAlias" false]) := by
  refine ⟨⟨[.word "PublishedModelUtility", .mark .dot, .word "GetModelContentType",
    .mark .openParen, .word "ModelItemType", .mark .comma, .blank, .word "ModelTypeAlias",
    .mark .closeParen], ⟨?_, ?_, rfl⟩, fun _ => rfl⟩, rfl, rfl, ?_, ?_⟩
  · simp [Lexeme.text, Punct.text]
  · simp (disch := decide) [Piece.simpleMarks, isWord_of_mem_fixedWords]
  · simp [callKinds]
  · simp

theorem expressionRead_propertyType :
    ExpressionRead "PublishedModelUtility.GetModelPropertyType(GetModelContentType(), selector)"
      ([.ident "PublishedModelUtility" false, .punct .dot] ++
        callKinds "GetModelPropertyType" (callKinds "GetModelContentType" [] ++
          [.punct .comma, .ident "selector" false])) := by
  refine ⟨⟨[.word "PublishedModelUtility", .mark .dot, .word "GetModelPropertyType",
    .mark .openParen, .word "GetModelContentType", .mark .openParen, .mark .closeParen,
    .mark .comma, .blank, .word "selector", .mark .closeParen], ⟨?_, ?_, rfl⟩, fun _ => rfl⟩,
    rfl, rfl, ?_, ?_⟩
  · simp [Lexeme.text, Punct.text]
  · simp (disch := decide) [Piece.simpleMarks, isWord_of_mem_fixedWords]
  · simp [callKinds]
  · simp

end Generated
end ContentModels

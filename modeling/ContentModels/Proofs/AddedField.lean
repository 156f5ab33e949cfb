import ContentModels.Proofs.Parsing.Edits

/-!
# Fields that hold a new object

The initialiser of a field is passed over up to the first mark outside all groups that ends an
expression in a list.  A field with a new object of a type is one member more, wherever it is
added to a body, as long as none of these marks stands outside all groups in the name of the
type (`parseUnit_createdField`).  A comma between type arguments does: behind it the next name
is taken for a further field.
-/

namespace ContentModels
namespace CSharp

open Parse

/-- The tokens of a field with a new object of a type, on one line. -/
def createdField (line : Nat) (type : List Token) : List Token :=
  ⟨.ident "object" false, line⟩ :: ⟨.ident "f" false, line⟩ :: ⟨.punct .assign, line⟩ ::
    ⟨.ident "new" false, line⟩ ::
      (type ++ [⟨.punct .openParen, line⟩, ⟨.punct .closeParen, line⟩, ⟨.punct .semicolon, line⟩])

/-- The member that is such a field. -/
def createdMember (line : Nat) : Member :=
  ⟨"f", .field (wordType "object"), [], [], line⟩

namespace Parse

variable {ctx : ParseContext} {type rest : List Token}

/-- The creation of an object is passed over up to the semicolon. -/
theorem skipExpression_creation
    {line : Nat} (hbalanced : Balanced (kindsOf type))
    (hundivided : noneOutside listedExpressionEnds [] (kindsOf type) = true) :
    skipExpression listedExpressionEnds ctx (⟨.ident "new" false, line⟩ ::
      (type ++ [⟨.punct .openParen, line⟩, ⟨.punct .closeParen, line⟩, ⟨.punct .semicolon, line⟩] ++
        rest)) = .ok ((), ⟨.punct .semicolon, line⟩ :: rest) := by
  refine skipExpression_eq_ok.2 ⟨?_, ?_⟩
  · rw [dropToMark, if_neg (by simp [Token.opensGroup]), if_neg (by simp [Token.isOneOf]),
      List.append_assoc, dropToMark_undivided (fun p hp => .inr hp) hbalanced hundivided]
    rfl
  · simp only [List.length_cons, List.length_append, List.length_nil]
    omega

/-- The field behind its type. -/
theorem namedMembers_createdField
    {line : Nat} (hbalanced : Balanced (kindsOf type))
    (hundivided : noneOutside listedExpressionEnds [] (kindsOf type) = true) (object : TypeName) :
    namedMembers object ctx (⟨.ident "f" false, line⟩ :: ⟨.punct .assign, line⟩ ::
      ⟨.ident "new" false, line⟩ ::
        (type ++ [⟨.punct .openParen, line⟩, ⟨.punct .closeParen, line⟩, ⟨.punct .semicolon, line⟩] ++
          rest)) = .ok ([("f", .field object)], rest) := by
  obtain ⟨version, endLine⟩ := ctx
  have hskip := @skipExpression_creation ⟨version, endLine⟩ type rest line hbalanced hundivided
  generalize type ++ _ ++ rest = us at hskip ⊢
  obtain ⟨_, hname, rfl⟩ := @reads_memberName version "f" false endLine [⟨.ident "f" false, line⟩]
    (⟨.punct .assign, line⟩ :: ⟨.ident "new" false, line⟩ :: us) rfl (by simp [endsSegments, isMark])
  have hfields : fieldNames "f" ⟨version, endLine⟩ (⟨.punct .assign, line⟩ ::
      ⟨.ident "new" false, line⟩ :: us) = .ok (["f"], ⟨.punct .semicolon, line⟩ :: rest) := by
    unfold fieldNames
    refine loop_of_done ?_
    simp [bind_of_ok hskip, -bind_pure_comp]
  rw [List.singleton_append] at hname
  unfold namedMembers typeParameters
  rw [bind_of_ok hname]
  simp [bind_of_ok hfields, -bind_pure_comp]

/-- The name and the kind of the field. -/
theorem memberKinds_createdField
    {line : Nat} {name : String} (hbalanced : Balanced (kindsOf type))
    (hundivided : noneOutside listedExpressionEnds [] (kindsOf type) = true) :
    memberKinds name ctx (createdField line type ++ rest) =
      .ok ([("f", .field (wordType "object"))], rest) := by
  obtain ⟨version, endLine⟩ := ctx
  have hnamed := @namedMembers_createdField ⟨version, endLine⟩ type rest line hbalanced hundivided
  unfold createdField
  simp only [List.cons_append]
  generalize type ++ _ ++ rest = us at hnamed ⊢
  obtain ⟨_, htype, rfl⟩ := (spellsType_word "object").reads version endLine
    [⟨.ident "object" false, line⟩] (⟨.ident "f" false, line⟩ :: ⟨.punct .assign, line⟩ ::
      ⟨.ident "new" false, line⟩ :: us) rfl (by simp [endsType, isMark])
  rw [List.singleton_append] at htype
  unfold memberKinds
  simp [TokenKind.keyword?, TokenKind.ident?, bind_of_ok htype, hnamed, -bind_pure_comp]

/-- The step over the field adds it to the members and goes on behind it. -/
theorem bodyStep_createdField
    {line : Nat} {site : TypeSite} (hbalanced : Balanced (kindsOf type))
    (hundivided : noneOutside listedExpressionEnds [] (kindsOf type) = true) :
    bodyStep site ([], []) ctx (createdField line type ++ rest) =
      .ok (.again ([createdMember line], []), rest) := by
  have hhead : headKind (createdField line type ++ rest) = some (.ident "object" false) := rfl
  have hmodifiers : modifiers ctx (createdField line type ++ rest) =
      .ok ([], createdField line type ++ rest) := by
    unfold modifiers createdField
    rw [List.cons_append, splitModifiers]
    rfl
  refine (bodyStep_member (by simp [hhead, StartsPart])
    (attributeSections_of_head (by simp [hhead])) hmodifiers
    (seesType_eq_ok.2 ⟨by rw [hhead]; rfl, rfl⟩)).2 ?_
  exact ⟨_, memberKinds_createdField hbalanced hundivided, rfl⟩

/-- A body with the field in front is a body with one member more. -/
theorem readBody_createdField
    {line : Nat} {site : TypeSite} {y : List Member × List TypeDeclaration} {mid : List Token}
    (hbalanced : Balanced (kindsOf type))
    (hundivided : noneOutside listedExpressionEnds [] (kindsOf type) = true)
    (hread : readBody site ctx rest = .ok (y, mid)) :
    readBody site ctx (createdField line type ++ rest) = .ok ((createdMember line :: y.1, y.2), mid) := by
  have hstep := @bodyStep_createdField ctx type rest line site hbalanced hundivided
  exact loop_of_again hstep (EatsAgain.shorter hstep)
    (loop_bodyStep_eq_ok.2 ⟨y, hread, rfl⟩)

end Parse

theorem isBounded_createdField
    (line : Nat) (type : List Token) :
    IsBounded (createdField line type) :=
  (IsBounded.single (t := ⟨.punct .semicolon, line⟩) rfl).of_suffix
    ⟨⟨.ident "object" false, line⟩ :: ⟨.ident "f" false, line⟩ :: ⟨.punct .assign, line⟩ ::
      ⟨.ident "new" false, line⟩ ::
        (type ++ [⟨.punct .openParen, line⟩, ⟨.punct .closeParen, line⟩]),
      by simp [createdField]⟩

theorem checkTokens_createdField
    {version : LanguageVersion} {type : List Token} {line : Nat}
    (htype : checkTokens version type = .ok ()) :
    checkTokens version (createdField line type) = .ok () :=
  @checkTokens_replaced version type [] _ (by rwa [List.append_nil]) rfl
    fun k => neededFeatures_subset k _

/--
A field with a new object of a type may be added at any place in a body: the file is still read,
with one member more at this place and all others as they were.

Places are where the reader goes from one member to the next.  A member that is misread takes
those behind it along: `event H I.Changed { add { } remove { } }` is read as an event `I` that
ends with the next semicolon outside all groups, and no place up to there is a `FilePlace`.
-/
theorem parseUnit_createdField
    {file source source' : String} {version : LanguageVersion} {unit : CompilationUnit}
    {comments : List Char} {pre type post : List Token} {site : TypeSite} {i j line : Nat}
    {ctx : ParseContext} {name : TypeName}
    (hsource : tokenize source = .ok ⟨pre ++ post, comments⟩)
    (hsource' : tokenize source' = .ok ⟨pre ++ (createdField line type ++ post), comments⟩)
    (hparse : parseUnit file source version = .ok unit)
    (hplace : FilePlace (fileContext version (pre ++ post)) false "" [] (pre ++ post) site post i j)
    (htype : typeName ctx type = .ok (name, [])) (hversion : checkTokens version type = .ok ())
    (hundivided : noneOutside listedExpressionEnds [] (kindsOf type) = true) :
    parseUnit file source' version =
      .ok { unit with types := editMembers i j (createdMember line :: ·) unit.types } := by
  have hbalanced := (spellsType_of_typeName htype).balanced
  refine parseUnit_edited hsource hsource' hparse hplace ?_ ?_ ?_ ?_
  · exact ⟨nofun, nofun⟩
  · intro hpost
    rw [List.getLast?_append_of_ne_nil _ hpost]
  · exact fun hcheck => (checkTokens_bounded (isBounded_createdField line type) post).2
      ⟨checkTokens_createdField hversion, hcheck⟩
  · exact fun y mid hread => readBody_createdField hbalanced hundivided hread

/-- A field with a list of lists behind another field of a class. -/
theorem parseUnit_createdField_lists :
    parseUnit "A.cs" "class A { int x; object f = new N.List<List<int>>(); }" .standard =
      (parseUnit "A.cs" "class A { int x; }" .standard).map
        (fun unit => { unit with types := editMembers 0 1 (createdMember 1 :: ·) unit.types }) ∧
    (parseUnit "A.cs" "class A { int x; }" .standard).isOk = true := by
  let pre : List Token := [⟨.ident "class" false, 1⟩, ⟨.ident "A" false, 1⟩, ⟨.punct .openBrace, 1⟩,
    ⟨.ident "int" false, 1⟩, ⟨.ident "x" false, 1⟩, ⟨.punct .semicolon, 1⟩]
  let post : List Token := [⟨.punct .closeBrace, 1⟩]
  let type : List Token := [⟨.ident "N" false, 1⟩, ⟨.punct .dot, 1⟩, ⟨.ident "List" false, 1⟩,
    ⟨.punct .less, 1⟩, ⟨.ident "List" false, 1⟩, ⟨.punct .less, 1⟩, ⟨.ident "int" false, 1⟩,
    ⟨.punct .greater, 1⟩, ⟨.punct .greater, 1⟩]
  have hok : (parseUnit "A.cs" "class A { int x; }" .standard).isOk = true := by decide +kernel
  obtain ⟨unit, hparse⟩ : ∃ unit, parseUnit "A.cs" "class A { int x; }" .standard = .ok unit := by
    cases h : parseUnit "A.cs" "class A { int x; }" .standard with
    | ok unit => exact ⟨unit, rfl⟩
    | error failure =>
      rw [h] at hok
      cases hok
  have hplace : FilePlace (fileContext .standard (pre ++ post)) false "" [] (pre ++ post)
      ⟨"A", ⟨"", ["A"], []⟩⟩ post 0 1 :=
    @FilePlace.inType _ _ _ _ _ _ ((pre ++ post).drop 3) _ ⟨"", [], .empty⟩
      ⟨.classType, "A", 0, "", [], [], [], [], [], [], 1⟩ _ _ _ (.refl _ _) (by decide +kernel)
      (@BodyPlace.here _ _ _ _ ([⟨"x", .field (wordType "int"), [], [], 1⟩], [])
        (.again (by decide +kernel) (.refl _ _)))
  rw [hparse]
  refine ⟨?_, hparse ▸ hok⟩
  exact @parseUnit_createdField "A.cs" _ _ _ _ [] pre type post _ 0 1 1 ⟨.standard, 1⟩ _
    (by decide +kernel) (by decide +kernel) hparse hplace
    (show typeName ⟨.standard, 1⟩ type = .ok (⟨"N.List<List<int>>", ["N", "List"], 1, false⟩, []) by
      decide +kernel)
    (by decide +kernel) (by decide +kernel)

end CSharp
end ContentModels

import ContentModels.Proofs.Parsing.Bodies

/-!
# Members of namespaces

The members of a namespace are read like the parts of a body, without bounds on nesting here as
well: `readNamespace` goes over them, and where the front of a type or of a namespace comes next,
the part that it goes over is this front and what is read of the braces behind it.
-/

namespace ContentModels
namespace CSharp
namespace Parse

/-- A state in which something else has been declared in front. -/
def NamespaceState.behind (c : Contents) (s : NamespaceState) : NamespaceState :=
  { s with contents := c ++ s.contents }

variable {ctx : ParseContext} {ts body rest : List Token}

-- A reader with many branches is a large instance.
set_option synthInstance.maxSize 100000

/-- One step in reading the members of a namespace. -/
def namespaceStep (inBlock : Bool) (s : NamespaceState) : Parse (Round NamespaceState Contents) :=
  nested fun depth => namespaceRound depth inBlock s

/-- Read the members of a namespace, in a block behind its brace. -/
def readNamespace (inBlock : Bool) (name : String) (scope : List UsingDirective) : Parse Contents :=
  loop ⟨name, scope, .empty⟩ (namespaceStep inBlock)

section

variable (inBlock : Bool) (s : NamespaceState)

instance : Drops (namespaceStep inBlock s) :=
  inferInstanceAs (Drops (nested fun depth => namespaceRound depth inBlock s))

instance : EatsAgain (namespaceStep inBlock s) :=
  inferInstanceAs (EatsAgain (nested fun depth => namespaceRound depth inBlock s))

instance : Carries (namespaceStep inBlock s) :=
  inferInstanceAs (Carries (nested fun depth => namespaceRound depth inBlock s))

instance : Ends (namespaceStep inBlock s) :=
  inferInstanceAs (Ends (nested fun depth => namespaceRound depth inBlock s))

end

/-- Under a bound on nesting that the tokens meet, members are read as without one. -/
theorem namespaceMembersAt_eq_ok
    {depth : Nat} {name : String} {scope : List UsingDirective} {inBlock : Bool} {c : Contents}
    (h : ts.length < depth) :
    namespaceMembersAt depth name scope inBlock ctx ts = .ok (c, rest) ↔
      readNamespace inBlock name scope ctx ts = .ok (c, rest) := by
  obtain ⟨depth, rfl⟩ : ∃ d, depth = d + 1 := ⟨depth - 1, by omega⟩
  rw [namespaceMembersAt_succ]
  refine (loop_nested_eq_ok (fun depth => namespaceRound depth inBlock)
    (Nat.le_refl _) fun d s => suffices_namespaceRound fun m hm name scope => ?_).symm
  exact suffices_namespaceMembersAt (Nat.lt_of_lt_of_le hm (Nat.le_of_lt_succ h)) d

theorem fileContents_eq_ok
    {c : Contents} :
    fileContents ctx ts = .ok (c, rest) ↔ readNamespace false "" [] ctx ts = .ok (c, rest) :=
  namespaceMembersAt_eq_ok (Nat.lt_succ_self _)

/-! ## What has been declared -/

theorem addUsing_behind
    (c : Contents) (s : NamespaceState) (d : UsingDirective) :
    (s.behind c).addUsing d = (s.addUsing d).behind c := by
  unfold NamespaceState.addUsing NamespaceState.behind NamespaceState.add
  dsimp only
  split <;> simp only [Contents.append_assoc]

theorem add_behind
    (c : Contents) (s : NamespaceState) (d : Contents) :
    (s.behind c).add d = (s.add d).behind c := by
  unfold NamespaceState.behind NamespaceState.add
  simp only [Contents.append_assoc]

theorem namespaceRound_behind
    (depth : Nat) (inBlock : Bool) (c : Contents) (s : NamespaceState) :
    namespaceRound depth inBlock (s.behind c) =
      (Round.map (NamespaceState.behind c) (c ++ ·) <$> namespaceRound depth inBlock s) := by
  unfold namespaceRound
  simp only [map_bind, map_ite, map_pure, addUsing_behind, add_behind]
  rfl

theorem namespaceStep_behind
    (inBlock : Bool) (c : Contents) (s : NamespaceState) :
    namespaceStep inBlock (s.behind c) =
      (Round.map (NamespaceState.behind c) (c ++ ·) <$> namespaceStep inBlock s) := by
  unfold namespaceStep
  simp only [namespaceRound_behind]
  rfl

/-- What is read of a namespace behind some of it does not depend on what was read before. -/
theorem loop_namespaceStep_eq_ok
    {inBlock : Bool} {s : NamespaceState} {x : Contents} :
    loop s (namespaceStep inBlock) ctx ts = .ok (x, rest) ↔
      ∃ c, readNamespace inBlock s.name s.scope ctx ts = .ok (c, rest) ∧ s.contents ++ c = x := by
  have hs : s = NamespaceState.behind s.contents ⟨s.name, s.scope, .empty⟩ := by
    unfold NamespaceState.behind
    rw [Contents.append_empty]
  conv => lhs; rw [hs]
  rw [loop_map (namespaceStep_behind inBlock s.contents), map_eq_ok]
  rfl

/-! ## Fronts -/

/-- Read a namespace up to the brace in front of its members, and answer with its name. -/
def namespaceFront (outer : String) : Parse String := do
  if ← seesKeyword "namespace" then
    advance
    let name ← typeName
    expect .openBrace
    return joinNames outer (".".intercalate name.path)
  fail .namespaceMember

/-- Read a type in a namespace up to the brace in front of its members. -/
def namespaceTypeFront (s : NamespaceState) : Parse TypeDeclaration := do
  if ← seesAssemblyAttributes then fail .namespaceMember
  bodyFront ⟨s.name, [], s.scope⟩

section

variable (outer : String) (s : NamespaceState)

instance : Drops (namespaceFront outer) := by
  unfold namespaceFront
  infer_instance

instance : Eats (namespaceFront outer) := by
  unfold namespaceFront
  infer_instance

instance : Carries (namespaceFront outer) := by
  unfold namespaceFront
  infer_instance

instance : Ends (namespaceFront outer) := by
  unfold namespaceFront
  infer_instance

instance : Drops (namespaceTypeFront s) := by
  unfold namespaceTypeFront
  dsimp only
  infer_instance

instance : Eats (namespaceTypeFront s) := by
  unfold namespaceTypeFront
  dsimp only
  infer_instance

instance : Carries (namespaceTypeFront s) := by
  unfold namespaceTypeFront
  dsimp only
  infer_instance

instance : Ends (namespaceTypeFront s) := by
  unfold namespaceTypeFront
  dsimp only
  infer_instance

end

/-- A type does not start like an alias for another assembly. -/
theorem bodyFront_ne_alias
    {around : Surroundings} {head : TypeDeclaration}
    (h : bodyFront around ctx ts = .ok (head, body)) :
    ¬((headKind ts).bind TokenKind.keyword? = some "extern" ∧
      (headKind (ts.drop 1)).bind TokenKind.keyword? = some "alias") := by
  rintro ⟨hfirst, halias⟩
  unfold bodyFront at h
  rw [bind_of_ok (attributeSections_of_head (headKind_ne_punct hfirst _))] at h
  obtain ⟨words, mid, hmodifiers, h⟩ := bind_eq_ok.1 h
  obtain ⟨word, hmem, hword⟩ := frontItem_head h
  have hsplit : splitModifiers ts = (words, mid) := Except.ok.inj hmodifiers
  -- The words are both there.
  obtain ⟨t, t', us, rfl⟩ : ∃ t t' us, ts = t :: t' :: us := by
    cases ts with
    | nil => cases hfirst
    | cons t ts =>
      cases ts with
      | nil => cases halias
      | cons t' us => exact ⟨t, t', us, rfl⟩
  have hfirst : t.kind.keyword? = some "extern" := hfirst
  have halias : t'.kind.keyword? = some "alias" := halias
  have hstop : splitModifiers (t' :: us) = ([], t' :: us) := by
    rw [splitModifiers, halias]
    rfl
  rw [splitModifiers, hfirst, hstop] at hsplit
  obtain ⟨-, rfl⟩ := Prod.mk.inj hsplit
  obtain rfl := Option.some.inj (halias.symm.trans hword)
  revert hmem
  decide

/-- A type starts with none of the words that start something else in a namespace. -/
theorem bodyFront_ne_word
    {around : Surroundings} {head : TypeDeclaration} {word : String}
    (h : bodyFront around ctx ts = .ok (head, body)) (hword : word ∉ frontWords) :
    (headKind ts).bind TokenKind.keyword? ≠ some word := by
  intro hfirst
  obtain hbracket | ⟨first, hmem, hfirst'⟩ := bodyFront_head h
  · exact headKind_ne_punct hfirst _ hbracket
  · obtain rfl := Option.some.inj (hfirst.symm.trans hfirst')
    exact hword hmem

theorem seesUsing_of_ne
    (husing : (headKind ts).bind TokenKind.keyword? ≠ some "using")
    (hglobal : (headKind ts).bind TokenKind.keyword? ≠ some "global") :
    seesUsing ctx ts = .ok (false, ts) := by
  unfold seesUsing
  rw [seesKeyword_bind, seesKeyword_bind, seesKeyword_bind, List.drop_zero,
    beq_eq_false_iff_ne.2 husing, beq_eq_false_iff_ne.2 hglobal]
  rfl

/-- Where a type comes next in a namespace, the step reads it. -/
theorem namespaceStep_apply
    {inBlock : Bool} {s : NamespaceState} {head : TypeDeclaration}
    (hfront : bodyFront ⟨s.name, [], s.scope⟩ ctx ts = .ok (head, body))
    (hassembly : seesAssemblyAttributes ctx ts = .ok (false, ts)) :
    namespaceStep inBlock s ctx ts =
      (do return Round.again (s.add ⟨[], [], ← namespaceType s⟩)) ctx ts := by
  have hnone := bodyFront_isNone hfront
  have hforeign : ((headKind ts).bind TokenKind.keyword? == some "extern" &&
      (headKind (ts.drop 1)).bind TokenKind.keyword? == some "alias") = false := by
    rw [Bool.eq_false_iff]
    exact fun h => bodyFront_ne_alias hfront (by simpa using h)
  have hnamespace : ((headKind ts).bind TokenKind.keyword? == some "namespace") = false :=
    beq_eq_false_iff_ne.2 (bodyFront_ne_word hfront (by decide))
  have husing := @seesUsing_of_ne ctx ts (bodyFront_ne_word hfront (by decide))
    (bodyFront_ne_word hfront (by decide))
  change namespaceRound (ts.length + 1) inBlock s ctx ts = _
  unfold namespaceRound
  have hbrace := bodyFront_ne_punct (p := .closeBrace) hfront (by decide)
  have hsemicolon := bodyFront_ne_punct (p := .semicolon) hfront (by decide)
  cases inBlock <;>
    simp only [peek_bind, seesKeyword_bind, accept_bind, List.drop_zero, hnone, hforeign,
      bind_of_ok husing, bind_of_ok hassembly, hnamespace, hbrace, hsemicolon,
      Bool.false_eq_true, if_false, if_true]

/-- Where a type comes next in a namespace, the step goes over its front, its body and a semicolon. -/
theorem namespaceStep_type
    {inBlock : Bool} {s : NamespaceState} {head : TypeDeclaration} {r : Round NamespaceState Contents}
    (hfront : namespaceTypeFront s ctx ts = .ok (head, body)) :
    namespaceStep inBlock s ctx ts = .ok (r, rest) ↔
      ∃ x mid, readBody (Surroundings.site ⟨s.name, [], s.scope⟩ head) ctx body = .ok (x, mid) ∧
        r = .again (s.add ⟨[], [], { head with members := x.1 } :: x.2⟩) ∧
        rest = behindSemicolon mid := by
  unfold namespaceTypeFront at hfront
  obtain ⟨assembly, _, hassembly, hfront⟩ := bind_eq_ok.1 hfront
  obtain rfl := (TakesNothing.same hassembly).symm
  cases assembly with
  | true => cases hfront
  | false =>
    have hfront : bodyFront ⟨s.name, [], s.scope⟩ ctx ts = .ok (head, body) := hfront
    obtain ⟨attributes, words, kind, mid, -, hparts, htype⟩ := bodyFront_parts hfront
    have htypes : namespaceType s ctx ts =
        typeDeclaration kind attributes words ⟨s.name, [], s.scope⟩ ctx mid := by
      rw [namespaceType_eq, hparts]
      rfl
    rw [namespaceStep_apply hfront hassembly, bind_eq_ok]
    constructor
    · rintro ⟨types, _, h, hr⟩
      obtain ⟨rfl, rfl⟩ := pure_eq_ok.1 hr
      rw [htypes] at h
      obtain ⟨x, mid, hbody, rfl, rfl⟩ := (typeDeclaration_front htype).1 h
      exact ⟨x, mid, hbody, rfl, rfl⟩
    · rintro ⟨x, mid, hbody, rfl, rfl⟩
      refine ⟨_, _, ?_, rfl⟩
      rw [htypes]
      exact (typeDeclaration_front htype).2 ⟨x, mid, hbody, rfl, rfl⟩

/-- Where a namespace comes next, the step goes over its front and its members. -/
theorem namespaceStep_namespace
    {inBlock : Bool} {s : NamespaceState} {inner : String} {r : Round NamespaceState Contents}
    (hfront : namespaceFront s.name ctx ts = .ok (inner, body)) :
    namespaceStep inBlock s ctx ts = .ok (r, rest) ↔
      ∃ c, readNamespace true inner s.scope ctx body = .ok (c, rest) ∧ r = .again (s.add c) := by
  have hlt := Eats.shorter hfront
  unfold namespaceFront at hfront
  simp only [seesKeyword_bind, List.drop_zero, ite_apply, beq_iff_eq] at hfront
  split at hfront
  · rename_i hword
    rw [advance_bind] at hfront
    obtain ⟨name, mid, hname, hfront⟩ := bind_eq_ok.1 hfront
    obtain ⟨_, body, hbrace, hfront⟩ := bind_eq_ok.1 hfront
    obtain ⟨rfl, rfl⟩ := pure_eq_ok.1 hfront
    obtain ⟨l, rfl⟩ := expect_eq_ok.1 hbrace
    have husing := @seesUsing_of_ne ctx ts (by simp [hword]) (by simp [hword])
    have hassembly : seesAssemblyAttributes ctx ts = .ok (false, ts) := by
      unfold seesAssemblyAttributes
      simp only [sees_bind, seesKeyword_bind, List.drop_zero,
        beq_eq_false_iff_ne.2 (headKind_ne_punct hword _), Bool.false_and, pure_apply]
    have hread : namespaceStep inBlock s ctx ts =
        (do
          let contents ←
            namespaceMembersAt (ts.length + 1) (joinNames s.name (".".intercalate name.path)) s.scope true
          return Round.again (s.add contents)) ctx body := by
      change namespaceRound (ts.length + 1) inBlock s ctx ts = _
      obtain ⟨k, hk, hkeyword⟩ := Option.bind_eq_some_iff.1 hword
      obtain ⟨line, us, rfl⟩ := headKind_eq_some.1 hk
      have hmark := headKind_ne_punct hword
      rw [List.drop_succ_cons, List.drop_zero] at hname
      unfold namespaceRound
      cases inBlock <;>
        simp [hkeyword, bind_of_ok husing, bind_of_ok hassembly, bind_of_ok hname,
          show ∀ p, k ≠ .punct p by simpa using hmark, -bind_pure_comp]
    rw [hread, bind_eq_ok]
    constructor
    · rintro ⟨c, _, hc, hr⟩
      obtain ⟨rfl, rfl⟩ := pure_eq_ok.1 hr
      exact ⟨c, (namespaceMembersAt_eq_ok (Nat.lt_succ_of_lt hlt)).1 hc, rfl⟩
    · rintro ⟨c, hc, rfl⟩
      exact ⟨c, rest, (namespaceMembersAt_eq_ok (Nat.lt_succ_of_lt hlt)).2 hc, rfl⟩
  · cases hfront

end Parse
end CSharp
end ContentModels

import ContentModels.Proofs.Lexing.Positions
import ContentModels.Proofs.SourceTree.Files

/-!
# Files on other lines and under further directives

Where the tokens of a file stand some lines further down, every reader reads the same, and
what it notes on lines, or refuses on one, is that much further down.  Directives in front
of a file come into scope in front of its own, and change nothing else.

Most readers answer with nothing that has a line (`Follows`).  Only attributes, members and
types have one, and only types have directives; the readers of these are followed by hand.
-/

namespace ContentModels
namespace CSharp

/-! ## Moved values -/

/-- An attribute some lines further down. -/
def AttributeUse.moved (n : Nat) (a : AttributeUse) : AttributeUse :=
  { a with line := a.line + n }

/-- A member some lines further down. -/
def Member.moved (n : Nat) (m : Member) : Member :=
  { m with attributes := m.attributes.map (.moved n), line := m.line + n }

/-- A type some lines further down, with directives in front of those in scope. -/
def TypeDeclaration.moved (n : Nat) (ds : List UsingDirective) (t : TypeDeclaration) :
    TypeDeclaration :=
  { t with
    attributes := t.attributes.map (.moved n)
    members := t.members.map (.moved n)
    usings := ds ++ t.usings
    line := t.line + n }

/-- A file that no tool has written, some lines further down and with directives in front. -/
def CompilationUnit.moved (n : Nat) (ds : List UsingDirective) (u : CompilationUnit) :
    CompilationUnit where
  file := u.file
  isGenerated := false
  usings := ds ++ u.usings
  assemblyAttributes := u.assemblyAttributes.map (.moved n)
  types := u.types.map (.moved n ds)

namespace Parse

variable {α α' β β' γ σ σ' : Type} {n : Nat} {ds : List UsingDirective}

/-- What readers know some lines further down. -/
def movedContext (n : Nat) (ctx : ParseContext) : ParseContext :=
  { ctx with endLine := ctx.endLine + n }

/-- An answer of a reader some lines further down. -/
def movedAnswer (n : Nat) (m : α → β) :
    Except Diagnostic (α × List Token) → Except Diagnostic (β × List Token)
  | .error d => .error (d.moved n)
  | .ok (a, rest) => .ok (m a, rest.map (.moved n))

/-- Some lines further down, one reader answers what another one answers, changed by a map. -/
def Moves (n : Nat) (m : α → β) (p : Parse α) (q : Parse β) : Prop :=
  ∀ ctx ts, q (movedContext n ctx) (ts.map (.moved n)) = movedAnswer n m (p ctx ts)

/-- Some lines further down, one reader answers the same as another one. -/
class Follows (n : Nat) (p q : Parse α) : Prop where
  moves : Moves n (fun a => a) p q

/-! ## Steps -/

namespace Moves

theorem bind
    {m : α → α'} {k : β → β'} {p : Parse α} {p' : Parse α'} {f : α → Parse β} {f' : α' → Parse β'}
    (hp : Moves n m p p') (hf : ∀ a, Moves n k (f a) (f' (m a))) :
    Moves n k (p >>= f) (p' >>= f') := by
  intro ctx ts
  rw [bind_apply, bind_apply, hp ctx ts]
  cases p ctx ts with
  | error d => rfl
  | ok x => exact hf x.1 ctx x.2

theorem pure
    {m : α → β} {a : α} {b : β} (h : b = m a) :
    Moves n m (pure a) (pure b) := by
  intro ctx ts
  rw [h]
  rfl

theorem ite
    {m : α → β} {p q : Parse α} {p' q' : Parse β} (c : Prop) [Decidable c]
    (hp : Moves n m p p') (hq : Moves n m q q') :
    Moves n m (if c then p else q) (if c then p' else q') := by
  split
  · exact hp
  · exact hq

theorem line : Moves n (· + n) line line := by
  intro ctx ts
  cases ts <;> rfl

theorem tokens : Moves n (List.map (Token.moved n)) tokens tokens :=
  fun _ _ => rfl

theorem failAt
    {m : α → β} (line : Nat) (fault : Fault) :
    Moves n m (failAt line fault) (failAt (line + n) fault) :=
  fun _ _ => rfl

theorem fail
    {m : α → β} (fault : Fault) :
    Moves n m (fail fault) (fail fault) :=
  line.bind fun _ => failAt _ fault

/-- What would follow a failure is not read. -/
theorem fail_bind
    {m : β → β'} (fault : Fault) (f : α → Parse β) (f' : α' → Parse β') :
    Moves n m (Parse.fail fault >>= f) (Parse.fail fault >>= f') :=
  fail fault

/-- What a round of a loop decides, changed by a map of its state and one of its result. -/
def movedRound (s : σ → σ') (m : β → β') : Round σ β → Round σ' β'
  | .again a => .again (s a)
  | .done b => .done (m b)

theorem rounds
    {s : σ → σ'} {m : β → β'} {step : σ → Parse (Round σ β)} {step' : σ' → Parse (Round σ' β')}
    (hstep : ∀ a, Moves n (movedRound s m) (step a) (step' (s a))) (i : Nat) (a : σ) :
    Moves n m (Parse.rounds step i a) (Parse.rounds step' i (s a)) := by
  induction i generalizing a with
  | zero => exact fail _
  | succ i ih =>
    unfold Parse.rounds
    refine (hstep a).bind fun round => ?_
    cases round with
    | again a => exact ih a
    | done b => exact pure rfl

theorem loop
    {s : σ → σ'} {m : β → β'} {step : σ → Parse (Round σ β)} {step' : σ' → Parse (Round σ' β')}
    {a : σ} {a' : σ'} (ha : a' = s a)
    (hstep : ∀ a, Moves n (movedRound s m) (step a) (step' (s a))) :
    Moves n m (Parse.loop a step) (Parse.loop a' step') := by
  intro ctx ts
  subst ha
  unfold Parse.loop
  rw [List.length_map]
  exact rounds hstep _ a ctx ts

theorem nested
    {m : α → β} {p : Nat → Parse α} {q : Nat → Parse β} (h : ∀ depth, Moves n m (p depth) (q depth)) :
    Moves n m (Parse.nested p) (Parse.nested q) := by
  intro ctx ts
  unfold Parse.nested
  rw [List.length_map]
  exact h _ ctx ts

theorem withTokens
    {m : α → β} {p : Parse α} {q : Parse β} (h : Moves n m p q) :
    Moves n (fun x => (m x.1, x.2.map (.moved n))) (withTokens p) (withTokens q) := by
  unfold Parse.withTokens
  refine tokens.bind fun before => h.bind fun a => tokens.bind fun after => pure ?_
  simp only [List.length_map, List.map_take]

end Moves

/-- A reader behind one that answers the same. -/
theorem Moves.behind
    {m : β → β'} {p p' : Parse α} {f : α → Parse β} {f' : α → Parse β'} [hp : Follows n p p']
    (hf : ∀ a, Moves n m (f a) (f' a)) :
    Moves n m (p >>= f) (p' >>= f') :=
  hp.moves.bind hf

/-! ## Readers that answer the same -/

section

-- A reader with many branches is a large instance.
set_option synthInstance.maxSize 100000

instance (a : α) : Follows n (pure a : Parse α) (pure a) :=
  ⟨.pure rfl⟩

instance (p p' : Parse α) (f f' : α → Parse β) [hp : Follows n p p']
    [hf : ∀ a, Follows n (f a) (f' a)] : Follows n (p >>= f) (p' >>= f') :=
  ⟨hp.moves.bind fun a => (hf a).moves⟩

/-- The line that a reader asks for is further down. -/
instance (f f' : Nat → Parse β) [hf : ∀ l, Follows n (f l) (f' (l + n))] :
    Follows n (line >>= f) (line >>= f') :=
  ⟨Moves.line.bind fun l => (hf l).moves⟩

instance (c : Prop) [Decidable c] (p p' q q' : Parse α) [hp : Follows n p p']
    [hq : Follows n q q'] : Follows n (if c then p else q) (if c then p' else q') :=
  ⟨.ite c hp.moves hq.moves⟩

/-- A loop whose rounds answer the same. -/
instance (init : σ) (step step' : σ → Parse (Round σ β))
    [hstep : ∀ s, Follows n (step s) (step' s)] : Follows n (loop init step) (loop init step') := by
  refine ⟨Moves.loop (s := fun a => a) rfl fun a => ?_⟩
  have hround : Moves.movedRound (fun a : σ => a) (fun b : β => b) = fun r => r := by
    funext r
    cases r <;> rfl
  rw [hround]
  exact (hstep a).moves

instance (p q : Nat → Parse α) [h : ∀ depth, Follows n (p depth) (q depth)] :
    Follows n (nested p) (nested q) :=
  ⟨.nested fun depth => (h depth).moves⟩

instance (fault : Fault) : Follows n (fail fault : Parse α) (fail fault) :=
  ⟨.fail fault⟩

instance (i : Nat) : Follows n (peek i) (peek i) where
  moves ctx ts := by
    simp only [peek, movedAnswer, List.getElem?_map, Option.map_map]
    rfl

instance (i : Nat) : Follows n (advance i) (advance i) where
  moves ctx ts := by
    simp only [advance, movedAnswer, List.map_drop]

instance (p : Punct) (i : Nat) : Follows n (sees p i) (sees p i) := by
  unfold sees
  infer_instance

instance (word : String) (i : Nat) : Follows n (seesKeyword word i) (seesKeyword word i) := by
  unfold seesKeyword
  infer_instance

instance (i : Nat) : Follows n (seesIdent i) (seesIdent i) := by
  unfold seesIdent
  infer_instance

instance (p : Punct) : Follows n (accept p) (accept p) := by
  unfold accept
  infer_instance

instance (p : Punct) : Follows n (expect p) (expect p) := by
  unfold expect
  infer_instance

instance : Follows n ident ident := by
  unfold ident
  refine ⟨Moves.bind (m := fun a => a) (Follows.moves) fun kind => ?_⟩
  split
  · exact Follows.moves
  · exact Follows.moves

/-- A feature is lacking on the line that is further down. -/
instance (feature : Feature) (line : Nat) :
    Follows n (require feature line) (require feature (line + n)) where
  moves ctx ts := by
    unfold require movedContext
    split <;> rfl

instance (allowed : List String) : Follows n (keywords allowed) (keywords allowed) where
  moves ctx ts := by
    simp only [keywords, movedAnswer, List.takeWhile_map, List.dropWhile_map, List.filterMap_map]
    rfl

instance (marks : List Punct) (fault : Fault) :
    Follows n (dropUntil marks fault) (dropUntil marks fault) where
  moves ctx ts := by
    have hrest : ∀ rest : List Token,
        (if (rest.map (Token.moved n)).isEmpty then .error ⟨ctx.endLine + n, fault⟩
          else .ok ((), rest.map (.moved n)) : Except Diagnostic (Unit × List Token)) =
        movedAnswer n (fun a => a)
          (if rest.isEmpty then .error ⟨ctx.endLine, fault⟩ else .ok ((), rest)) := by
      intro rest
      cases rest <;> rfl
    unfold dropUntil
    simp only [List.dropWhile_map]
    exact hrest _

instance (p q : Parse α) [h : Follows n p q] : Follows n (attempt p) (attempt q) where
  moves ctx ts := by
    unfold attempt
    rw [h.moves ctx ts]
    cases p ctx ts <;> rfl

/-! ### Groups and skipped tokens -/

theorem nest_moved
    (stack : List Punct) (t : Token) :
    nest stack (t.moved n) = (nest stack t).mapError (.moved n) := by
  unfold nest
  simp only [Token.moved]
  repeat' split
  all_goals rfl

theorem closeGroups_moved
    (endLine : Nat) (stack : List Punct) (ts : List Token) :
    closeGroups (endLine + n) stack (ts.map (.moved n)) =
      ((closeGroups endLine stack ts).mapError (.moved n)).map (List.map (.moved n)) := by
  induction ts generalizing stack with
  | nil =>
    unfold closeGroups
    rfl
  | cons t ts ih =>
    rw [List.map_cons, closeGroups, closeGroups, nest_moved]
    cases nest stack t with
    | error d => rfl
    | ok stack =>
      cases stack with
      | nil => rfl
      | cons closer outer => exact ih _

theorem dropToMark_moved
    (marks : List Punct) (endLine : Nat) (stack : List Punct) (ts : List Token) :
    dropToMark marks (endLine + n) stack (ts.map (.moved n)) =
      ((dropToMark marks endLine stack ts).mapError (.moved n)).map (List.map (.moved n)) := by
  induction ts generalizing stack with
  | nil => cases stack <;> rfl
  | cons t ts ih =>
    rw [List.map_cons]
    cases stack with
    | nil =>
      rw [dropToMark, dropToMark, nest_moved, show (t.moved n).opensGroup = t.opensGroup from rfl,
        show (t.moved n).isOneOf marks = t.isOneOf marks from rfl]
      split
      · cases nest [] t with
        | error d => rfl
        | ok stack => exact ih stack
      · split
        · rfl
        · exact ih []
    | cons closer outer =>
      rw [dropToMark, dropToMark, nest_moved]
      cases nest (closer :: outer) t with
      | error d => rfl
      | ok stack => exact ih stack

theorem moves_of_map
    {r r' : Except Diagnostic (List Token)}
    (h : r' = (r.mapError (.moved n)).map (List.map (.moved n))) :
    r'.map ((), ·) = movedAnswer n (fun a => a) (r.map ((), ·)) := by
  rw [h]
  cases r <;> rfl

instance : Follows n skipGroup skipGroup where
  moves ctx ts := moves_of_map (closeGroups_moved ctx.endLine [] ts)

instance (marks : List Punct) : Follows n (skipTo marks) (skipTo marks) where
  moves ctx ts := moves_of_map (dropToMark_moved marks ctx.endLine [] ts)

instance (ends : List Punct) : Follows n (skipExpression ends) (skipExpression ends) := by
  unfold skipExpression
  refine ⟨Moves.tokens.bind fun before => Moves.behind fun _ =>
    Moves.tokens.bind fun after => ?_⟩
  rw [List.length_map, List.length_map]
  exact Follows.moves

instance : Follows n skipStatement skipStatement := by
  unfold skipStatement
  infer_instance

/-! ### Type names -/

theorem dropTypeSuffixes_moved
    (endLine : Nat) (inRank : Bool) (ts : List Token) :
    dropTypeSuffixes (endLine + n) inRank (ts.map (.moved n)) =
      ((dropTypeSuffixes endLine inRank ts).mapError (.moved n)).map (List.map (.moved n)) := by
  induction ts generalizing inRank with
  | nil => cases inRank <;> rfl
  | cons t ts ih =>
    rw [List.map_cons]
    cases inRank with
    | false =>
      rw [dropTypeSuffixes, dropTypeSuffixes]
      simp only [show (t.moved n).kind = t.kind from rfl]
      split
      · exact ih false
      · exact ih false
      · have hhead : (ts.map (Token.moved n)).head?.any (Token.isOneOf [.closeBracket, .comma]) =
            ts.head?.any (Token.isOneOf [.closeBracket, .comma]) := by
          cases ts <;> rfl
        rw [hhead]
        split
        · exact ih true
        · rfl
      · rfl
    | true =>
      rw [dropTypeSuffixes, dropTypeSuffixes]
      simp only [show (t.moved n).kind = t.kind from rfl]
      split
      · exact ih true
      · exact ih false
      · rfl

instance : Follows n typeSuffixes typeSuffixes where
  moves ctx ts := moves_of_map (dropTypeSuffixes_moved ctx.endLine false ts)

theorem kindsOf_moved
    (ts : List Token) :
    kindsOf (ts.map (.moved n)) = kindsOf ts :=
  List.map_map

/-- The text of tokens does not depend on their lines. -/
theorem render_moved
    (ts : List Token) :
    render (ts.map (.moved n)) = render ts :=
  render_eq (kindsOf_moved ts)

instance (i : Nat) : Follows n (argumentEnds i) (argumentEnds i) := by
  unfold argumentEnds
  infer_instance

instance : Follows n globalMark globalMark := by
  unfold globalMark
  infer_instance

instance : Follows n argumentName argumentName := by
  unfold argumentName
  infer_instance

instance : Follows n literalArgument literalArgument := by
  unfold literalArgument
  refine ⟨Moves.behind fun kind => ?_⟩
  split <;> exact Follows.moves

/-- The text that is read does not depend on its line. -/
instance (p : Parse α) [hp : Follows n p p] :
    Follows n (withTokens p >>= fun x => pure (AttributeValue.expr (render x.2)))
      (withTokens p >>= fun x => pure (AttributeValue.expr (render x.2))) :=
  ⟨(Moves.withTokens hp.moves).bind fun x => .pure (by rw [render_moved])⟩

/-- What a section does behind each attribute. -/
def sectionEnd (uses : List AttributeUse) :
    Parse (Round (List AttributeUse) (List AttributeUse)) := do
  if ← accept .comma then
    if ← sees .closeBracket then return .done uses
    return .again uses
  return .done uses

theorem sectionRound_eq
    (depth : Nat) (uses : List AttributeUse) :
    sectionRound depth uses = (line >>= fun line => typeNameAt depth >>= fun name =>
      (sees .openParen >>= fun b => if b then attributeArgumentsAt depth else pure []) >>=
        fun arguments => sectionEnd (uses ++ [⟨name, arguments, line⟩])) := by
  simp only [sectionRound, sectionEnd, bind_assoc, ite_bind_eq]

/-- An attribute notes its line. -/
theorem moves_sectionBody
    {depth : Nat} [Follows n (typeNameAt depth) (typeNameAt depth)]
    [Follows n (attributeArgumentsAt depth) (attributeArgumentsAt depth)] :
    Moves n (List.map (.moved n)) (sectionBody depth) (sectionBody depth) := by
  have hend : ∀ uses : List AttributeUse,
      Moves n (Moves.movedRound (List.map (.moved n)) (List.map (.moved n)))
        (sectionEnd uses) (sectionEnd (uses.map (.moved n))) := by
    intro uses
    unfold sectionEnd
    exact .behind fun _ => .ite _ (.behind fun _ => .ite _ (.pure rfl) (.pure rfl)) (.pure rfl)
  unfold sectionBody
  refine (Moves.loop (s := List.map (.moved n)) rfl fun uses => ?_).bind fun uses =>
    .behind fun _ => .pure rfl
  rw [sectionRound_eq, sectionRound_eq]
  refine Moves.line.bind fun line => .behind fun name => .behind fun arguments => ?_
  have hround := hend (uses ++ [⟨name, arguments, line⟩])
  rwa [List.map_append] at hround

/-- The readers that call each other, nested at most that deep, some lines further down. -/
structure FollowsNested (n depth : Nat) : Prop where
  typeName : Follows n (typeNameAt depth) (typeNameAt depth)
  typeArguments : Follows n (typeArgumentsAt depth) (typeArgumentsAt depth)
  attributeSection :
    Moves n (List.map (.moved n)) (attributeSectionAt depth) (attributeSectionAt depth)
  attributeArguments : Follows n (attributeArgumentsAt depth) (attributeArgumentsAt depth)
  attributeValue : Follows n (attributeValueAt depth) (attributeValueAt depth)

theorem followsNested
    (n depth : Nat) :
    FollowsNested n depth := by
  induction depth with
  | zero =>
    constructor
    · unfold typeNameAt
      infer_instance
    · unfold typeArgumentsAt
      infer_instance
    · unfold attributeSectionAt
      exact .fail _
    · unfold attributeArgumentsAt
      infer_instance
    · unfold attributeValueAt
      infer_instance
  | succ depth ih =>
    -- The instances for the readers one level in are found among these.
    obtain ⟨_, _, hsection, _, _⟩ := ih
    constructor
    · unfold typeNameAt
      dsimp only
      refine ⟨(Moves.withTokens (Follows.moves (n := n))).bind fun x => .pure ?_⟩
      rw [render_moved]
    · unfold typeArgumentsAt
      dsimp only
      -- The attributes of a type argument are dropped, and with them their lines.
      have (γ : Type) (f : Parse γ) [hf : Follows n f f] :
          Follows n (attributeSectionAt depth >>= fun _ => f)
            (attributeSectionAt depth >>= fun _ => f) :=
        ⟨hsection.bind fun _ => hf.moves⟩
      infer_instance
    · rw [attributeSectionAt_succ]
      unfold targetedSection
      refine .behind fun _ => .behind fun _ => .behind fun _ => .ite _ (.behind fun _ => ?_) ?_
      · exact moves_sectionBody
      · exact moves_sectionBody
    · unfold attributeArgumentsAt
      infer_instance
    · unfold attributeValueAt
      dsimp only
      refine ⟨.behind fun literal => ?_⟩
      split <;> exact Follows.moves

instance (depth : Nat) : Follows n (typeNameAt depth) (typeNameAt depth) :=
  (followsNested n depth).typeName

instance (depth : Nat) : Follows n (typeArgumentsAt depth) (typeArgumentsAt depth) :=
  (followsNested n depth).typeArguments

instance : Follows n typeName typeName :=
  inferInstanceAs (Follows n (nested typeNameAt) (nested typeNameAt))

instance : Follows n typeArguments typeArguments :=
  inferInstanceAs (Follows n (nested typeArgumentsAt) (nested typeArgumentsAt))

instance : Follows n typeParameters typeParameters := by
  unfold typeParameters
  infer_instance

theorem moves_attributeSection :
    Moves n (List.map (.moved n)) attributeSection attributeSection :=
  Moves.nested fun depth => (followsNested n depth).attributeSection

theorem moves_attributeSections :
    Moves n (List.map (.moved n)) attributeSections attributeSections := by
  unfold attributeSections
  refine Moves.loop (s := List.map (.moved n)) rfl fun uses => .behind fun _ =>
    .ite _ (moves_attributeSection.bind fun more => .pure ?_) (.pure rfl)
  simp [Moves.movedRound]

/-- Attributes are dropped, and with them their lines. -/
instance (f : Parse β) [hf : Follows n f f] :
    Follows n (attributeSections >>= fun _ => f) (attributeSections >>= fun _ => f) :=
  ⟨moves_attributeSections.bind fun _ => hf.moves⟩

/-! ### Members -/

/-- Modifiers are read off the kinds of tokens. -/
instance : Follows n modifiers modifiers where
  moves ctx ts := by
    have h : splitModifiers (ts.map (.moved n)) =
        ((splitModifiers ts).1, (splitModifiers ts).2.map (Token.moved n)) := by
      induction ts with
      | nil => rfl
      | cons t ts ih =>
        rw [List.map_cons, splitModifiers, splitModifiers,
          show (t.moved n).kind = t.kind from rfl]
        have hhead : (ts.map (Token.moved n)).head?.any
              (Token.isOneOf [.openParen, .assign, .semicolon]) =
            ts.head?.any (Token.isOneOf [.openParen, .assign, .semicolon]) := by
          cases ts <;> rfl
        rw [hhead, ih]
        split
        · rfl
        · simp only
          split <;> rfl
    exact congrArg Except.ok h

instance : Follows n parameter parameter := by
  unfold parameter
  dsimp only
  infer_instance

instance : Follows n parameters parameters := by
  unfold parameters
  infer_instance

instance (feature : Feature) : Follows n (skipArrowBody feature) (skipArrowBody feature) := by
  unfold skipArrowBody
  infer_instance

instance (feature : Feature) : Follows n (skipBody feature) (skipBody feature) := by
  unfold skipBody
  infer_instance

instance : Follows n skipAccessor skipAccessor := by
  unfold skipAccessor
  dsimp only
  refine ⟨moves_attributeSections.bind fun _ => .behind fun _ => Moves.line.bind fun line =>
    .behind fun kind => ?_⟩
  split <;> exact Follows.moves

instance : Follows n skipPropertyBody skipPropertyBody := by
  unfold skipPropertyBody
  dsimp only
  infer_instance

instance : Follows n skipOperator skipOperator := by
  unfold skipOperator
  infer_instance

instance : Follows n qualifierArguments qualifierArguments := by
  unfold qualifierArguments
  infer_instance

instance : Follows n memberName memberName := by
  unfold memberName
  dsimp only
  infer_instance

instance (marks : List Punct) (fault : Fault) :
    Follows n (skipConstraints marks fault) (skipConstraints marks fault) := by
  unfold skipConstraints
  infer_instance

instance : Follows n skipConstructorChain skipConstructorChain := by
  unfold skipConstructorChain
  dsimp only
  infer_instance

instance (first : String) : Follows n (fieldNames first) (fieldNames first) := by
  unfold fieldNames
  dsimp only
  infer_instance

instance (type : TypeName) : Follows n (namedMembers type) (namedMembers type) := by
  unfold namedMembers
  dsimp only
  infer_instance

instance (name : String) : Follows n (memberKinds name) (memberKinds name) := by
  unfold memberKinds
  dsimp only
  infer_instance

/-- A member notes its line. -/
theorem moves_members
    (name : String) (attributes : List AttributeUse) (words : List String) :
    Moves n (List.map (.moved n)) (members name attributes words)
      (members name (attributes.map (.moved n)) words) := by
  unfold members
  refine Moves.line.bind fun line => .behind fun kinds => .pure ?_
  rw [List.map_map]
  rfl

/-! ### Types and directives -/

instance : Follows n seesType seesType := by
  unfold seesType
  infer_instance

instance (kind : DeclarationKind) : Follows n (baseList kind) (baseList kind) := by
  unfold baseList
  dsimp only
  infer_instance

instance (kind : DeclarationKind) :
    Follows n (declarationKeyword kind) (declarationKeyword kind) := by
  unfold declarationKeyword
  infer_instance

instance : Follows n usingDirective usingDirective := by
  unfold usingDirective
  dsimp only
  infer_instance

instance : Follows n seesUsing seesUsing := by
  unfold seesUsing
  infer_instance

instance : Follows n seesAssemblyAttributes seesAssemblyAttributes := by
  unfold seesAssemblyAttributes
  infer_instance

end

/-! ## Types -/

/-- What surrounds a type, with directives in front of those in scope. -/
def Surroundings.behind (ds : List UsingDirective) (around : Surroundings) : Surroundings :=
  { around with usings := ds ++ around.usings }

section

variable (kind : DeclarationKind) (attributes : List AttributeUse) (words : List String)
  (around : Surroundings)

theorem moves_delegateDeclaration :
    Moves n (.moved n ds) (delegateDeclaration attributes words around)
      (delegateDeclaration (attributes.map (.moved n)) words (around.behind ds)) := by
  unfold delegateDeclaration
  exact .behind fun _ => Moves.line.bind fun _ => .behind fun _ => .behind fun _ => .behind fun _ =>
    .behind fun _ => .pure rfl

theorem moves_typeHead :
    Moves n (.moved n ds) (typeHead kind attributes words around)
      (typeHead kind (attributes.map (.moved n)) words (around.behind ds)) := by
  unfold typeHead
  dsimp only
  have hend (line : Nat) (name : String) (arity : Nat) :
      Moves n (TypeDeclaration.moved n ds)
        (baseList kind >>= fun bases =>
          skipConstraints [.openBrace, .semicolon] (.expected .openBrace) >>= fun _ =>
            (Pure.pure ⟨kind, name, arity, around.enclosing, around.containing, words, attributes,
              bases, [], around.usings, line⟩ : Parse TypeDeclaration))
        (baseList kind >>= fun bases =>
          skipConstraints [.openBrace, .semicolon] (.expected .openBrace) >>= fun _ =>
            (Pure.pure ⟨kind, name, arity, around.enclosing, around.containing, words,
              attributes.map (.moved n), bases, [], ds ++ around.usings, line + n⟩ :
                Parse TypeDeclaration)) :=
    .behind fun _ => .behind fun _ => .pure rfl
  refine Moves.line.bind fun line => .behind fun name => .behind fun arity =>
    .ite _ (.behind fun _ => .ite _ (.behind fun _ => hend line name arity) (hend line name arity))
      (hend line name arity)

end

/-- The members and types of a body some lines further down, with directives in front. -/
def movedBody (n : Nat) (ds : List UsingDirective) (x : List Member × List TypeDeclaration) :
    List Member × List TypeDeclaration :=
  (x.1.map (.moved n), x.2.map (.moved n ds))

theorem moves_types
    (depth : Nat) :
    (∀ kind attributes words around, Moves n (List.map (.moved n ds))
      (typeDeclarationAt depth kind attributes words around)
      (typeDeclarationAt depth kind (attributes.map (.moved n)) words (around.behind ds))) ∧
    ∀ name around, Moves n (movedBody n ds) (typeBodyAt depth name around)
      (typeBodyAt depth name (around.behind ds)) := by
  induction depth with
  | zero =>
    constructor
    · intro kind attributes words around
      unfold typeDeclarationAt
      exact .fail _
    · intro name around
      unfold typeBodyAt
      exact .fail _
  | succ depth ih =>
    obtain ⟨htypes, hbody⟩ := ih
    constructor
    · intro kind attributes words around
      unfold typeDeclarationAt
      dsimp only
      have hskipped (head : TypeDeclaration) :
          Moves n (List.map (.moved n ds))
            (skipGroup >>= fun _ => accept .semicolon >>= fun _ => pure [head])
            (skipGroup >>= fun _ => accept .semicolon >>= fun _ => pure [head.moved n ds]) :=
        .behind fun _ => .behind fun _ => .pure rfl
      have hinner (head : TypeDeclaration) : Moves n (List.map (.moved n ds))
          (typeBodyAt depth head.name
            ⟨around.enclosing, around.containing ++ [head.name], around.usings⟩ >>= fun x =>
              accept .semicolon >>= fun _ => pure ({ head with members := x.1 } :: x.2))
          (typeBodyAt depth head.name
            ⟨around.enclosing, around.containing ++ [head.name], ds ++ around.usings⟩ >>= fun x =>
              accept .semicolon >>= fun _ =>
                pure ({ head.moved n ds with members := x.1 } :: x.2)) :=
        (hbody _ _).bind fun _ => .behind fun _ => .pure rfl
      refine .behind fun _ => .ite _ ((moves_delegateDeclaration _ _ _).bind fun _ => .pure rfl)
        ((moves_typeHead kind _ _ _).bind fun head => ?_)
      refine .ite _ (.behind fun _ => .ite _ (.fail_bind _ _ _) (hskipped head)) ?_
      exact .ite _ (.behind fun _ => .ite _ (.pure rfl) (hinner head)) (hinner head)
    · intro name around
      rw [typeBodyAt_succ, typeBodyAt_succ]
      refine .behind fun _ => Moves.loop (s := movedBody n ds) rfl fun s => ?_
      unfold bodyRound
      dsimp only
      refine .behind fun _ => .ite _ (.fail_bind _ _ _) (.behind fun _ => .ite _ (.pure rfl) ?_)
      refine .behind fun _ => .ite _ (.pure rfl) ?_
      refine moves_attributeSections.bind fun attributes => .behind fun words =>
        .behind fun kind => ?_
      cases kind with
      | some kind =>
        refine (htypes _ _ _ _).bind fun types => .pure ?_
        simp [Moves.movedRound, movedBody]
      | none =>
        refine (moves_members _ _ _).bind fun more => .pure ?_
        simp [Moves.movedRound, movedBody]

theorem moves_typeDeclaration
    (kind : DeclarationKind) (attributes : List AttributeUse) (words : List String)
    (around : Surroundings) :
    Moves n (List.map (.moved n ds)) (typeDeclaration kind attributes words around)
      (typeDeclaration kind (attributes.map (.moved n)) words (around.behind ds)) :=
  Moves.nested fun depth => (moves_types depth).1 kind attributes words around

/-! ## Files -/

/-- Contents some lines further down, with directives in front of those in scope and others in
front of those of the file. -/
def Contents.moved (n : Nat) (ds front : List UsingDirective) (c : Contents) : Contents :=
  ⟨front ++ c.usings, c.assemblyAttributes.map (.moved n), c.types.map (.moved n ds)⟩

theorem Contents.moved_append
    (front : List UsingDirective) (a b : Contents) :
    (a ++ b).moved n ds front = a.moved n ds front ++ b.moved n ds [] := by
  change Contents.mk _ _ _ = Contents.mk _ _ _
  congr 1
  · exact (List.append_assoc _ _ _).symm
  · exact List.map_append
  · exact List.map_append

/-- Where the reader of namespace members stands, with directives in front. -/
def NamespaceState.moved (n : Nat) (ds front : List UsingDirective) (s : NamespaceState) :
    NamespaceState :=
  ⟨s.name, ds ++ s.scope, s.contents.moved n ds front⟩

namespace NamespaceState

variable {front : List UsingDirective}

theorem moved_add
    (s : NamespaceState) (c : Contents) :
    (s.add c).moved n ds front = (s.moved n ds front).add (c.moved n ds []) := by
  unfold moved add
  rw [Contents.moved_append]

theorem moved_addUsing
    (s : NamespaceState) (d : UsingDirective) :
    (s.addUsing d).moved n ds front = (s.moved n ds front).addUsing d := by
  unfold addUsing
  rw [show (s.moved n ds front).name = s.name from rfl]
  split
  · unfold moved add
    rw [Contents.moved_append, List.append_assoc]
    rfl
  · unfold moved
    rw [List.append_assoc]

end NamespaceState

theorem moves_namespaceType
    {front : List UsingDirective} (s : NamespaceState) :
    Moves n (List.map (.moved n ds)) (namespaceType s) (namespaceType (s.moved n ds front)) := by
  unfold namespaceType
  refine moves_attributeSections.bind fun attributes => .behind fun words => .behind fun kind => ?_
  cases kind with
  | some kind => exact moves_typeDeclaration kind attributes words ⟨s.name, [], s.scope⟩
  | none => exact .fail _

/-- Where blocks inside are read alike, the members of a namespace are. -/
theorem moves_itemRound
    {front : List UsingDirective} {depth : Nat}
    (hinner : ∀ name scope inBlock, Moves n (Contents.moved n ds [])
      (namespaceMembersAt depth name scope inBlock)
      (namespaceMembersAt depth name (ds ++ scope) inBlock))
    (s : NamespaceState) :
    Moves n (Moves.movedRound (.moved n ds front) (.moved n ds front))
      (SourceTree.itemRound depth s) (SourceTree.itemRound depth (s.moved n ds front)) := by
  unfold SourceTree.itemRound
  refine .behind fun _ => .ite _ (.behind fun d => .pure ?_) ?_
  · exact congrArg Round.again (s.moved_addUsing d).symm
  refine .behind fun _ => .ite _ (moves_attributeSection.bind fun uses => .pure ?_) ?_
  · exact congrArg Round.again (s.moved_add ⟨[], uses, []⟩).symm
  refine .behind fun _ => .ite _ (Moves.line.bind fun line => .behind fun _ => .behind fun inner => ?_) ?_
  · refine .behind fun _ => .ite _ (.behind fun _ => .behind fun _ => .pure rfl) (.behind fun _ => ?_)
    refine (hinner _ _ _).bind fun contents => .pure ?_
    exact congrArg Round.again (s.moved_add contents).symm
  refine .behind fun _ => .ite _ (.pure rfl) ((moves_namespaceType s).bind fun types => .pure ?_)
  exact congrArg Round.again (s.moved_add ⟨[], [], types⟩).symm

theorem moves_namespaceRound
    {front : List UsingDirective} {depth : Nat}
    (hinner : ∀ name scope inBlock, Moves n (Contents.moved n ds [])
      (namespaceMembersAt depth name scope inBlock)
      (namespaceMembersAt depth name (ds ++ scope) inBlock))
    (inBlock : Bool) (s : NamespaceState) :
    Moves n (Moves.movedRound (.moved n ds front) (.moved n ds front))
      (namespaceRound depth inBlock s) (namespaceRound depth inBlock (s.moved n ds front)) := by
  have hgoes : Moves n (Moves.movedRound (.moved n ds front) (.moved n ds front))
      (do
        if (← seesKeyword "extern") && (← seesKeyword "alias" 1) then
          skipStatement
          return .again s
        SourceTree.itemRound depth s)
      (do
        if (← seesKeyword "extern") && (← seesKeyword "alias" 1) then
          skipStatement
          return .again (s.moved n ds front)
        SourceTree.itemRound depth (s.moved n ds front)) :=
    .behind fun _ => .behind fun _ => .ite _ (.behind fun _ => .pure rfl) (moves_itemRound hinner s)
  unfold namespaceRound
  refine .behind fun _ => .ite _ (.ite _ (.fail_bind _ _ _) (.pure rfl)) ?_
  cases inBlock with
  | true => exact .behind fun _ => .ite _ (.behind fun _ => .pure rfl) hgoes
  | false => exact hgoes

theorem moves_namespaceMembersAt
    (depth : Nat) (name : String) (scope : List UsingDirective) (inBlock : Bool) :
    Moves n (Contents.moved n ds []) (namespaceMembersAt depth name scope inBlock)
      (namespaceMembersAt depth name (ds ++ scope) inBlock) := by
  induction depth generalizing name scope inBlock with
  | zero =>
    unfold namespaceMembersAt
    exact .fail _
  | succ depth ih =>
    rw [namespaceMembersAt_succ, namespaceMembersAt_succ]
    exact Moves.loop rfl (moves_namespaceRound ih inBlock)

end Parse
end CSharp
end ContentModels

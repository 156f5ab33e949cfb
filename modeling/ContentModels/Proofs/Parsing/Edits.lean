import ContentModels.Proofs.Parsing.Directives
import ContentModels.Proofs.Parsing.Namespaces

/-!
# Changes in a body

A place is where the body of a type can be divided into the parts that have been read and those
that come next, however deep the type stands in the file.  If what comes next is replaced by
something that the rest of the body is read from as well, then the file is read as it was, but
for the members of this type that stand behind the place (`FilePlace.edited`).
-/

namespace ContentModels
namespace CSharp

/-- Some types with the member list from some member on changed in one of them. -/
def editMembers
    (i j : Nat) (f : List Member → List Member) (types : List TypeDeclaration) :
    List TypeDeclaration :=
  types.modify i fun t => { t with members := t.members.take j ++ f (t.members.drop j) }

theorem modify_append_right
    {α : Type} (as bs : List α) (i : Nat) (g : α → α) :
    (as ++ bs).modify (as.length + i) g = as ++ bs.modify i g := by
  induction as with
  | nil => rw [List.length_nil, Nat.zero_add, List.nil_append, List.nil_append]
  | cons a as ih =>
    rw [List.cons_append, List.length_cons, Nat.add_right_comm, List.modify_succ_cons, ih]
    rfl

theorem modify_append_left
    {α : Type} {as : List α} {i : Nat} (h : i < as.length) (bs : List α) (g : α → α) :
    (as ++ bs).modify i g = as.modify i g ++ bs := by
  induction as generalizing i with
  | nil => exact absurd h (Nat.not_lt_zero i)
  | cons a as ih =>
    cases i with
    | zero => rfl
    | succ i =>
      rw [List.cons_append, List.modify_succ_cons, List.modify_succ_cons,
        ih (Nat.lt_of_succ_lt_succ h)]
      rfl

/-- In a part of a list of types, the types around it do not matter. -/
theorem editMembers_between
    {i : Nat} {types : List TypeDeclaration} (h : i < types.length)
    (before behind : List TypeDeclaration) (j : Nat) (f : List Member → List Member) :
    editMembers (before.length + i) j f (before ++ types ++ behind) =
      before ++ editMembers i j f types ++ behind := by
  unfold editMembers
  rw [List.append_assoc, modify_append_right, modify_append_left h, List.append_assoc]

namespace Parse

variable {ctx : ParseContext}

/-- A type with the members of its body, and the types in it. -/
def withBody (head : TypeDeclaration) (x : List Member × List TypeDeclaration) :
    List TypeDeclaration :=
  { head with members := x.1 } :: x.2

/--
Places in the body of a type or of a type in it: whose members stand at the place, which tokens
come next there, and how many types and members have been read by then.
-/
inductive BodyPlace (ctx : ParseContext) :
    TypeSite → List Token → TypeSite → List Token → Nat → Nat → Prop where
  | here {site : TypeSite} {ts post : List Token} {s : List Member × List TypeDeclaration}
    (hreaches : Reaches (bodyStep site) ctx ([], []) ts s post) :
    BodyPlace ctx site ts site post 0 s.1.length
  | inside {site inner : TypeSite} {ts mid body post : List Token}
    {s : List Member × List TypeDeclaration} {head : TypeDeclaration} {i j : Nat}
    (hreaches : Reaches (bodyStep site) ctx ([], []) ts s mid)
    (hfront : bodyFront site.around ctx mid = .ok (head, body))
    (hplace : BodyPlace ctx (site.around.site head) body inner post i j) :
    BodyPlace ctx site ts inner post (s.2.length + 1 + i) j

/-- A body with a change behind a place in it. -/
theorem BodyPlace.edited
    {site inner : TypeSite} {ts post rest : List Token} {i j : Nat}
    {x : List Member × List TypeDeclaration} (hplace : BodyPlace ctx site ts inner post i j)
    (hread : readBody site ctx ts = .ok (x, rest)) :
    ∃ pre y mid, ts = pre ++ post ∧ IsClosed pre ∧ i < x.2.length + 1 ∧
      readBody inner ctx post = .ok (y, mid) ∧
      ∀ {post' f}, IsFresh post' → readBody inner ctx post' = .ok ((f y.1, y.2), mid) →
        ∃ x', readBody site ctx (pre ++ post') = .ok (x', rest) ∧
          ∀ head, withBody head x' = editMembers i j f (withBody head x) := by
  induction hplace generalizing x rest with
  | @here site ts post s hreaches =>
    obtain ⟨pre, rfl⟩ := hreaches.suffix
    obtain ⟨y, hy, rfl⟩ := loop_bodyStep_eq_ok.1 (hreaches.loop_behind hread)
    have hreaches : Reaches (bodyStep site) ctx ([], []) (pre ++ post) s ([] ++ post) := hreaches
    obtain ⟨hclosed, hrefreshed⟩ := hreaches.refreshed (.inl rfl)
    refine ⟨pre, y, rest, rfl, hclosed, Nat.zero_lt_succ _, hy, fun {post' f} hpost hpost' => ?_⟩
    refine ⟨_, (hrefreshed hpost).loop (loop_bodyStep_eq_ok.2 ⟨_, hpost', rfl⟩), fun head => ?_⟩
    simp [withBody, editMembers, behindBody]
  | @inside site inner ts mid body post s head i j hreaches hfront hplace ih =>
    obtain hdone | ⟨s₁, us, hstep, hloop⟩ := loop_cases (hreaches.loop_behind hread)
    · obtain ⟨_, _, _, hround, _⟩ := (bodyStep_front hfront).1 hdone
      cases hround
    obtain ⟨x₁, rest₁, hbody, hround, rfl⟩ := (bodyStep_front hfront).1 hstep
    obtain rfl := Round.again.inj hround
    obtain ⟨z, hz, rfl⟩ := loop_bodyStep_eq_ok.1 hloop
    obtain ⟨pre, y, mid', rfl, hclosed, hi, hy, hedit⟩ := ih hbody
    obtain ⟨pre', front, rfl, hbounded, hrefreshed⟩ := hreaches.front_refreshed hfront hclosed
    refine ⟨pre', y, mid', rfl, .inr hbounded, ?_, hy, ?_⟩
    · simp only [behindBody, List.length_append, List.length_cons]
      omega
    · intro post' f hpost hpost'
      obtain ⟨x', hx', heq⟩ := hedit hpost hpost'
      obtain ⟨hreaches', hfront'⟩ := hrefreshed hpost
      have hstep' := (bodyStep_front (s := s) hfront').2 ⟨x', rest₁, hx', rfl, rfl⟩
      have hloop' := loop_of_again hstep' (EatsAgain.shorter hstep')
        (loop_bodyStep_eq_ok.2 ⟨z, hz, rfl⟩)
      refine ⟨_, hreaches'.loop hloop', fun outer => ?_⟩
      have hbetween := @editMembers_between i (withBody head x₁) hi
        ({ outer with members := s.1 ++ z.1 } :: s.2) z.2 j f
      rw [← heq, List.length_cons, List.cons_append, List.cons_append] at hbetween
      exact hbetween.symm

/-! ## Places in a file -/

/-- Places in the bodies of the types in a namespace or in those inside it. -/
inductive FilePlace (ctx : ParseContext) :
    Bool → String → List UsingDirective → List Token → TypeSite → List Token → Nat → Nat →
      Prop where
  | inType {inBlock : Bool} {name : String} {scope : List UsingDirective}
    {ts mid body post : List Token} {s : NamespaceState} {head : TypeDeclaration} {site : TypeSite}
    {i j : Nat}
    (hreaches : Reaches (namespaceStep inBlock) ctx ⟨name, scope, .empty⟩ ts s mid)
    (hfront : namespaceTypeFront s ctx mid = .ok (head, body))
    (hplace : BodyPlace ctx (Surroundings.site ⟨s.name, [], s.scope⟩ head) body site post i j) :
    FilePlace ctx inBlock name scope ts site post (s.contents.types.length + i) j
  | inNamespace {inBlock : Bool} {name inner : String} {scope : List UsingDirective}
    {ts mid body post : List Token} {s : NamespaceState} {site : TypeSite} {i j : Nat}
    (hreaches : Reaches (namespaceStep inBlock) ctx ⟨name, scope, .empty⟩ ts s mid)
    (hfront : namespaceFront s.name ctx mid = .ok (inner, body))
    (hplace : FilePlace ctx true inner s.scope body site post i j) :
    FilePlace ctx inBlock name scope ts site post (s.contents.types.length + i) j

/-- Contents in which the members of a type are changed. -/
def Contents.editMembers (i j : Nat) (f : List Member → List Member) (c : Contents) : Contents :=
  { c with types := CSharp.editMembers i j f c.types }

theorem Contents.editMembers_between
    {i : Nat} {d : Contents} (h : i < d.types.length) (before behind : Contents) (j : Nat)
    (f : List Member → List Member) :
    (before ++ d ++ behind).editMembers (before.types.length + i) j f =
      before ++ d.editMembers i j f ++ behind :=
  congrArg (Contents.mk _ _) (CSharp.editMembers_between h before.types behind.types j f)

/-- What is declared in one part of a namespace is a part of what the namespace declares. -/
theorem readNamespace_parts
    {inBlock : Bool} {name : String} {scope : List UsingDirective} {s : NamespaceState}
    {ts mid us rest : List Token} {c d : Contents}
    (hreaches : Reaches (namespaceStep inBlock) ctx ⟨name, scope, .empty⟩ ts s mid)
    (hstep : namespaceStep inBlock s ctx mid = .ok (.again (s.add d), us))
    (hread : readNamespace inBlock name scope ctx ts = .ok (c, rest)) :
    ∃ e, c = s.contents ++ d ++ e ∧ ∀ {ts' mid' d'},
      Reaches (namespaceStep inBlock) ctx ⟨name, scope, .empty⟩ ts' s mid' →
      namespaceStep inBlock s ctx mid' = .ok (.again (s.add d'), us) →
      readNamespace inBlock name scope ctx ts' = .ok (s.contents ++ d' ++ e, rest) := by
  obtain hdone | ⟨s₁, us₁, hagain, hloop⟩ := loop_cases (hreaches.loop_behind hread)
  · cases hstep.symm.trans hdone
  obtain ⟨hround, rfl⟩ := Prod.mk.inj (Except.ok.inj (hstep.symm.trans hagain))
  obtain rfl := Round.again.inj hround
  obtain ⟨e, he, rfl⟩ := loop_namespaceStep_eq_ok.1 hloop
  refine ⟨e, rfl, fun hreaches' hstep' => ?_⟩
  exact hreaches'.loop (loop_of_again hstep' (EatsAgain.shorter hstep')
    (loop_namespaceStep_eq_ok.2 ⟨e, he, rfl⟩))

/-- A file with a change behind a place in it. -/
theorem FilePlace.edited
    {inBlock : Bool} {name : String} {scope : List UsingDirective} {site : TypeSite}
    {ts post rest : List Token} {i j : Nat} {c : Contents}
    (hplace : FilePlace ctx inBlock name scope ts site post i j)
    (hread : readNamespace inBlock name scope ctx ts = .ok (c, rest)) :
    ∃ pre y mid, ts = pre ++ post ∧ IsBounded pre ∧ i < c.types.length ∧
      readBody site ctx post = .ok (y, mid) ∧
      ∀ {post' f}, IsFresh post' → readBody site ctx post' = .ok ((f y.1, y.2), mid) →
        readNamespace inBlock name scope ctx (pre ++ post') =
          .ok (c.editMembers i j f, rest) := by
  induction hplace generalizing c rest with
  | @inType inBlock name scope ts mid body post s head site i j hreaches hfront hplace =>
    obtain hdone | ⟨s₁, us, hstep, -⟩ := loop_cases (hreaches.loop_behind hread)
    · obtain ⟨_, _, _, hround, _⟩ := (namespaceStep_type hfront).1 hdone
      cases hround
    obtain ⟨x, rest₁, hbody, hround, rfl⟩ := (namespaceStep_type hfront).1 hstep
    obtain rfl := Round.again.inj hround
    obtain ⟨e, rfl, hparts⟩ := readNamespace_parts hreaches hstep hread
    obtain ⟨pre, y, mid', rfl, hclosed, hi, hy, hedit⟩ := hplace.edited hbody
    obtain ⟨pre', front, rfl, hbounded, hrefreshed⟩ := hreaches.front_refreshed hfront hclosed
    refine ⟨pre', y, mid', rfl, hbounded, ?_, hy, ?_⟩
    · simp only [Contents.append_types, List.length_append, List.length_cons]
      omega
    · intro post' f hpost hpost'
      obtain ⟨x', hx', heq⟩ := hedit hpost hpost'
      obtain ⟨hreaches', hfront'⟩ := hrefreshed hpost
      rw [hparts hreaches' ((namespaceStep_type hfront').2 ⟨x', rest₁, hx', rfl, rfl⟩), Contents.editMembers_between hi]
      exact congrArg (fun types => Except.ok (s.contents ++ ⟨[], [], types⟩ ++ e, _)) (heq head)
  | @inNamespace inBlock name inner scope ts mid body post s site i j hreaches hfront hplace ih =>
    obtain hdone | ⟨s₁, us, hstep, -⟩ := loop_cases (hreaches.loop_behind hread)
    · obtain ⟨_, _, hround⟩ := (namespaceStep_namespace hfront).1 hdone
      cases hround
    obtain ⟨d, hd, hround⟩ := (namespaceStep_namespace hfront).1 hstep
    obtain rfl := Round.again.inj hround
    obtain ⟨e, rfl, hparts⟩ := readNamespace_parts hreaches hstep hread
    obtain ⟨pre, y, mid', rfl, hbounded, hi, hy, hedit⟩ := ih hd
    obtain ⟨pre', front, rfl, hbounded', hrefreshed⟩ :=
      hreaches.front_refreshed hfront (.inr hbounded)
    refine ⟨pre', y, mid', rfl, hbounded', ?_, hy, ?_⟩
    · simp only [Contents.append_types, List.length_append]
      omega
    · intro post' f hpost hpost'
      obtain ⟨hreaches', hfront'⟩ := hrefreshed hpost
      rw [hparts hreaches' ((namespaceStep_namespace hfront').2 ⟨_, hedit hpost hpost', rfl⟩),
        Contents.editMembers_between hi]

instance (site : TypeSite) (s : List Member × List TypeDeclaration) : Eats (bodyStep site s) :=
  inferInstanceAs (Eats (nested fun depth => bodyRound depth site.name site.around s))

instance (site : TypeSite) : Eats (readBody site) :=
  inferInstanceAs (Eats (loop ([], []) (bodyStep site)))

end Parse

open Parse

/-! ## Features that tokens need -/

section

variable {version : LanguageVersion}

theorem checkTokens_cons
    {t : Token} {ts : List Token} :
    checkTokens version (t :: ts) = .ok () ↔
      (∀ feature ∈ neededFeatures t.kind (headKind ts), version.supports feature = true) ∧
        checkTokens version ts = .ok () := by
  rw [checkTokens, ← headKind]
  cases hneeded : (neededFeatures t.kind (headKind ts)).find? (!version.supports ·) with
  | some feature =>
    have hmem := List.mem_of_find?_eq_some hneeded
    have hlacks := List.find?_some hneeded
    simp only [reduceCtorEq, false_iff, not_and]
    intro hall
    rw [hall feature hmem] at hlacks
    cases hlacks
  | none =>
    refine (and_iff_right fun feature hmem => ?_).symm
    simpa using List.find?_eq_none.1 hneeded feature hmem

/-- A token needs no more in front of another one than at the end. -/
theorem neededFeatures_subset
    (k : TokenKind) (next : Option TokenKind) :
    ∀ feature ∈ neededFeatures k next, feature ∈ neededFeatures k none := by
  unfold neededFeatures
  split <;> simp

/-- In front of a word as much is needed as at the end. -/
theorem neededFeatures_word
    (k : TokenKind) (w : String) (b : Bool) :
    neededFeatures k (some (.ident w b)) = neededFeatures k none := by
  unfold neededFeatures
  split <;> simp

theorem checkTokens_behind
    {ts us : List Token} (h : checkTokens version (ts ++ us) = .ok ()) :
    checkTokens version us = .ok () := by
  induction ts with
  | nil => exact h
  | cons t ts ih => exact ih (checkTokens_cons.1 h).2

/-- Tokens may be replaced by others in front of which no more is needed. -/
theorem checkTokens_replaced
    {ts us us' : List Token} (h : checkTokens version (ts ++ us) = .ok ())
    (hus' : checkTokens version us' = .ok ())
    (hneeded : ∀ k, ∀ feature ∈ neededFeatures k (headKind us'),
      feature ∈ neededFeatures k (headKind us)) :
    checkTokens version (ts ++ us') = .ok () := by
  induction ts with
  | nil => exact hus'
  | cons t ts ih =>
    obtain ⟨hsupports, hts⟩ := checkTokens_cons.1 h
    refine checkTokens_cons.2 ⟨fun feature hmem => hsupports feature ?_, ih hts⟩
    cases ts with
    | nil => exact hneeded t.kind feature hmem
    | cons u ts => exact hmem

/-- A mark that ends a declaration needs no feature, and none that does is needed in front of it. -/
theorem checkTokens_bounded
    {pre : List Token} (hpre : IsBounded pre) (post : List Token) :
    checkTokens version (pre ++ post) = .ok () ↔
      checkTokens version pre = .ok () ∧ checkTokens version post = .ok () := by
  induction pre with
  | nil => exact absurd rfl hpre.ne_nil
  | cons t pre ih =>
    rw [List.cons_append, checkTokens_cons, checkTokens_cons]
    cases pre with
    | nil =>
      have hnothing : ∀ next, neededFeatures t.kind next = [] := by
        obtain ⟨front, t', heq, hbound⟩ := hpre
        obtain rfl : t = t' := by
          cases front with
          | nil => exact List.singleton_inj.1 heq
          | cons _ front => simp at heq
        refine neededFeatures_of_isFree ?_
        cases hk : t.kind with
        | punct p =>
          rw [hk] at hbound
          revert hbound
          cases p <;> decide
        | ident | str | character | number =>
          rw [hk] at hbound
          cases hbound
      rw [hnothing, hnothing]
      simp [checkTokens]
    | cons u us =>
      have htail := hpre.suffix (List.suffix_cons t (u :: us)) (List.cons_ne_nil _ _)
      rw [ih htail, and_assoc]
      rfl

theorem checkTokens_closed
    {pre : List Token} (hpre : IsClosed pre) {post : List Token} :
    checkTokens version (pre ++ post) = .ok () ↔
      checkTokens version pre = .ok () ∧ checkTokens version post = .ok () := by
  obtain rfl | hpre := hpre
  · exact (and_iff_right rfl).symm
  · exact checkTokens_bounded hpre post

end

/-! ## Changed files -/

/-- What readers know of a file with some tokens. -/
def fileContext (version : LanguageVersion) (ts : List Token) : ParseContext :=
  ⟨version, endLine ts⟩

/--
A file of which the tokens behind a place are replaced by others is read with the members behind
this place changed, if the rest of the body at the place is read so.
-/
theorem parseUnit_edited
    {file source source' : String} {version : LanguageVersion} {unit : CompilationUnit}
    {comments : List Char} {pre post post' : List Token} {site : TypeSite} {i j : Nat}
    {f : List Member → List Member}
    (hsource : tokenize source = .ok ⟨pre ++ post, comments⟩)
    (hsource' : tokenize source' = .ok ⟨pre ++ post', comments⟩)
    (hparse : parseUnit file source version = .ok unit)
    (hplace : FilePlace (fileContext version (pre ++ post)) false "" [] (pre ++ post) site post i j)
    (hfresh : IsFresh post') (hlast : post ≠ [] → post'.getLast? = post.getLast?)
    (hcheck : checkTokens version post = .ok () → checkTokens version post' = .ok ())
    (hread : ∀ y mid, readBody site (fileContext version (pre ++ post)) post = .ok (y, mid) →
      readBody site (fileContext version (pre ++ post)) post' = .ok ((f y.1, y.2), mid)) :
    parseUnit file source' version =
      .ok { unit with types := editMembers i j f unit.types } := by
  obtain ⟨lexed, c, rest, hlexed, hchecked, hcontents, rfl⟩ := parseUnit_eq_ok.1 hparse
  obtain rfl := Except.ok.inj (hsource.symm.trans hlexed)
  obtain ⟨pre₁, y, mid, heq, hbounded, -, hbody, hedit⟩ :=
    hplace.edited (fileContents_eq_ok.1 hcontents)
  obtain rfl := List.append_cancel_right heq
  obtain ⟨hpre, hpost⟩ := (checkTokens_bounded hbounded post).1 hchecked
  have hcontext : fileContext version (pre ++ post') = fileContext version (pre ++ post) := by
    unfold fileContext endLine
    rw [List.getLast?_append, List.getLast?_append, hlast]
    rintro rfl
    exact absurd (Eats.shorter hbody) (Nat.not_lt_zero _)
  refine parseUnit_eq_ok.2 ⟨_, c.editMembers i j f, rest, hsource',
    (checkTokens_bounded hbounded post').2 ⟨hpre, hcheck hpost⟩, ?_, rfl⟩
  change fileContents (fileContext version _) _ = _
  rw [fileContents_eq_ok, hcontext]
  exact hedit hfresh (hread y mid hbody)

end CSharp
end ContentModels

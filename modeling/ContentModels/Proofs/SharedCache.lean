import ContentModels.SharedCache

/-!
# A shared cache cannot be told from none

If fingerprints tell inputs apart, each caller gets what its own pass gives, whatever the
others do in between: what is kept always comes from a pass whose inputs have the fingerprint
that is kept with it (`Sound.step`), and the inputs of a pass determine what it gives.  A call
is over after at most three steps of its caller, and a call that fails leaves the cache alone.
-/

namespace ContentModels

namespace Request

variable {r s : Request}

/-- The inputs of a pass determine what it gives. -/
theorem outcome_eq_of_inputs
    (h : r.inputs = s.inputs) :
    r.outcome = s.outcome := by
  obtain ⟨⟨settings, reader, strategies, declarations, tag⟩, schema, sources, ⟨hr, hr'⟩⟩ := r
  obtain ⟨⟨settings', reader', strategies', declarations', tag'⟩, schema', sources', ⟨hs, hs'⟩⟩ := s
  dsimp only at hr hr' hs hs'
  simp only [inputs, PassInputs.ofPass, PassInputs.mk.injEq] at h
  obtain ⟨rfl, rfl, rfl, rfl, rfl⟩ := h
  subst hr hr' hs hs'
  rfl

end Request

namespace Cache

variable {κ : Type}

/-- What is kept comes from a pass whose inputs have the fingerprint kept with it. -/
def Sound (fingerprint : PassInputs → κ) (c : Cache κ) : Prop :=
  ∀ f models, c.entry = some (f, models) →
    ∃ r : Request, fingerprint r.inputs = f ∧ r.outcome = .ok models

variable {fingerprint : PassInputs → κ} {c : Cache κ}

theorem sound_empty : (empty : Cache κ).Sound fingerprint := nofun

/-- What is kept for the fingerprint of a request is what its pass gives. -/
theorem Sound.outcome_of_lookup?
    [DecidableEq κ] (h : c.Sound fingerprint) (hinj : Function.Injective fingerprint)
    {r : Request} {models : GeneratedModels}
    (hlookup : c.lookup? (fingerprint r.inputs) = some models) :
    r.outcome = .ok models := by
  unfold lookup? at hlookup
  split at hlookup
  · rename_i kept models' hentry
    split at hlookup
    · rename_i hkept
      cases hlookup
      obtain ⟨s, hs, houtcome⟩ := h _ _ hentry
      rw [← houtcome]
      exact Request.outcome_eq_of_inputs (hinj (hkept.symm.trans hs.symm))
    · cases hlookup
  · cases hlookup

end Cache

namespace Stage

variable {κ : Type} {fingerprint : PassInputs → κ}

/-- What a caller holds belongs to its request. -/
def Sound (fingerprint : PassInputs → κ) : Stage κ → Prop
  | .missed r f => f = fingerprint r.inputs
  | .generated r f models => f = fingerprint r.inputs ∧ r.outcome = .ok models
  | .answered r answer => answer = r.outcome
  | .idle | .called _ | .invalidated => True

/-- The number of steps after which a call is over for certain. -/
def stepsLeft : Stage κ → Nat
  | .called _ => 3
  | .missed .. => 2
  | .generated .. => 1
  | .idle | .answered .. | .invalidated => 0

theorem stepsLeft_eq_zero_iff
    {s : Stage κ} :
    s.stepsLeft = 0 ↔ s.isBusy = false := by
  cases s <;> simp [stepsLeft, isBusy]

/-- A call about a request that is over has been answered. -/
theorem eq_answered
    {s : Stage κ} {r : Request} (hr : s.request? = some r) (hover : s.isBusy = false) :
    ∃ answer, s = .answered r answer := by
  cases s with
  | answered s answer =>
    obtain rfl : s = r := Option.some.inj hr
    exact ⟨answer, rfl⟩
  | idle | invalidated => cases hr
  | called | missed | generated => cases hover

variable [DecidableEq κ] {c : Cache κ}

/-- A step keeps what a caller holds, and what is kept, in line with the passes. -/
theorem Sound.next
    {s : Stage κ} (hs : s.Sound fingerprint) (hc : c.Sound fingerprint)
    (hinj : Function.Injective fingerprint) :
    (s.next fingerprint c).1.Sound fingerprint ∧ (s.next fingerprint c).2.Sound fingerprint := by
  cases s with
  | idle | answered | invalidated => exact ⟨hs, hc⟩
  | called call =>
    cases call with
    | invalidate => exact ⟨trivial, Cache.sound_empty⟩
    | get r =>
      simp only [Stage.next]
      cases hlookup : c.lookup? (fingerprint r.inputs) with
      | none => exact ⟨rfl, hc⟩
      | some models => exact ⟨(hc.outcome_of_lookup? hinj hlookup).symm, hc⟩
  | missed r f =>
    simp only [Stage.next]
    cases houtcome : r.outcome with
    | ok models => exact ⟨⟨hs, houtcome⟩, hc⟩
    | error e => exact ⟨houtcome.symm, hc⟩
  | generated r f models =>
    refine ⟨hs.2.symm, fun f' models' hentry => ?_⟩
    obtain ⟨rfl, rfl⟩ := Prod.mk.inj (Option.some.inj hentry)
    exact ⟨r, hs.1.symm, hs.2⟩

/-- A step is about the request that the call is about. -/
theorem request?_next
    (s : Stage κ) (c : Cache κ) {r : Request} (h : s.request? = some r) :
    (s.next fingerprint c).1.request? = some r := by
  cases s with
  | idle | invalidated => cases h
  | answered => exact h
  | generated => exact h
  | missed s f =>
    simp only [Stage.next]
    cases s.outcome <;> exact h
  | called call =>
    cases call with
    | invalidate => cases h
    | get s =>
      simp only [Stage.next]
      cases c.lookup? (fingerprint s.inputs) <;> exact h

/-- A step brings a call nearer to its end. -/
theorem stepsLeft_next
    (s : Stage κ) (c : Cache κ) :
    (s.next fingerprint c).1.stepsLeft ≤ s.stepsLeft - 1 := by
  cases s with
  | idle | answered | invalidated | generated => exact Nat.le_refl _
  | missed r f =>
    simp only [Stage.next]
    cases r.outcome <;> simp [stepsLeft]
  | called call =>
    cases call with
    | invalidate => simp [Stage.next, stepsLeft]
    | get r =>
      simp only [Stage.next]
      cases c.lookup? (fingerprint r.inputs) <;> simp [stepsLeft]

/-- A call about a request whose pass fails leaves the cache alone. -/
theorem cache_next_of_error
    {s : Stage κ} (hs : s.Sound fingerprint) (c : Cache κ) {r : Request} {e : Failure}
    (hr : s.request? = some r) (herror : r.outcome = .error e) :
    (s.next fingerprint c).2 = c := by
  cases s with
  | idle | answered | invalidated => rfl
  | generated s f models =>
    obtain rfl : s = r := Option.some.inj hr
    rw [hs.2] at herror
    cases herror
  | missed s f =>
    simp only [Stage.next]
    cases s.outcome <;> rfl
  | called call =>
    cases call with
    | invalidate => cases hr
    | get s =>
      simp only [Stage.next]
      cases c.lookup? (fingerprint s.inputs) <;> rfl

end Stage

namespace SharedCache

/-! ### What holds at every moment -/

section Sound

variable {κ ι : Type} {fingerprint : PassInputs → κ}

/-- The cache, and what each caller holds, are in line with the passes. -/
structure Sound (fingerprint : PassInputs → κ) (w : SharedCache κ ι) : Prop where
  cache : w.cache.Sound fingerprint
  stage : ∀ i, (w.stage i).Sound fingerprint

theorem sound_start : (start : SharedCache κ ι).Sound fingerprint :=
  ⟨Cache.sound_empty, fun _ => trivial⟩

variable [DecidableEq ι] {w : SharedCache κ ι}

theorem Sound.update
    {i : ι} {s : Stage κ} {c : Cache κ} (h : w.Sound fingerprint) (hs : s.Sound fingerprint)
    (hc : c.Sound fingerprint) :
    Sound fingerprint ⟨c, Function.update w.stage i s⟩ :=
  ⟨hc, (Function.forall_update_iff w.stage fun _ s => s.Sound fingerprint).2
    ⟨hs, fun j _ => h.stage j⟩⟩

variable [DecidableEq κ]

theorem Sound.step
    (h : w.Sound fingerprint) (hinj : Function.Injective fingerprint) (e : Event ι) :
    (w.step fingerprint e).Sound fingerprint := by
  cases e with
  | call i c =>
    rw [SharedCache.step]
    split
    · exact h
    · exact h.update trivial h.cache
  | proceed i =>
    obtain ⟨hstage, hcache⟩ := (h.stage i).next h.cache hinj
    exact h.update hstage hcache

theorem Sound.run
    (h : w.Sound fingerprint) (hinj : Function.Injective fingerprint) (es : List (Event ι)) :
    (w.run fingerprint es).Sound fingerprint := by
  induction es generalizing w with
  | nil => exact h
  | cons e es ih => exact ih (h.step hinj e)

end Sound

variable {κ ι : Type} [DecidableEq κ] [DecidableEq ι]
variable {fingerprint : PassInputs → κ} {w : SharedCache κ ι}

/-! ### Calls come to an end -/

theorem stage_step_proceed
    (w : SharedCache κ ι) (i : ι) :
    (w.step fingerprint (.proceed i)).stage i = ((w.stage i).next fingerprint w.cache).1 :=
  Function.update_self _ _ _

omit [DecidableEq κ] in
theorem eq_proceed
    {i : ι} {e : Event ι} (h : e.isProceed i = true) :
    e = .proceed i := by
  cases e with
  | call => cases h
  | proceed j => exact congrArg Event.proceed (of_decide_eq_true h).symm

/-- Other callers, and calls that come too early, leave a call where it is. -/
theorem stage_step_of_busy
    {i : ι} (hbusy : (w.stage i).isBusy = true) {e : Event ι} (he : e.isProceed i = false) :
    (w.step fingerprint e).stage i = w.stage i := by
  cases e with
  | call j c =>
    rw [step]
    split
    · rfl
    · rename_i hj
      refine Function.update_of_ne ?_ _ _
      rintro rfl
      exact hj hbusy
  | proceed j => exact Function.update_of_ne (by simpa [Event.isProceed] using he) _ _

/-- A call about a request is answered once its caller has taken the steps that are left. -/
theorem exists_answered
    {i : ι} {r : Request} (hr : (w.stage i).request? = some r) {es : List (Event ι)}
    (h : (w.stage i).stepsLeft ≤ es.countP (·.isProceed i)) :
    ∃ before answer, before <+: es ∧ (w.run fingerprint before).stage i = .answered r answer := by
  induction es generalizing w with
  | nil =>
    have hidle := Stage.stepsLeft_eq_zero_iff.1 (Nat.le_zero.1 h)
    obtain ⟨answer, hanswer⟩ := Stage.eq_answered hr hidle
    exact ⟨[], answer, List.prefix_rfl, hanswer⟩
  | cons e es ih =>
    cases hbusy : (w.stage i).isBusy with
    | false =>
      obtain ⟨answer, hanswer⟩ := Stage.eq_answered hr hbusy
      exact ⟨[], answer, List.nil_prefix, hanswer⟩
    | true =>
      have hstep : ((w.step fingerprint e).stage i).request? = some r ∧
          ((w.step fingerprint e).stage i).stepsLeft ≤ es.countP (·.isProceed i) := by
        cases he : e.isProceed i with
        | false =>
          rw [List.countP_cons_of_neg (by simp [he])] at h
          rw [stage_step_of_busy hbusy he]
          exact ⟨hr, h⟩
        | true =>
          rw [List.countP_cons_of_pos he] at h
          obtain rfl : e = .proceed i := eq_proceed he
          rw [stage_step_proceed]
          refine ⟨Stage.request?_next _ _ hr, Nat.le_trans (Stage.stepsLeft_next _ _) ?_⟩
          exact Nat.sub_le_of_le_add h
      obtain ⟨before, answer, hbefore, hanswer⟩ := ih hstep.1 hstep.2
      exact ⟨e :: before, answer, List.cons_prefix_cons.2 ⟨rfl, hbefore⟩, hanswer⟩

/-- A caller that goes on three times, while nobody else does anything. -/
theorem run_proceed_three
    (w : SharedCache κ ι) (i : ι) :
    let w' := w.run fingerprint [.proceed i, .proceed i, .proceed i]
    let next := fun x : Stage κ × Cache κ => x.1.next fingerprint x.2
    (w'.stage i, w'.cache) = next (next (next (w.stage i, w.cache))) := by
  have hstep : ∀ w : SharedCache κ ι,
      ((w.step fingerprint (.proceed i)).stage i, (w.step fingerprint (.proceed i)).cache) =
        (w.stage i).next fingerprint w.cache := fun w =>
    Prod.ext (stage_step_proceed w i) rfl
  intro w' next
  refine (hstep _).trans ?_
  refine (congrArg next (hstep _)).trans ?_
  exact congrArg (fun x => next (next x)) (hstep w)

/-- A call that nobody interrupts does what `Cache.get` does. -/
theorem run_alone
    {i : ι} {r : Request} (h : w.stage i = .called (.get r)) :
    let w' := w.run fingerprint [.proceed i, .proceed i, .proceed i]
    (w'.stage i, w'.cache) =
      (w.cache.get fingerprint r.generator r.schema r.sources).map (.answered r) id := by
  refine (run_proceed_three w i).trans ?_
  dsimp only
  rw [h]
  unfold Cache.get
  rw [show PassInputs.ofPass r.generator r.schema r.sources = r.inputs from rfl,
    show r.generator.generate r.schema r.sources = r.outcome from rfl]
  cases hlookup : w.cache.lookup? (fingerprint r.inputs) with
  | some models => simp only [Stage.next, hlookup, Prod.map_apply, id_eq]
  | none =>
    cases houtcome : r.outcome <;>
      simp only [Stage.next, hlookup, houtcome, Prod.map_apply, id_eq]

/--
If fingerprints tell inputs apart, then whatever callers ask of a cache and in whatever order
their steps are taken: every answer is what the caller's own pass gives, what is kept is what a
pass with the kept fingerprint gives, a call whose pass fails changes nothing in the cache, and
every call is answered after three steps of its caller at the latest.
-/
theorem run_transparent
    (hinj : Function.Injective fingerprint) (es : List (Event ι)) :
    let w : SharedCache κ ι := start.run fingerprint es
    (∀ i r answer, w.stage i = .answered r answer → answer = r.outcome) ∧
    (∀ f models, w.cache.entry = some (f, models) →
      ∃ r : Request, fingerprint r.inputs = f ∧ r.outcome = .ok models) ∧
    (∀ i r e, (w.stage i).request? = some r → r.outcome = .error e →
      (w.step fingerprint (.proceed i)).cache = w.cache) ∧
    ∀ i r later, w.stage i = .called (.get r) → 3 ≤ later.countP (Event.isProceed i) →
      ∃ before, before <+: later ∧ (w.run fingerprint before).stage i = .answered r r.outcome := by
  intro w
  have hw : w.Sound fingerprint := sound_start.run hinj es
  refine ⟨fun i r answer hanswer => ?_, hw.cache, fun i r e hr herror => ?_,
    fun i r later hcalled hlater => ?_⟩
  · have hstage := hw.stage i
    rw [hanswer] at hstage
    exact hstage
  · exact Stage.cache_next_of_error (hw.stage i) w.cache hr herror
  · have hr : (w.stage i).request? = some r := by
      rw [hcalled]
      rfl
    have hsteps : (w.stage i).stepsLeft ≤ later.countP (Event.isProceed i) := by
      rw [hcalled]
      exact hlater
    obtain ⟨before, answer, hbefore, hanswer⟩ := @exists_answered _ _ _ _ fingerprint _ _ _ hr _ hsteps
    have hstage := (hw.run hinj before).stage i
    rw [hanswer] at hstage
    exact ⟨before, hbefore, hanswer.trans (congrArg _ hstage)⟩

/-- A request by the standard generator for one content type. -/
def pageRequest (sources : SourceFiles) : Request where
  generator := ⟨.standard, .ofVersion .standard, .standard .standard, [], none⟩
  schema := [⟨1, "page", none, .content, "Page", none, .nothing, [], []⟩]
  sources
  standard := ⟨rfl, rfl⟩

/-- A request that fails, because of code that cannot be read. -/
def brokenRequest : Request :=
  pageRequest (.ofList [("Page.cs", "class \x7b")])

/-- One caller gets its models while another one fails and then clears the cache. -/
theorem run_transparent_two :
    let w : SharedCache PassInputs Bool :=
      start.run id [.call true (.get (pageRequest .empty)), .call false (.get brokenRequest)]
    (w.step id (.proceed false)).cache = w.cache ∧
      ∃ before, before <+: [.proceed true, .proceed false, .proceed true, .proceed false,
          .call false .invalidate, .proceed false, .proceed true] ∧
        (w.run id before).stage true =
          .answered (pageRequest .empty) (pageRequest .empty).outcome := by
  obtain ⟨-, -, hfail, hanswer⟩ := run_transparent Function.injective_id
    [Event.call true (.get (pageRequest .empty)), .call false (.get brokenRequest)]
  obtain ⟨e, he⟩ : ∃ e, brokenRequest.outcome = .error e := by
    have hfails : brokenRequest.outcome.toOption = none := by decide +kernel
    cases h : brokenRequest.outcome with
    | error e => exact ⟨e, rfl⟩
    | ok models =>
      rw [h] at hfails
      cases hfails
  exact ⟨hfail false brokenRequest e rfl he, hanswer true (pageRequest .empty) _ rfl (by decide)⟩

end SharedCache
end ContentModels

import ContentModels.Failure

/-!
# Steps that succeed

A chain of steps succeeds exactly if each of them does.
-/

namespace ContentModels
namespace Outcome

variable {ε α β : Type}

theorem bind_eq_ok
    {x : Except ε α} {f : α → Except ε β} {b : β} :
    (x >>= f) = .ok b ↔ ∃ a, x = .ok a ∧ f a = .ok b := by
  cases x with
  | error e => simp [bind, Except.bind]
  | ok a => simp [bind, Except.bind]

/-- A check goes before a step. -/
theorem then_eq_ok
    {x : Except ε Unit} {y : Except ε β} {b : β} :
    (do x; y) = .ok b ↔ x = .ok () ∧ y = .ok b :=
  bind_eq_ok.trans ⟨fun ⟨(), hx, hy⟩ => ⟨hx, hy⟩, fun ⟨hx, hy⟩ => ⟨(), hx, hy⟩⟩

theorem ok_of_toOption
    {x : Except ε α} {a : α}
    (h : x.toOption = some a) :
    x = .ok a := by
  cases x with
  | error e => cases h
  | ok b =>
    cases h
    rfl

/-- What is computed from the result of steps that succeed. -/
theorem exists_of_toOption_map
    {x : Except ε α} {f : α → β} {b : β}
    (h : x.toOption.map f = some b) :
    ∃ a, x = .ok a ∧ f a = b := by
  obtain ⟨a, ha, hb⟩ := Option.map_eq_some_iff.1 h
  exact ⟨a, ok_of_toOption ha, hb⟩

theorem mapM_cons_eq_ok
    {f : α → Except ε β} {a : α} {as : List α} {bs : List β} :
    (a :: as).mapM f = .ok bs ↔ ∃ b cs, f a = .ok b ∧ as.mapM f = .ok cs ∧ bs = b :: cs := by
  rw [List.mapM_cons, bind_eq_ok]
  constructor
  · rintro ⟨b, hb, h⟩
    obtain ⟨cs, hcs, h⟩ := bind_eq_ok.1 h
    cases h
    exact ⟨b, cs, hb, hcs, rfl⟩
  · rintro ⟨b, cs, hb, hcs, rfl⟩
    exact ⟨b, hb, bind_eq_ok.2 ⟨cs, hcs, rfl⟩⟩

theorem length_of_mapM
    {f : α → Except ε β} {as : List α} {bs : List β}
    (h : as.mapM f = .ok bs) :
    bs.length = as.length := by
  induction as generalizing bs with
  | nil =>
    cases h
    rfl
  | cons a as ih =>
    obtain ⟨b, cs, -, hcs, rfl⟩ := mapM_cons_eq_ok.1 h
    rw [List.length_cons, List.length_cons, ih hcs]

/-- Each result comes from the element at its place. -/
theorem exists_of_mapM
    {f : α → Except ε β} {as : List α} {bs : List β} {i : Nat} {b : β}
    (h : as.mapM f = .ok bs) (hb : bs[i]? = some b) :
    ∃ a, as[i]? = some a ∧ f a = .ok b := by
  induction as generalizing bs i with
  | nil =>
    cases h
    cases hb
  | cons a as ih =>
    obtain ⟨c, cs, hc, hcs, rfl⟩ := mapM_cons_eq_ok.1 h
    cases i with
    | zero =>
      cases hb
      exact ⟨a, rfl, hc⟩
    | succ i => exact ih hcs hb

/-- Steps that all succeed succeed together. -/
theorem exists_mapM
    {f : α → Except ε β} {as : List α}
    (h : ∀ a ∈ as, ∃ b, f a = .ok b) :
    ∃ bs, as.mapM f = .ok bs := by
  induction as with
  | nil => exact ⟨[], rfl⟩
  | cons a as ih =>
    obtain ⟨b, hb⟩ := h a List.mem_cons_self
    obtain ⟨bs, hbs⟩ := ih fun x hx => h x (List.mem_cons_of_mem _ hx)
    exact ⟨b :: bs, mapM_cons_eq_ok.2 ⟨b, bs, hb, hbs, rfl⟩⟩

theorem exists_mem_of_mapM
    {f : α → Except ε β} {as : List α} {bs : List β} {a : α}
    (h : as.mapM f = .ok bs) (ha : a ∈ as) :
    ∃ b ∈ bs, f a = .ok b := by
  induction as generalizing bs with
  | nil => cases ha
  | cons x as ih =>
    obtain ⟨b, cs, hb, hcs, rfl⟩ := mapM_cons_eq_ok.1 h
    rcases List.mem_cons.1 ha with rfl | ha
    · exact ⟨b, List.mem_cons_self, hb⟩
    · obtain ⟨c, hc, heq⟩ := ih hcs ha
      exact ⟨c, List.mem_cons_of_mem _ hc, heq⟩

/-- Where steps keep a part of each element, the results have these parts in their order. -/
theorem map_of_mapM
    {γ : Type} {f : α → Except ε β} {g : β → γ} {g' : α → γ} {as : List α} {bs : List β}
    (hkeep : ∀ a b, f a = .ok b → g b = g' a) (h : as.mapM f = .ok bs) :
    bs.map g = as.map g' := by
  induction as generalizing bs with
  | nil =>
    cases h
    rfl
  | cons a as ih =>
    obtain ⟨b, cs, hb, hcs, rfl⟩ := mapM_cons_eq_ok.1 h
    rw [List.map_cons, List.map_cons, hkeep a b hb, ih hcs]

/-- Where two steps have related results on each element, they have related results on a list. -/
theorem eq_map_of_mapM
    {γ : Type} {f : α → Except ε β} {g : α → Except ε γ} {k : γ → β} {as : List α} {bs : List β}
    {cs : List γ} (h : ∀ a b c, f a = .ok b → g a = .ok c → b = k c) (hf : as.mapM f = .ok bs)
    (hg : as.mapM g = .ok cs) :
    bs = cs.map k := by
  induction as generalizing bs cs with
  | nil =>
    cases hf
    cases hg
    rfl
  | cons a as ih =>
    obtain ⟨b, bs, hb, hbs, rfl⟩ := mapM_cons_eq_ok.1 hf
    obtain ⟨c, cs, hc, hcs, rfl⟩ := mapM_cons_eq_ok.1 hg
    rw [List.map_cons, h a b c hb hc, ih hbs hcs]

/-- Steps that each succeed under a condition, with a result that does not depend on others. -/
theorem mapM_eq_ok_iff
    {f : α → Except ε β} {g : α → β} {p : α → Prop} {as : List α} {bs : List β}
    (h : ∀ a b, f a = .ok b ↔ b = g a ∧ p a) :
    as.mapM f = .ok bs ↔ bs = as.map g ∧ ∀ a ∈ as, p a := by
  induction as generalizing bs with
  | nil => exact ⟨fun h => ⟨(Except.ok.inj h).symm, nofun⟩, fun h => congrArg Except.ok h.1.symm⟩
  | cons a as ih =>
    simp only [mapM_cons_eq_ok, h, ih, List.map_cons, List.forall_mem_cons]
    constructor
    · rintro ⟨_, _, ⟨rfl, ha⟩, ⟨rfl, has⟩, rfl⟩
      exact ⟨rfl, ha, has⟩
    · rintro ⟨rfl, ha, has⟩
      exact ⟨_, _, ⟨rfl, ha⟩, ⟨rfl, has⟩, rfl⟩

theorem mapM_congr
    {f g : α → Except ε β} {as : List α} (h : ∀ a ∈ as, f a = g a) :
    as.mapM f = as.mapM g := by
  induction as with
  | nil => rfl
  | cons a as ih =>
    obtain ⟨ha, has⟩ := List.forall_mem_cons.1 h
    rw [List.mapM_cons, List.mapM_cons, ha, ih has]

theorem forM_eq_ok_iff
    {f : α → Except ε Unit} {as : List α} :
    as.forM f = .ok () ↔ ∀ a ∈ as, f a = .ok () := by
  induction as with
  | nil => exact iff_of_true rfl nofun
  | cons a as ih =>
    rw [List.forall_mem_cons, ← ih]
    exact then_eq_ok

/-- Elements whose results contribute nothing can be left out. -/
theorem mapM_filter_flatMap
    {γ : Type} {f : α → Except ε β} {g : β → List γ} {keep : α → Bool}
    {as : List α} {bs : List β}
    (hdrop : ∀ a ∈ as, keep a = false → ∀ b, f a = .ok b → g b = [])
    (h : as.mapM f = .ok bs) :
    ∃ cs, (as.filter keep).mapM f = .ok cs ∧ bs.flatMap g = cs.flatMap g := by
  induction as generalizing bs with
  | nil =>
    cases h
    exact ⟨[], rfl, rfl⟩
  | cons a as ih =>
    obtain ⟨b, cs, hb, hcs, rfl⟩ := mapM_cons_eq_ok.1 h
    obtain ⟨ds, hds, heq⟩ := ih (fun x hx => hdrop x (List.mem_cons_of_mem _ hx)) hcs
    cases hk : keep a with
    | true =>
      rw [List.filter_cons_of_pos hk]
      refine ⟨b :: ds, mapM_cons_eq_ok.2 ⟨b, ds, hb, hds, rfl⟩, ?_⟩
      rw [List.flatMap_cons, List.flatMap_cons, heq]
    | false =>
      rw [List.filter_cons_of_neg (by simp [hk])]
      refine ⟨ds, hds, ?_⟩
      rw [List.flatMap_cons, hdrop a List.mem_cons_self hk b hb, heq]
      rfl

end Outcome
end ContentModels

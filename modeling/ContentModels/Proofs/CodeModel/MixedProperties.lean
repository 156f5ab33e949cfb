import ContentModels.Proofs.CodeModel.Build

/-!
# Properties of mixins along a chain of classes

A class has the properties of every mixin that it reaches, through itself or through the
classes that it is derived from.  Of these classes exactly one introduces a mixin, and it
has each property of the mixin once (`mixes_once`): what a class reaches, all that derive
from it reach as well, so it is the first class of the chain to reach a mixin that introduces
it.
-/

namespace ContentModels

open Relation

/-- How often a model has a property of a mixin, by the positions of both. -/
def Model.mixes (t : Model) (mixin property : Nat) : Nat :=
  t.mixedProperties.countP fun x => x.mixin == mixin && x.property == property

namespace Properties

/-- Where only one element contributes, it does so once for each time that it occurs. -/
theorem countP_flatMap_of_unique
    {α β : Type} [DecidableEq α] {q : β → Bool} {f : α → List β} {as : List α} {a : α}
    (hnodup : as.Nodup) (hother : ∀ b ∈ as, b ≠ a → (f b).countP q = 0) :
    (as.flatMap f).countP q = if a ∈ as then (f a).countP q else 0 := by
  induction as with
  | nil => rfl
  | cons b as ih =>
    obtain ⟨hb, hnodup⟩ := List.nodup_cons.1 hnodup
    rw [List.flatMap_cons, List.countP_append,
      ih hnodup fun c hc => hother c (List.mem_cons_of_mem _ hc)]
    by_cases hab : b = a
    · subst hab
      simp [hb]
    · have hba : a ≠ b := fun heq => hab heq.symm
      simp [hother b List.mem_cons_self hab, hba]

theorem countP_zipIdx
    {α : Type} (as : List α) (k : Nat) :
    as.zipIdx.countP (fun x => x.2 == k) = if k < as.length then 1 else 0 := by
  have hcount : as.zipIdx.countP (fun x => x.2 == k) = (List.range' 0 as.length).count k := by
    rw [← List.zipIdx_map_snd, List.count_eq_countP, List.countP_map]
    rfl
  rw [hcount, List.Nodup.count List.nodup_range']
  simp [List.mem_range'_1]

/-- A type has each property of what it introduces once, and no others. -/
theorem countP_mixed
    (plan : Plan) (ts : List PropertiedType) (i : Nat) (t : PropertiedType) (mixin property : Nat) :
    (mixed plan ts i t).countP (fun x => x.mixin == mixin && x.property == property) =
      if mixin ∈ Hierarchy.introduced (ts.map (·.toParticipant)) i ∧
        property < ((ts[mixin]?.map (·.properties)).getD []).length then 1 else 0 := by
  have hnodup : (Hierarchy.introduced (ts.map (·.toParticipant)) i).Nodup :=
    List.nodup_range.filter _
  unfold mixed
  rw [@countP_flatMap_of_unique _ _ _ _ _ _ mixin hnodup ?_]
  · rw [List.countP_map, ite_and]
    simp only [Function.comp_def, BEq.rfl, Bool.true_and, countP_zipIdx]
  · intro m _ hm
    rw [List.countP_map, List.countP_eq_zero]
    simp [hm]

end Properties

namespace CodeModel

open Hierarchy Walk

variable {settings : Settings} {strategies : Strategies} {schema : List ContentType}
  {options : CodeOptions} {m : CodeModel}

/-- A model has each property of the mixins that it introduces once, and no others. -/
theorem Built.mixes_eq
    {linked : List Schema.LinkedType} {named : List NamedType} {mapped : ContentTypeOptions}
    {propertied : List PropertiedType}
    (h : Built settings strategies schema options linked named mapped propertied m)
    {i j : Nat} {t mixin : Model} (ht : m.models[i]? = some t) (hmixin : m.models[j]? = some mixin)
    (p : Nat) :
    t.mixes j p =
      if j ∈ introduced (m.models.map (·.toParticipant)) i ∧ p < mixin.properties.length
        then 1 else 0 := by
  have hmixed := congrArg Model.mixedProperties (h.model_eq ht).2
  unfold Model.mixes
  rw [hmixed]
  refine (Properties.countP_mixed _ propertied i _ j p).trans ?_
  rw [h.propertied_toParticipant, (h.model_eq hmixin).1]
  rfl

/--
Of a class and those that it is derived from, exactly one has a property of a mixin that the
class reaches, and has it exactly once.
-/
theorem mixes_once
    (h : build settings strategies schema options = .ok m)
    {i j p : Nat} {mixin : Model}
    (hreach : ReflTransGen (IsLinked m.models) i j)
    (hchain : ¬ ReflTransGen (IsChild m.models) i j)
    (hmixin : m.models[j]? = some mixin) (hp : p < mixin.properties.length) :
    ∃ u t, ReflTransGen (IsChild m.models) i u ∧ m.models[u]? = some t ∧ t.mixes j p = 1 ∧
      ∀ v s, ReflTransGen (IsChild m.models) i v → m.models[v]? = some s → v ≠ u →
        s.mixes j p = 0 := by
  obtain ⟨linked, named, mapped, propertied, hbuilt⟩ := exists_built h
  have hj : j < (m.models.map (·.toParticipant)).length := by
    rw [List.length_map]
    exact (List.getElem?_eq_some_iff.1 hmixin).1
  rw [← leads_links] at hreach
  rw [← follows_parentAt] at hchain ⊢
  obtain ⟨u, hiu, hu, hother⟩ := exists_introducer hbuilt.wellFormed hj hreach hchain
  obtain ⟨q, -, hq, -, -⟩ := exists_mixin_of_introduced hu
  rw [List.getElem?_map] at hq
  obtain ⟨t, ht, -⟩ := Option.map_eq_some_iff.1 hq
  refine ⟨u, t, hiu, ht, ?_, fun v s hv hs hne => ?_⟩
  · rw [hbuilt.mixes_eq ht hmixin, if_pos ⟨hu, hp⟩]
  · rw [hbuilt.mixes_eq hs hmixin, if_neg fun hmem => hother v hv hne hmem.1]

/-- News get the properties that a composition of the composition of pages has from pages. -/
theorem mixes_once_news :
    ∃ m mixin, build .standard (.standard .standard) newsSchema .empty = .ok m ∧
      ReflTransGen (IsLinked m.models) 3 2 ∧ ¬ ReflTransGen (IsChild m.models) 3 2 ∧
      m.models[2]? = some mixin ∧ 0 < mixin.properties.length ∧
      ∃ u t, ReflTransGen (IsChild m.models) 3 u ∧ m.models[u]? = some t ∧ t.mixes 2 0 = 1 ∧
        ∀ v s, ReflTransGen (IsChild m.models) 3 v → m.models[v]? = some s → v ≠ u →
          s.mixes 2 0 = 0 := by
  obtain ⟨m, hbuild, hshape⟩ := exists_build_newsSchema
  have hmodel : ∀ i : Nat, (m.models[i]?).map (fun t : Model => (t.parent, t.mixins, t.properties.length)) =
      [(none, [1], 1), (none, [2], 1), (none, [1], 1), (some 0, [], 1)][i]? := by
    intro i
    rw [← hshape, List.getElem?_map]
  obtain ⟨page, hpage, hpage'⟩ := Option.map_eq_some_iff.1 (hmodel 0)
  obtain ⟨seo, hseo, hseo'⟩ := Option.map_eq_some_iff.1 (hmodel 1)
  obtain ⟨mixin, hmixin, hmixin'⟩ := Option.map_eq_some_iff.1 (hmodel 2)
  obtain ⟨news, hnews, hnews'⟩ := Option.map_eq_some_iff.1 (hmodel 3)
  simp only [Prod.mk.injEq] at hpage' hseo' hmixin' hnews'
  have hreach : ReflTransGen (IsLinked m.models) 3 2 :=
    .head ⟨news, hnews, .inl hnews'.1⟩
      (.head ⟨page, hpage, .inr (by simp [hpage'.2.1])⟩
        (.head ⟨seo, hseo, .inr (by simp [hseo'.2.1])⟩ .refl))
  have hchain : ¬ ReflTransGen (IsChild m.models) 3 2 := by
    intro hderived
    rcases hderived.cases_head with heq | ⟨j, ⟨s, hs, hj⟩, hderived⟩
    · cases heq
    · obtain rfl : news = s := Option.some.inj (hnews.symm.trans hs)
      obtain rfl : 0 = j := Option.some.inj (hnews'.1.symm.trans hj)
      rcases hderived.cases_head with heq | ⟨k, ⟨s, hs, hk⟩, -⟩
      · cases heq
      · obtain rfl : page = s := Option.some.inj (hpage.symm.trans hs)
        rw [hpage'.1] at hk
        cases hk
  have hp : 0 < mixin.properties.length := by
    rw [hmixin'.2.2]
    exact Nat.one_pos
  exact ⟨m, mixin, hbuild, hreach, hchain, hmixin, hp, mixes_once hbuild hreach hchain hmixin hp⟩

end CodeModel
end ContentModels

import ContentModels.Proofs.Walks

/-!
# Depth-first searches

A search tries nodes one after another, and with each node all that it leads to before it goes
on to the next.  It tries no node twice and ends at the first one where it finds something
(`Searches`).  A walk keeps the nodes still to be tried on a stack instead.  What is found first
along the walk is what the search finds, cycles or not (`searches_nodes`), and a search finds
nothing else (`Searches.unique`).
-/

namespace ContentModels
namespace Walk

variable {α β : Type}

/--
A search among nodes, where some have been tried before: what it finds, if it finds something,
and the nodes that have been tried in the end.
-/
inductive Searches
    (next : α → List α) (find : α → Option β) :
    List α → List α → Option β → List α → Prop
  | done
      {tried : List α} :
      Searches next find tried [] none tried
  | known
      {tried pending after : List α} {a : α} {found : Option β}
      (ha : a ∈ tried)
      (rest : Searches next find tried pending found after) :
      Searches next find tried (a :: pending) found after
  | here
      {tried pending : List α} {a : α} {b : β}
      (ha : a ∉ tried) (hfind : find a = some b) :
      Searches next find tried (a :: pending) (some b) (tried ++ [a])
  | inside
      {tried pending after : List α} {a : α} {b : β}
      (ha : a ∉ tried) (hfind : find a = none)
      (children : Searches next find (tried ++ [a]) (next a) (some b) after) :
      Searches next find tried (a :: pending) (some b) after
  | past
      {tried pending between after : List α} {a : α} {found : Option β}
      (ha : a ∉ tried) (hfind : find a = none)
      (children : Searches next find (tried ++ [a]) (next a) none between)
      (rest : Searches next find between pending found after) :
      Searches next find tried (a :: pending) found after

namespace Searches

variable {next : α → List α} {find : α → Option β} {tried pending after after' : List α}
  {found found' : Option β}

/-- A search has one outcome. -/
theorem unique
    (h : Searches next find tried pending found after)
    (h' : Searches next find tried pending found' after') :
    found = found' ∧ after = after' := by
  induction h generalizing found' after' with
  | done =>
    cases h'
    exact ⟨rfl, rfl⟩
  | known ha _ ih =>
    cases h' with
    | known _ rest => exact ih rest
    | here hnot | inside hnot | past hnot => exact absurd ha hnot
  | here ha hfind =>
    cases h' with
    | known hmem => exact absurd hmem ha
    | here _ hfind' => exact ⟨hfind.symm.trans hfind', rfl⟩
    | inside _ hnone | past _ hnone => cases hfind.symm.trans hnone
  | inside ha hfind _ ih =>
    cases h' with
    | known hmem => exact absurd hmem ha
    | here _ hfind' => cases hfind.symm.trans hfind'
    | inside _ _ children => exact ih children
    | past _ _ children => cases (ih children).1
  | past ha hfind _ _ ihchildren ihrest =>
    cases h' with
    | known hmem => exact absurd hmem ha
    | here _ hfind' => cases hfind.symm.trans hfind'
    | inside _ _ children => cases (ihchildren children).1
    | past _ _ children rest =>
      obtain ⟨-, rfl⟩ := ihchildren children
      exact ihrest rest

/-- A search among more nodes goes on to the later ones if it finds nothing among the first. -/
theorem of_append
    {front back : List α} (h : Searches next find tried (front ++ back) found after) :
    (∃ between, Searches next find tried front none between ∧
      Searches next find between back found after) ∨
        ∃ b, found = some b ∧ Searches next find tried front (some b) after := by
  generalize hpending : front ++ back = pending at h
  induction h generalizing front with
  | done =>
    obtain ⟨rfl, rfl⟩ := List.append_eq_nil_iff.1 hpending
    exact .inl ⟨_, .done, .done⟩
  | known ha rest ih =>
    cases front with
    | nil =>
      obtain rfl : back = _ := hpending
      exact .inl ⟨_, .done, .known ha rest⟩
    | cons c front =>
      obtain ⟨rfl, hrest⟩ := List.cons_eq_cons.1 hpending
      rcases ih hrest with ⟨between, hfront, hback⟩ | ⟨b, hb, hfront⟩
      · exact .inl ⟨between, .known ha hfront, hback⟩
      · exact .inr ⟨b, hb, .known ha hfront⟩
  | here ha hfind =>
    cases front with
    | nil =>
      obtain rfl : back = _ := hpending
      exact .inl ⟨_, .done, .here ha hfind⟩
    | cons c front =>
      obtain ⟨rfl, -⟩ := List.cons_eq_cons.1 hpending
      exact .inr ⟨_, rfl, .here ha hfind⟩
  | inside ha hfind children =>
    cases front with
    | nil =>
      obtain rfl : back = _ := hpending
      exact .inl ⟨_, .done, .inside ha hfind children⟩
    | cons c front =>
      obtain ⟨rfl, -⟩ := List.cons_eq_cons.1 hpending
      exact .inr ⟨_, rfl, .inside ha hfind children⟩
  | past ha hfind children rest _ ih =>
    cases front with
    | nil =>
      obtain rfl : back = _ := hpending
      exact .inl ⟨_, .done, .past ha hfind children rest⟩
    | cons c front =>
      obtain ⟨rfl, hrest⟩ := List.cons_eq_cons.1 hpending
      rcases ih hrest with ⟨between, hfront, hback⟩ | ⟨b, hb, hfront⟩
      · exact .inl ⟨between, .past ha hfind children hfront, hback⟩
      · exact .inr ⟨b, hb, .past ha hfind children hfront⟩

/-- What a node leads to may be put in front of the other nodes. -/
theorem of_children
    {a : α} (ha : a ∉ tried) (hfind : find a = none)
    (h : Searches next find (tried ++ [a]) (next a ++ pending) found after) :
    Searches next find tried (a :: pending) found after := by
  rcases h.of_append with ⟨between, hchildren, hrest⟩ | ⟨b, rfl, hchildren⟩
  · exact .past ha hfind hchildren hrest
  · exact .inside ha hfind hchildren

end Searches

section Steps

variable [BEq α] {next : α → List α} {find : α → Option β} {visited pending : List α}

/-- A walk only adds visits. -/
theorem prefix_steps
    (next : α → List α) (n : Nat) (visited pending : List α) :
    visited <+: steps next n visited pending := by
  induction n generalizing visited pending with
  | zero => exact List.prefix_rfl
  | succ n ih =>
    cases pending with
    | nil => exact List.prefix_rfl
    | cons a pending =>
      rw [steps]
      split
      · exact ih _ _
      · exact (List.prefix_append visited [a]).trans (ih _ _)

variable [LawfulBEq α] [DecidableEq α] {nodeSet : Finset α}

/--
What is found first along a walk with enough steps, where nothing is found among the nodes
visited before, is what a search finds.
-/
theorem searches_steps
    {n : Nat} (hout : ∀ a, a ∉ nodeSet → next a = [])
    (hsteps : pending.length + remaining next nodeSet visited ≤ n)
    (hnone : ∀ a ∈ visited, find a = none) :
    ∃ after, Searches next find visited pending
      ((steps next n visited pending).findSome? find) after := by
  have hvisited : visited.findSome? find = none := List.findSome?_eq_none_iff.2 hnone
  induction n generalizing visited pending with
  | zero =>
    obtain rfl : pending = [] := List.eq_nil_of_length_eq_zero (by omega)
    rw [steps, hvisited]
    exact ⟨_, .done⟩
  | succ n ih =>
    cases pending with
    | nil =>
      rw [steps, hvisited]
      exact ⟨_, .done⟩
    | cons a pending =>
      rw [List.length_cons] at hsteps
      rw [steps]
      split
      · rename_i hmem
        obtain ⟨after, h⟩ := @ih visited pending (by omega) hnone hvisited
        exact ⟨after, .known (by simpa using hmem) h⟩
      · rename_i hmem
        have hmem : a ∉ visited := by simpa using hmem
        cases hfind : find a with
        | some b =>
          -- The walk goes on, but the find is behind visits without any.
          obtain ⟨more, hmore⟩ := prefix_steps next n (visited ++ [a]) (next a ++ pending)
          rw [← hmore]
          have hfirst : ((visited ++ [a]) ++ more).findSome? find = some b := by
            simp [List.findSome?_append, hvisited, hfind]
          rw [hfirst]
          exact ⟨_, .here hmem hfind⟩
        | none =>
          have hleft := remaining_append hout hmem
          have hnone' : ∀ c ∈ visited ++ [a], find c = none := by
            intro c hc
            rcases List.mem_append.1 hc with hc | hc
            · exact hnone c hc
            · rwa [List.mem_singleton.1 hc]
          obtain ⟨after, h⟩ := @ih (visited ++ [a]) (next a ++ pending)
            (by rw [List.length_append]; omega) hnone' (List.findSome?_eq_none_iff.2 hnone')
          exact ⟨after, h.of_children hmem hfind⟩

/-- What is found first along a walk is what a search from the same start finds. -/
theorem searches_nodes
    {links : Nat} {start : α} (find : α → Option β)
    (hout : ∀ a, a ∉ nodeSet → next a = [])
    (hlinks : ∑ a ∈ nodeSet, (next a).length ≤ links) :
    ∃ after, Searches next find [] [start] ((nodes next links start).findSome? find) after := by
  refine searches_steps hout ?_ nofun
  simpa [remaining, Nat.add_comm 1] using hlinks

end Steps
end Walk
end ContentModels

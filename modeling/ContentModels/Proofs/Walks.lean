import Mathlib.Algebra.BigOperators.Group.Finset.Basic
import Mathlib.Data.Finset.Card
import Mathlib.Logic.Relation
import ContentModels.Walk

/-!
# Walks and reachability

A chain holds the nodes that single links lead to, unless it is cut off; where no node leads
back to itself, a chain as long as there are nodes is not cut off (`ends_of_acyclic`).  A
depth-first walk visits exactly the nodes that links lead to (`mem_nodes_iff`), cycles or not,
if it may take as many steps as there are links and one more.
-/

namespace ContentModels
namespace Walk

open Relation

variable {α : Type}

/-! ### Chains -/

section Chains

variable {next : α → Option α} {n m : Nat} {a b c : α}

/-- A single link leads from one node to another. -/
def Follows (next : α → Option α) (a b : α) : Prop :=
  next a = some b

/-- The chain from a node ends before it is cut off. -/
def Ends (next : α → Option α) (n : Nat) (a : α) : Prop :=
  (chain next n a).length < n

theorem chain_of_none
    (h : next a = none) (n : Nat) :
    chain next n a = [] := by
  cases n with
  | zero => rfl
  | succ n => rw [chain, h]

theorem chain_succ_of_some
    (h : next a = some b) (n : Nat) :
    chain next (n + 1) a = b :: chain next n b := by
  rw [chain, h]

theorem length_chain_le
    (next : α → Option α) (n : Nat) (a : α) :
    (chain next n a).length ≤ n := by
  induction n generalizing a with
  | zero => exact Nat.le_refl 0
  | succ n ih =>
    cases hnext : next a with
    | none =>
      rw [chain_of_none hnext]
      exact Nat.zero_le _
    | some b =>
      rw [chain_succ_of_some hnext]
      exact Nat.succ_le_succ (ih b)

/-- A chain that ends stays as it is when it may be longer. -/
theorem chain_eq_of_ends
    (h : Ends next n a) (hm : n ≤ m) :
    chain next m a = chain next n a := by
  unfold Ends at h
  induction n generalizing a m with
  | zero => exact absurd h (Nat.not_lt_zero _)
  | succ n ih =>
    cases hnext : next a with
    | none => rw [chain_of_none hnext, chain_of_none hnext]
    | some b =>
      obtain ⟨k, rfl⟩ := Nat.exists_eq_add_one_of_ne_zero (Nat.ne_zero_of_lt hm)
      rw [chain_succ_of_some hnext, List.length_cons] at h
      rw [chain_succ_of_some hnext, chain_succ_of_some hnext, ih (by omega) (by omega)]

/-- A chain that ends goes on with the chain of its first node. -/
theorem Ends.chain_eq
    (h : Ends next n a) (hnext : next a = some b) :
    Ends next n b ∧ chain next n a = b :: chain next n b := by
  cases n with
  | zero => exact absurd h (Nat.not_lt_zero _)
  | succ n =>
    have hb : Ends next n b := by
      unfold Ends at h ⊢
      rw [chain_succ_of_some hnext, List.length_cons] at h
      omega
    have heq := chain_eq_of_ends hb (Nat.le_succ n)
    refine ⟨?_, by rw [chain_succ_of_some hnext, heq]⟩
    unfold Ends at hb ⊢
    rw [heq]
    omega

theorem transGen_of_mem_chain
    (h : c ∈ chain next n a) :
    TransGen (Follows next) a c := by
  induction n generalizing a with
  | zero => cases h
  | succ n ih =>
    cases hnext : next a with
    | none =>
      rw [chain_of_none hnext] at h
      cases h
    | some b =>
      rw [chain_succ_of_some hnext] at h
      rcases List.mem_cons.1 h with rfl | h
      · exact .single hnext
      · exact .head hnext (ih h)

/-- A chain that ends holds all that single links lead to. -/
theorem Ends.mem_chain_iff
    (h : Ends next n a) :
    c ∈ chain next n a ↔ TransGen (Follows next) a c := by
  refine ⟨transGen_of_mem_chain, fun hc => ?_⟩
  induction hc using TransGen.head_induction_on with
  | single hlink =>
    rw [(h.chain_eq hlink).2]
    exact List.mem_cons_self
  | head hlink _ ih =>
    rw [(h.chain_eq hlink).2]
    exact List.mem_cons_of_mem _ (ih (h.chain_eq hlink).1)

/-- The chain of a node that leads back to itself does not end. -/
theorem length_chain_of_loop
    (h : TransGen (Follows next) a a) (n : Nat) :
    (chain next n a).length = n := by
  induction n generalizing a with
  | zero => rfl
  | succ n ih =>
    obtain ⟨b, hlink, hback⟩ := TransGen.head'_iff.1 h
    rw [chain_succ_of_some hlink, List.length_cons, ih (.tail' hback hlink)]

theorem Ends.not_loop
    (h : Ends next n a) :
    ¬ TransGen (Follows next) a a := by
  intro hloop
  unfold Ends at h
  rw [length_chain_of_loop hloop] at h
  exact Nat.lt_irrefl n h

/-- What holds of a node if it holds of the next one holds where a chain that ends starts. -/
theorem Ends.induction
    {P : α → Prop}
    (h : Ends next n a) (hstep : ∀ b, (∀ c, next b = some c → P c) → P b) :
    P a := by
  generalize hk : (chain next n a).length = k
  induction k using Nat.strongRecOn generalizing a with
  | _ k ih =>
    refine hstep a fun b hlink => ?_
    obtain ⟨hb, heq⟩ := h.chain_eq hlink
    refine ih (chain next n b).length ?_ hb rfl
    rw [← hk, heq, List.length_cons]
    exact Nat.lt_succ_self _

/-- Along a chain, what comes first leads to what comes later. -/
theorem pairwise_chain
    (next : α → Option α) (n : Nat) (a : α) :
    (a :: chain next n a).Pairwise (TransGen (Follows next)) := by
  induction n generalizing a with
  | zero => exact .cons (fun _ h => absurd h List.not_mem_nil) .nil
  | succ n ih =>
    refine .cons (fun _ => transGen_of_mem_chain) ?_
    cases hnext : next a with
    | none =>
      rw [chain_of_none hnext]
      exact .nil
    | some b =>
      rw [chain_succ_of_some hnext]
      exact ih b

theorem nodup_chain
    (hacyclic : ∀ b, ¬ TransGen (Follows next) b b) (n : Nat) (a : α) :
    (a :: chain next n a).Nodup := by
  refine (pairwise_chain next n a).imp fun {b c} h heq => ?_
  exact hacyclic c (heq ▸ h)

end Chains

/-- A chain among `n` nodes ends if no node leads back to itself. -/
theorem ends_of_acyclic
    {next : Nat → Option Nat} {n a : Nat}
    (hacyclic : ∀ b, ¬ TransGen (Follows next) b b)
    (hrange : ∀ b c, next b = some c → c < n) (ha : a < n) :
    Ends next n a := by
  have hsubset : a :: chain next n a ⊆ List.range n := by
    intro c hc
    rw [List.mem_range]
    rcases List.mem_cons.1 hc with rfl | hc
    · exact ha
    · obtain ⟨b, -, hlink⟩ := TransGen.tail'_iff.1 (transGen_of_mem_chain hc)
      exact hrange b c hlink
  have hlength := ((nodup_chain hacyclic n a).subperm hsubset).length_le
  rw [List.length_cons, List.length_range] at hlength
  exact hlength

/-! ### Depth-first walks -/

section Remaining

variable [DecidableEq α] {next : α → List α} {nodeSet : Finset α} {visited : List α} {a : α}

/-- The number of links of the nodes that are not visited yet. -/
def remaining (next : α → List α) (nodeSet : Finset α) (visited : List α) : Nat :=
  ∑ a ∈ nodeSet \ visited.toFinset, (next a).length

/-- A visit takes the links of the node off those that remain. -/
theorem remaining_append
    (hout : ∀ a, a ∉ nodeSet → next a = []) (h : a ∉ visited) :
    remaining next nodeSet (visited ++ [a]) + (next a).length = remaining next nodeSet visited := by
  have hset : nodeSet \ (visited ++ [a]).toFinset = (nodeSet \ visited.toFinset).erase a := by
    ext b
    simp only [Finset.mem_sdiff, List.mem_toFinset, List.mem_append, List.mem_singleton,
      Finset.mem_erase, not_or]
    exact ⟨fun h => ⟨h.2.2, h.1, h.2.1⟩, fun h => ⟨h.2.1, h.2.2, h.1⟩⟩
  unfold remaining
  rw [hset]
  by_cases ha : a ∈ nodeSet
  · exact Finset.sum_erase_add _ _ (Finset.mem_sdiff.2 ⟨ha, by simpa using h⟩)
  · rw [hout a ha, Finset.erase_eq_of_notMem fun hmem => ha (Finset.mem_sdiff.1 hmem).1]
    rfl

end Remaining

section Steps

variable [BEq α] {next : α → List α} {n : Nat} {visited pending : List α} {a b : α}

/-- A link leads from one node to another. -/
def Leads (next : α → List α) (a b : α) : Prop :=
  b ∈ next a

/-- A walk only visits what links lead to. -/
theorem reachable_of_mem_steps
    (h : b ∈ steps next n visited pending) :
    b ∈ visited ∨ ∃ a ∈ pending, ReflTransGen (Leads next) a b := by
  induction n generalizing visited pending with
  | zero => exact .inl h
  | succ n ih =>
    cases pending with
    | nil => exact .inl h
    | cons a pending =>
      rw [steps] at h
      split at h
      · rcases ih h with hb | ⟨c, hc, hreach⟩
        · exact .inl hb
        · exact .inr ⟨c, List.mem_cons_of_mem _ hc, hreach⟩
      · rcases ih h with hb | ⟨c, hc, hreach⟩
        · rcases List.mem_append.1 hb with hb | hb
          · exact .inl hb
          · rw [List.mem_singleton] at hb
            exact .inr ⟨a, List.mem_cons_self, hb ▸ .refl⟩
        · rcases List.mem_append.1 hc with hc | hc
          · exact .inr ⟨a, List.mem_cons_self, .head hc hreach⟩
          · exact .inr ⟨c, List.mem_cons_of_mem _ hc, hreach⟩

variable [LawfulBEq α] [DecidableEq α] {nodeSet : Finset α}

/--
A walk with a step for each pending node and each link that remains visits all pending nodes
and all that the visited ones lead to.
-/
theorem steps_closed
    (hout : ∀ a, a ∉ nodeSet → next a = [])
    (hsteps : pending.length + remaining next nodeSet visited ≤ n)
    (hlinks : ∀ a ∈ visited, ∀ b ∈ next a, b ∈ visited ∨ b ∈ pending) :
    (∀ a, a ∈ visited ∨ a ∈ pending → a ∈ steps next n visited pending) ∧
      ∀ a ∈ steps next n visited pending, ∀ b ∈ next a, b ∈ steps next n visited pending := by
  induction n generalizing visited pending with
  | zero =>
    have hnil : pending = [] := List.eq_nil_of_length_eq_zero (by omega)
    subst hnil
    simpa [steps] using hlinks
  | succ n ih =>
    cases pending with
    | nil => simpa [steps] using hlinks
    | cons a pending =>
      rw [List.length_cons] at hsteps
      rw [steps]
      split
      · rename_i hmem
        have hmem : a ∈ visited := by simpa using hmem
        obtain ⟨hall, hclosed⟩ := @ih visited pending (by omega) fun c hc b hb => by
          rcases hlinks c hc b hb with h | h
          · exact .inl h
          · rcases List.mem_cons.1 h with rfl | h
            · exact .inl hmem
            · exact .inr h
        refine ⟨fun c hc => hall c ?_, hclosed⟩
        rcases hc with hc | hc
        · exact .inl hc
        · rcases List.mem_cons.1 hc with rfl | hc
          · exact .inl hmem
          · exact .inr hc
      · rename_i hmem
        have hmem : a ∉ visited := by simpa using hmem
        have hleft := remaining_append hout hmem
        obtain ⟨hall, hclosed⟩ := @ih (visited ++ [a]) (next a ++ pending)
          (by rw [List.length_append]; omega) fun c hc b hb => by
            rcases List.mem_append.1 hc with hc | hc
            · rcases hlinks c hc b hb with h | h
              · exact .inl (List.mem_append_left _ h)
              · rcases List.mem_cons.1 h with rfl | h
                · exact .inl (by simp)
                · exact .inr (List.mem_append_right _ h)
            · rw [List.mem_singleton] at hc
              subst hc
              exact .inr (List.mem_append_left _ hb)
        refine ⟨fun c hc => hall c ?_, hclosed⟩
        rcases hc with hc | hc
        · exact .inl (List.mem_append_left _ hc)
        · rcases List.mem_cons.1 hc with rfl | hc
          · exact .inl (by simp)
          · exact .inr (List.mem_append_right _ hc)

/-- A walk visits exactly what links lead to. -/
theorem mem_nodes_iff
    {links : Nat} {start : α}
    (hout : ∀ a, a ∉ nodeSet → next a = [])
    (hlinks : ∑ a ∈ nodeSet, (next a).length ≤ links) :
    b ∈ nodes next links start ↔ ReflTransGen (Leads next) start b := by
  unfold nodes
  constructor
  · intro h
    rcases reachable_of_mem_steps h with h | ⟨a, ha, h⟩
    · cases h
    · rw [List.mem_singleton] at ha
      exact ha ▸ h
  · intro h
    have hsteps : [start].length + remaining next nodeSet [] ≤ links + 1 := by
      simpa [remaining, Nat.add_comm 1] using hlinks
    obtain ⟨hall, hclosed⟩ := steps_closed hout hsteps fun _ h => absurd h List.not_mem_nil
    induction h with
    | refl => exact hall start (.inr List.mem_cons_self)
    | tail _ hlink ih => exact hclosed _ ih _ hlink

end Steps
end Walk
end ContentModels

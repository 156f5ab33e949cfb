/-!
# Walks along links

A depth-first walk visits a node, then what its first link leads to, and so on, and
visits no node twice.  The walk keeps the nodes still to be tried on a stack, so the
number of links bounds the number of steps.  Where a node has at most one link, a walk
is a chain, which is cut off after a given number of nodes.
-/

namespace ContentModels
namespace Walk

variable {α : Type}

/-- The first `n` nodes that a node leads to along single links. -/
def chain (next : α → Option α) : Nat → α → List α
  | 0, _ => []
  | n + 1, a =>
    match next a with
    | none => []
    | some b => b :: chain next n b

variable [BEq α]

/-- At most `n` steps of a walk that has visited some nodes, in order of the visits. -/
def steps (next : α → List α) : Nat → List α → List α → List α
  | 0, visited, _ => visited
  | _ + 1, visited, [] => visited
  | n + 1, visited, a :: pending =>
    if visited.contains a then steps next n visited pending
    else steps next n (visited ++ [a]) (next a ++ pending)

/-- The nodes visited from a start, in order, when at most `links` links can be followed. -/
def nodes (next : α → List α) (links : Nat) (start : α) : List α :=
  steps next (links + 1) [] [start]

end Walk
end ContentModels

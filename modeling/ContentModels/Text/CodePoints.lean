/-!
# Sets and shifts of code points

A property of characters is a list of closed intervals of code points; a case map
is a list of runs in which every member moves by the same distance.
-/

namespace ContentModels
namespace Text

/-- A set of code points, written as closed intervals. -/
abbrev CodePoints := List (Nat × Nat)

namespace CodePoints

/-- Whether the set holds the character. -/
def contains (s : CodePoints) (c : Char) : Bool :=
  s.any fun r => r.1 ≤ c.toNat && c.toNat ≤ r.2

end CodePoints

/-- The code points `first`, `first + step`, … up to `last`, each moved by `distance`. -/
structure CodeShift where
  first : Nat
  last : Nat
  step : Nat
  distance : Int

namespace CodeShift

/-- Whether the run holds the code point. -/
def holds (s : CodeShift) (n : Nat) : Bool :=
  s.first ≤ n && n ≤ s.last && (n - s.first) % s.step == 0

/-- Move a character by the run that holds it; others stay. -/
def apply (runs : List CodeShift) (c : Char) : Char :=
  match runs.find? fun r => r.holds c.toNat with
  | some r => Char.ofNat (Int.toNat (c.toNat + r.distance))
  | none => c

end CodeShift

end Text
end ContentModels

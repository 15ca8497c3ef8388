/-
Ranges of code points.

A class of characters is written down as ranges in rising order, so that
looking a character up can stop at the first range above it.
-/
namespace KnnOracle.Text

/-- Ranges of code points, both ends included. -/
abbrev Ranges := List (Nat × Nat)

namespace Ranges

/-- Whether a code point lies in one of some ranges in rising order. -/
def contains (n : Nat) : Ranges → Bool
  | [] => false
  | (first, last) :: rest =>
      if n < first then false else n ≤ last || contains n rest

end Ranges

end KnnOracle.Text

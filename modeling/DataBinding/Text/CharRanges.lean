/-
# Character ranges

A class of characters is given as an increasing list of ranges of code points, and membership is
read off by walking the list up to the first range that is not wholly below the character.
-/
import DataBinding.Text.Basic

namespace DataBinding.Text

/-- A class of characters as increasing, disjoint, inclusive ranges of code points. -/
abbrev CharRanges := List (Nat × Nat)

/-- The code point lies in one of the ranges. -/
def CharRanges.contains : CharRanges → Nat → Bool
  | [], _ => false
  | (first, last) :: rest, n => if n < first then false else n ≤ last || CharRanges.contains rest n

end DataBinding.Text

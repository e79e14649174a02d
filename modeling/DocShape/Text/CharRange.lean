/-!
# Ranges of characters

A property of characters as the ranges of code points that have it.
-/

set_option autoImplicit false

namespace DocShape.Text

/-- Both ends belong to the range. -/
abbrev CharRange := Nat × Nat

def CharRange.holds (range : CharRange) (char : Char) : Bool :=
  decide (range.1 ≤ char.toNat ∧ char.toNat ≤ range.2)

def inRanges (ranges : List CharRange) (char : Char) : Bool :=
  ranges.any (·.holds char)

end DocShape.Text

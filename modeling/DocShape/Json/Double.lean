/-!
# Finite binary64 numbers

A number is its sign and the rank of its magnitude among the nonnegative
numbers of the format, counted upwards from zero. Ranks are in order of size,
so comparing magnitudes is comparing ranks. Arithmetic is exact on whole
multiples of the least positive number, `2 ^ -1074`, and rounds once.
-/

set_option autoImplicit false

namespace DocShape.Json

/-- The ranks from here on stand for no finite number. -/
def rankLimit : Nat := 2047 * Nat.pow 2 52

structure Double where
  negative : Bool
  rank : Nat
  rank_lt : rank < rankLimit
deriving DecidableEq

namespace Double

/-- The distance from the magnitude to the next larger one is `2 ^ binade`
units. Each binade holds `2 ^ 52` magnitudes; the first one starts at zero and
is twice as long. -/
def binade (rank : Nat) : Nat :=
  rank / Nat.pow 2 52 - 1

/-- How many times the magnitude of this rank holds the least positive one. -/
def units (rank : Nat) : Nat :=
  (rank - binade rank * Nat.pow 2 52) * Nat.pow 2 (binade rank)

def unitsOfOne : Nat := Nat.pow 2 1074

/-- The whole number nearest to a quotient; a half goes to the even neighbour. -/
def divHalfEven (numerator denominator : Nat) : Nat :=
  let below := numerator / denominator
  let twice := 2 * (numerator % denominator)
  if twice < denominator then below
  else if denominator < twice then below + 1
  else below + below % 2

/-- The rank of the magnitude nearest to `numerator / denominator` units; a
half goes to the neighbour with the even rank. The result may lie past
`rankLimit`. -/
def nearestRank (numerator denominator : Nat) : Nat :=
  let spread := (numerator / denominator).log2 - 52
  spread * Nat.pow 2 52 + divHalfEven numerator (denominator * Nat.pow 2 spread)

def rankOfNat (value : Nat) : Nat :=
  nearestRank (value * unitsOfOne) 1

def mulRank (left right : Nat) : Nat :=
  nearestRank (units left * units right) unitsOfOne

def divRank (left right : Nat) : Nat :=
  nearestRank (units left * unitsOfOne) (units right)

/-- A place in the order of numbers, the same for both zeros. -/
def order (value : Double) : Int :=
  if value.negative then -(value.rank : Int) else value.rank

/-- Equality of the numbers: the two zeros are equal. -/
def same (left right : Double) : Bool :=
  left.order == right.order

def ofRank? (negative : Bool) (rank : Nat) : Option Double :=
  if finite : rank < rankLimit then some ⟨negative, rank, finite⟩ else none

/-- The finite number nearest to an integer. -/
def ofInt (value : Int) : Double :=
  ⟨decide (value < 0), min (rankOfNat value.natAbs) (rankLimit - 1), by
    have : 0 < rankLimit := by decide
    omega⟩

@[simp] theorem same_self (value : Double) : value.same value = true := by
  simp [same]

theorem same_iff {left right : Double} : left.same right = true ↔ left.order = right.order := by
  simp [same]

end Double

end DocShape.Json

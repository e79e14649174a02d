import DocShape.Json.Decimal

/-!
# JSON numbers

An integer and a floating point number are different numbers even where they
have the same size. `sameNumber` is the coarser comparison by size, after
conversion to binary64.
-/

set_option autoImplicit false

namespace DocShape.Json

inductive Number where
  | integer (value : Int)
  | float (value : Double)
deriving DecidableEq

namespace Number

def toDouble : Number → Double
  | .integer value => .ofInt value
  | .float value => value

def equal : Number → Number → Bool
  | .integer left, .integer right => left == right
  | .float left, .float right => left.same right
  | _, _ => false

def sameNumber (left right : Number) : Bool :=
  left.toDouble.same right.toDouble

def isNonnegative (number : Number) : Bool :=
  decide (0 ≤ number.toDouble.order)

def write : Number → String
  | .integer value => toString value
  | .float value => value.write

theorem sameNumber_of_equal {left right : Number} (equal : left.equal right = true) :
    left.sameNumber right = true := by
  cases left <;> cases right <;>
    simp_all [Number.equal, sameNumber, toDouble]

end Number

end DocShape.Json

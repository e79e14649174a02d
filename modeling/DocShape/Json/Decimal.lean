import DocShape.Json.Double

/-!
# Decimal notation of binary64 numbers

Reading multiplies or divides the significand, rounded to a number of the
format, by powers of ten that are themselves rounded, at most 308 places at a
time. Writing uses the fewest digits that lie nearer to the number than to any
other one.
-/

set_option autoImplicit false

namespace DocShape.Json

/-- The number `digits * 10 ^ exponent`. -/
structure Decimal where
  digits : Nat
  exponent : Int
deriving DecidableEq

namespace Double

/-! ## From decimal to binary -/

/-- The largest power of ten in the range of the format has this exponent. -/
def largestTen : Nat := 308

def rankOfTen (exponent : Nat) : Nat :=
  rankOfNat (Nat.pow 10 exponent)

def shrinkRank (rank places : Nat) : Nat :=
  if places ≤ largestTen then divRank rank (rankOfTen places)
  else if rank = 0 then 0
  else shrinkRank (divRank rank (rankOfTen largestTen)) (places - largestTen)
termination_by places
decreasing_by simp only [largestTen] at *; omega

/-- `none` where the magnitude is past the largest finite one. -/
def ofDecimal? (negative : Bool) (decimal : Decimal) : Option Double :=
  let significand := rankOfNat decimal.digits
  match decimal.exponent with
  | .ofNat places =>
      if places ≤ largestTen then ofRank? negative (mulRank significand (rankOfTen places))
      else if significand = 0 then ofRank? negative 0
      else none
  | .negSucc places => ofRank? negative (shrinkRank significand (places + 1))

/-! ## From binary to decimal -/

/-- The magnitudes that round to a rank, in quarters of a unit: those between
`lower` and `upper`, the ends included where `closed`. -/
structure RoundingInterval where
  lower : Nat
  middle : Nat
  upper : Nat
  closed : Bool

/-- Halfway to both neighbours. At the foot of a binade the lower neighbour is
half as far as the upper one. -/
def roundingInterval (rank : Nat) : RoundingInterval :=
  let gap := Nat.pow 2 (binade rank)
  let foot := rank % Nat.pow 2 52 = 0 ∧ 0 < binade rank
  let middle := 4 * units rank
  { lower := middle - (if foot then gap else 2 * gap)
    middle
    upper := middle + 2 * gap
    closed := rank % 2 == 0 }

namespace RoundingInterval

def holds (interval : RoundingInterval) (point : Nat) : Bool :=
  (interval.lower < point && point < interval.upper) ||
    (interval.closed && (point == interval.lower || point == interval.upper))

def scale (factor : Nat) (interval : RoundingInterval) : RoundingInterval :=
  { lower := interval.lower * factor
    middle := interval.middle * factor
    upper := interval.upper * factor
    closed := interval.closed }

/-- The multiple of `spacing` in the interval that is nearest to its middle, as
the number of spacings; of two at the same distance the even one. -/
def gridPoint? (interval : RoundingInterval) (spacing : Nat) : Option Nat :=
  let below := interval.middle / spacing
  let above := below + 1
  match interval.holds (below * spacing), interval.holds (above * spacing) with
  | false, false => none
  | true, false => some below
  | false, true => some above
  | true, true =>
      let down := interval.middle - below * spacing
      let up := above * spacing - interval.middle
      if down < up then some below
      else if up < down then some above
      else some (below + below % 2)

end RoundingInterval

/-- Every positive magnitude is at least `10 ^ -leastTen`. -/
def leastTen : Nat := 324

/-- The exponent `e` with `10 ^ e ≤ magnitude < 10 ^ (e + 1)`. -/
def tenExponent (rank : Nat) : Int :=
  let whole := units rank * Nat.pow 10 leastTen / unitsOfOne
  (Nat.toDigits 10 whole).length - (leastTen : Int) - 1

/-- The decimal of at most `count` digits that rounds to the rank. -/
def decimalOfLength? (rank count : Nat) : Option Decimal :=
  let exponent := tenExponent rank - count + 1
  let interval := roundingInterval rank
  let digits := match exponent with
    | .ofNat places => interval.gridPoint? (4 * unitsOfOne * Nat.pow 10 places)
    | .negSucc places => (interval.scale (Nat.pow 10 (places + 1))).gridPoint? (4 * unitsOfOne)
  digits.map fun digits => { digits, exponent }

/-- Seventeen digits always tell a number from its neighbours. -/
def longestDecimal : Nat := 17

/-- The shortest decimal that rounds to the rank, and the nearest of these. -/
def shortestDecimal (rank : Nat) : Decimal :=
  ((List.range longestDecimal).findSome? fun count => decimalOfLength? rank (count + 1)).getD
    { digits := 0, exponent := 0 }

/-! ## Layout -/

/-- Where a decimal is written out in full: scientific exponents from `least`
to `greatest`, with one fraction digit at least. Outside this range one digit
stands before the point, and the exponent carries its sign. -/
structure Layout where
  least : Int
  greatest : Int

def jsonLayout : Layout :=
  { least := -5, greatest := 15 }

def zeros (count : Nat) : String :=
  String.ofList (List.replicate count '0')

namespace Layout

/-- Digits whose point stands behind the first `whole` of them. -/
def positional (digits : List Char) (whole : Nat) : String :=
  if digits.length ≤ whole then
    String.ofList digits ++ zeros (whole - digits.length) ++ ".0"
  else
    String.ofList (digits.take whole) ++ "." ++ String.ofList (digits.drop whole)

def scientific (digits : List Char) (exponent : Int) : String :=
  let fraction := digits.drop 1
  let point := if fraction.isEmpty then "" else "." ++ String.ofList fraction
  let sign := if exponent < 0 then "-" else "+"
  String.ofList (digits.take 1) ++ point ++ "e" ++ sign ++ toString exponent.natAbs

def write (layout : Layout) (decimal : Decimal) : String :=
  let all := Nat.toDigits 10 decimal.digits
  let digits := (all.reverse.dropWhile (· == '0')).reverse
  let exponent := decimal.exponent + all.length - 1
  if exponent < layout.least ∨ layout.greatest < exponent then scientific digits exponent
  else match exponent with
    | .ofNat places => positional digits (places + 1)
    | .negSucc places => "0." ++ zeros places ++ String.ofList digits

end Layout

def write (value : Double) : String :=
  let sign := if value.negative then "-" else ""
  if value.rank = 0 then sign ++ "0.0"
  else sign ++ jsonLayout.write (shortestDecimal value.rank)

end Double

end DocShape.Json

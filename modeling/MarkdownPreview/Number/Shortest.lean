import MarkdownPreview.Number.Binary64

/-!
# The shortest digits that read back

The text of a binary64 number has the fewest significant digits that are read back as the same
number, and of those the nearest to it; an exact tie takes the even last digit. All comparisons are
made in whole numbers.

A number reads back from every value in its *rounding interval*, which reaches half way to the
neighbours on both sides and contains its ends if the last bit of the number is zero. On the grid of
the `n`-digit numbers only the two points next to the number need to be tried: if any point of the
grid lies in the interval, one of these does.
-/
namespace MarkdownPreview.Number

/-- Decimal digits, the most significant first, and the power of ten of the first digit. -/
structure Scientific where
  digits : List Char
  exponent : Int
  deriving DecidableEq, Repr

namespace Scientific

/-- `coefficient * 10^step` as digits. -/
def ofCoefficient (coefficient : Nat) (step : Int) : Scientific :=
  let ds := Nat.toDigits 10 coefficient
  ⟨ds, step + ds.length - 1⟩

/-- The digits without trailing zeros; the first digit stays. -/
def dropTrailingZeros (x : Scientific) : Scientific :=
  match x.digits with
  | [] => x
  | d :: ds => { x with digits := d :: (ds.reverse.dropWhile (· = '0')).reverse }

end Scientific

/-- The power of ten of the first digit of `n / d`, for positive `n` and `d`. -/
def leadingPower (n d : Nat) : Int :=
  if d ≤ n then Binary64.decimalLength (n / d) - 1
  else -(Binary64.decimalLength ((d + n - 1) / n - 1) : Int)

/-- The rounding interval of a positive magnitude, in quarters of a unit. -/
structure RoundingInterval where
  low : Nat
  high : Nat
  closed : Bool

/-- The rounding interval of `u` units. Right above a power of two the lower neighbour is nearer by
half. -/
def RoundingInterval.of (u : Nat) : RoundingInterval :=
  let s := Binary64.spareBits u
  let significand := u / twoTo s
  let below := if significand = twoTo (Binary64.precision - 1) ∧ 0 < s then twoTo s else 2 * twoTo s
  ⟨4 * u - below, 4 * u + 2 * twoTo s, significand % 2 = 0⟩

/-- Whether `n / d`, in quarters of a unit, lies in the interval. -/
def RoundingInterval.contains (i : RoundingInterval) (n d : Nat) : Bool :=
  if i.closed then i.low * d ≤ n && n ≤ i.high * d else i.low * d < n && n < i.high * d

/-- Of the two multiples of `10^step` next to `u` units, the one that reads back as `u`; the nearer
if both do. -/
def neighbour? (u : Nat) (step : Int) : Option Nat :=
  let up := tenTo step.toNat
  let down := tenTo (-step).toNat
  let n := u * down
  let d := Binary64.unitsPerOne * up
  let c := n / d
  let interval := RoundingInterval.of u
  let inside (k : Nat) : Bool := interval.contains (k * up * 4 * Binary64.unitsPerOne) down
  match inside c, inside (c + 1) with
  | true, true => some (roundDiv n d)
  | true, false => some c
  | false, true => some (c + 1)
  | false, false => none

/-- More digits than these are never needed. -/
def maxDigits : Nat := 17

/-- The shortest digits that read back as `u` units. -/
def shortest (u : Nat) : Scientific :=
  let power := leadingPower u Binary64.unitsPerOne
  let grid (digits : Nat) : Option Scientific :=
    let step := power - digits + 1
    (neighbour? u step).map fun c => (Scientific.ofCoefficient c step).dropTrailingZeros
  if u = 0 then ⟨['0'], 0⟩
  else ((List.range' 1 maxDigits).findSome? grid).getD ⟨['0'], 0⟩

/-- The magnitude of `u` units rounded to `p` significant digits. -/
def significant (p u : Nat) : Scientific :=
  if u = 0 then ⟨['0'], 0⟩
  else
    let step := leadingPower u Binary64.unitsPerOne - p + 1
    let c := roundDiv (u * tenTo (-step).toNat) (Binary64.unitsPerOne * tenTo step.toNat)
    (Scientific.ofCoefficient c step).dropTrailingZeros

end MarkdownPreview.Number

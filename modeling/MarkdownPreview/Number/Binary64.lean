import MarkdownPreview.Number.Power
import MarkdownPreview.Number.Rounding

/-!
# Numbers in binary64

A finite binary64 number is a whole multiple of the smallest one, `2^-1074`, so its magnitude is
kept as that multiple. A quotient is put into the format by rounding it to 53 significant bits, a
half going to the even neighbour; what lies beyond the largest finite number becomes infinite.

* `roundUnits_of_lt`: below `2^53` units nothing but whole units is lost.
* `ofRatio_zero`: nothing divided is zero, with its sign.
-/
namespace MarkdownPreview.Number

/-- A binary64 number. The magnitude of a finite one is `units * 2^-1074`. -/
inductive Binary64 where
  | finite (negative : Bool) (units : Nat)
  | infinite (negative : Bool)
  | nan
  deriving DecidableEq, Repr

namespace Binary64

/-- Units to the whole: `2^1074`. -/
@[irreducible] def unitsPerOne : Nat := twoTo 1074

def precision : Nat := 53

@[irreducible] def maxUnits : Nat := (twoTo precision - 1) * twoTo 2045

/-- The least whole number that is too large: half way from the largest finite number to the power
of two above it. -/
@[irreducible] def tooLarge : Nat := twoTo 1024 - twoTo 970

/-- How many low bits of a magnitude of about `u` units the format cannot hold. -/
def spareBits (u : Nat) : Nat :=
  if u < twoTo precision then 0 else u.log2 + 1 - precision

/-- The magnitude `n / d`, in units, rounded to the precision of the format. -/
def roundUnits (n d : Nat) : Nat :=
  let s := spareBits (n / d)
  roundDiv n (d * twoTo s) * twoTo s

theorem roundUnits_of_lt {n d : Nat} (h : n / d < twoTo precision) :
    roundUnits n d = roundDiv n d := by
  simp [roundUnits, spareBits, h]

/-- The number nearest to `n / d`, with a sign. -/
def ofRatio (negative : Bool) (n d : Nat) : Binary64 :=
  let u := roundUnits (n * unitsPerOne) d
  if u ≤ maxUnits then .finite negative u else .infinite negative

theorem ofRatio_zero (negative : Bool) (d : Nat) : ofRatio negative 0 d = .finite negative 0 := by
  have h : roundUnits (0 * unitsPerOne) d = 0 := by
    rw [Nat.zero_mul, roundUnits_of_lt (by rw [Nat.zero_div]; decide)]
    simp [roundDiv]
    omega
  unfold ofRatio
  rw [h]
  simp

/-- The number nearest to a whole number. -/
def ofInt (i : Int) : Binary64 :=
  ofRatio (i < 0) i.natAbs 1

/-- The number nearest to the quotient by a positive whole number. -/
def divNat : Binary64 → (d : Nat) → Binary64
  | .finite s u, d => ofRatio s u (unitsPerOne * d)
  | x, _ => x

/-- How many decimal digits a whole number has; zero has none. -/
def decimalLength (n : Nat) : Nat :=
  if n = 0 then 0 else (Nat.toDigits 10 n).length

/-- The number nearest to `coefficient * 10^exponent`, with a sign. Outside `10^-330` to `10^310`
the answer is zero or infinite and the power need not be computed. -/
def ofDecimal (negative : Bool) (coefficient : Nat) (exponent : Int) : Binary64 :=
  let top := decimalLength coefficient + exponent
  if coefficient = 0 then .finite negative 0
  else if 310 < top then .infinite negative
  else if top < -330 then .finite negative 0
  else ofRatio negative (coefficient * tenTo exponent.toNat) (tenTo (-exponent).toNat)

def isZero : Binary64 → Bool
  | .finite _ u => u = 0
  | _ => false

def isPositive : Binary64 → Bool
  | .finite s u => !s && u ≠ 0
  | .infinite s => !s
  | .nan => false

def isNegative : Binary64 → Bool
  | .finite s u => s && u ≠ 0
  | .infinite s => s
  | .nan => false

end Binary64

end MarkdownPreview.Number

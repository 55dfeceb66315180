import MarkdownPreview.Number.Shortest

/-!
# Number texts

A `Layout` says how digits are set: between which powers of ten they are written out, and whether a
whole number keeps a fraction of zero. Two layouts are in use. Durations are reported with all the
digits that matter (`exactLayout`), and messages show six significant digits (`briefLayout`).
-/
namespace MarkdownPreview.Number

structure Layout where
  /-- From this power of ten of the first digit on, digits are written out. -/
  low : Int
  /-- From this power on they are not. -/
  high : Int
  /-- Whether a whole number ends in `.0`. -/
  keepsFraction : Bool
  /-- The least number of digits of an exponent. -/
  exponentWidth : Nat

/-- All digits that matter, a fraction always, an exponent below `10^-4` and from `10^16` on. -/
def exactLayout : Layout := ⟨-4, 16, true, 2⟩

/-- How many digits a message shows. -/
def briefDigits : Nat := 6

/-- No fraction of zero, and an exponent below `10^-4` and from `10^6` on. -/
def briefLayout : Layout := ⟨-4, briefDigits, false, 2⟩

def zeros (n : Nat) : List Char := List.replicate n '0'

def Layout.writeOut (l : Layout) (x : Scientific) : List Char :=
  if x.exponent < 0 then
    ['0', '.'] ++ zeros (-x.exponent - 1).toNat ++ x.digits
  else
    let whole := x.exponent.toNat + 1
    if x.digits.length ≤ whole then
      x.digits ++ zeros (whole - x.digits.length) ++ (if l.keepsFraction then ['.', '0'] else [])
    else x.digits.take whole ++ ['.'] ++ x.digits.drop whole

/-- Digits with an exponent. -/
def Layout.writeExponent (l : Layout) (x : Scientific) : List Char :=
  let e := Nat.toDigits 10 x.exponent.natAbs
  x.digits.take 1 ++ (if x.digits.length ≤ 1 then [] else '.' :: x.digits.drop 1) ++
    ['e', if x.exponent < 0 then '-' else '+'] ++ zeros (l.exponentWidth - e.length) ++ e

def Layout.write (l : Layout) (x : Scientific) : List Char :=
  if l.low ≤ x.exponent ∧ x.exponent < l.high then l.writeOut x else l.writeExponent x

/-- A text with the sign of a number before it. -/
def signed (negative : Bool) (text : List Char) : String :=
  String.ofList (if negative then '-' :: text else text)

/-- The text of a number in a layout, given the digits of its magnitude. -/
def Binary64.textWith (l : Layout) (digits : Nat → Scientific) : Binary64 → String
  | .finite s u => signed s (l.write (digits u))
  | .infinite s => signed s "inf".toList
  | .nan => "nan"

/-- The shortest text that reads back as the number. -/
def Binary64.exactText : Binary64 → String :=
  Binary64.textWith exactLayout shortest

/-- The text of a number in messages. -/
def Binary64.briefText : Binary64 → String :=
  Binary64.textWith briefLayout (significant briefDigits)

end MarkdownPreview.Number

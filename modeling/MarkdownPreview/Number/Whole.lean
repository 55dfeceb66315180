import MarkdownPreview.Number.Power
import MarkdownPreview.Text.Blank
import MarkdownPreview.Text.Digit

/-!
# Whole numbers as text

A whole number is written with decimal digits of any script, after an optional sign. One underscore
may stand between two digits, and blanks around the whole. Very long numbers are refused.

* `digitsOf?_of_digits`: digits alone are read as they are.
-/
namespace MarkdownPreview.Number

def maxWholeDigits : Nat := 4300

/-- The least number of more digits than that. -/
def tooLong : Nat := tenTo maxWholeDigits

/-- Whether a character may stand around a number: the ASCII separators may not. -/
def isNumberBlank (c : Char) : Bool :=
  Text.isAsciiBlank c || (0x80 ≤ c.toNat && Text.isBlank c)

/-- The values of digits that may be parted by underscores, if there is any digit. -/
def digitsOf? : List Char → Option (List Nat)
  | [] => none
  | [c] => (Text.digit? c).map fun n => [n]
  | c :: d :: r =>
    match Text.digit? c with
    | none => none
    | some n => (if d = '_' then digitsOf? r else digitsOf? (d :: r)).map (n :: ·)

/-- The number that decimal digits stand for, after the digits of `n`. -/
def fromDigits (n : Nat) (digits : List Nat) : Nat :=
  digits.foldl (fun n d => 10 * n + d) n

/-- A whole number without a sign. -/
def readDigits? (s : List Char) : Option Nat :=
  match digitsOf? s with
  | none => none
  | some ds => if ds.length ≤ maxWholeDigits then some (fromDigits 0 ds) else none

/-- A whole number without blanks around it. -/
def readSigned? : List Char → Option Int
  | '-' :: r => (readDigits? r).map fun n => -(n : Int)
  | '+' :: r => (readDigits? r).map fun n => (n : Int)
  | s => (readDigits? s).map fun n => (n : Int)

def readWhole? (s : List Char) : Option Int :=
  let s := s.dropWhile isNumberBlank
  readSigned? (s.reverse.dropWhile isNumberBlank).reverse

theorem digitsOf?_of_digits {s : List Char} {ds : List Nat} (hs : s ≠ [])
    (h : s.map Text.digit? = ds.map some) : digitsOf? s = some ds := by
  induction s generalizing ds with
  | nil => exact absurd rfl hs
  | cons c r ih =>
    match ds with
    | [] => simp at h
    | d :: ds =>
      simp only [List.map_cons, List.cons.injEq] at h
      match r, ds with
      | [], [] => simp [digitsOf?, h.1]
      | [], _ :: _ => simp at h
      | _ :: _, [] => simp at h
      | e :: r, f :: ds =>
        have he : e ≠ '_' := by
          rintro rfl
          have : Text.digit? '_' = none := by decide
          simp [this] at h
        simp [digitsOf?, h.1, he, ih (by simp) h.2]

end MarkdownPreview.Number

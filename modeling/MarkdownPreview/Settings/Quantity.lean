import MarkdownPreview.Json.Value
import MarkdownPreview.Number.Whole

/-!
# Quantities of the settings

The time limit and the width of images are quantities. In options that have been checked a quantity
is a whole number of any size. Settings handed over without a check may also hold a number with a
fraction, or a Boolean, which counts as one or zero.

* `ofValue?_toValue`, `toValue_inj`: the JSON value of a quantity is read back.
* `isPositive_whole`, `isNegative_whole`: a whole number is compared as such.
* `toBinary64?_isSome_iff`: only whole numbers can be too large for a number of the format.
* `text?_whole`: a whole number has a text unless its digits are too many.
-/
namespace MarkdownPreview

open Json (Value)
open Number (Binary64)

inductive Quantity where
  | whole (i : Int)
  | real (x : Binary64)
  | truth (b : Bool)
  deriving DecidableEq, Repr

namespace Quantity

def toValue : Quantity → Value
  | whole i => .int i
  | real x => .real x
  | truth b => .bool b

/-- The quantity that a JSON value is, if it is one. -/
def ofValue? : Value → Option Quantity
  | .int i => some (whole i)
  | .real x => some (real x)
  | .bool b => some (truth b)
  | _ => none

@[simp] theorem ofValue?_toValue (q : Quantity) : ofValue? q.toValue = some q := by
  cases q <;> rfl

@[simp] theorem toValue_inj {q r : Quantity} : q.toValue = r.toValue ↔ q = r := by
  refine ⟨fun h => ?_, congrArg toValue⟩
  have hread : ofValue? q.toValue = ofValue? r.toValue := congrArg ofValue? h
  simpa using hread

def isPositive : Quantity → Bool
  | whole i => 0 < i
  | real x => x.isPositive
  | truth b => b

def isNegative : Quantity → Bool
  | whole i => i < 0
  | real x => x.isNegative
  | truth _ => false

@[simp] theorem isPositive_whole (i : Int) : (whole i).isPositive = true ↔ 0 < i := by
  simp [isPositive]

@[simp] theorem isNegative_whole (i : Int) : (whole i).isNegative = true ↔ i < 0 := by
  simp [isNegative]

/-- A quantity as a number of the format, unless it is a whole number that is too large. -/
def toBinary64? : Quantity → Option Binary64
  | whole i => if i.natAbs < Binary64.tooLarge then some (Binary64.ofInt i) else none
  | real x => some x
  | truth b => some (Binary64.ofInt (if b then 1 else 0))

theorem toBinary64?_isSome_iff (q : Quantity) :
    q.toBinary64?.isSome = true ↔ ∀ i, q = whole i → i.natAbs < Binary64.tooLarge := by
  cases q <;> simp [toBinary64?]

/-- Whether a quantity has few enough digits to be written. -/
def isWritable : Quantity → Bool
  | whole i => i.natAbs < Number.tooLong
  | _ => true

theorem isWritable_whole (i : Int) : (whole i).isWritable = true ↔ i.natAbs < Number.tooLong := by
  simp only [isWritable, decide_eq_true_eq]

/-- The digits of a number, or the name of a Boolean, if they can be written. -/
def text? (q : Quantity) : Option String :=
  if q.isWritable then some (String.ofList q.toValue.literal) else none

theorem text?_of_isWritable {q : Quantity} (h : q.isWritable = true) :
    q.text? = some (String.ofList q.toValue.literal) := by
  rw [text?, if_pos h]

theorem literal_whole (i : Int) : String.ofList (whole i).toValue.literal = toString i :=
  String.ofList_toList

theorem text?_whole {i : Int} (h : i.natAbs < Number.tooLong) :
    (whole i).text? = some (toString i) := by
  have hw : (whole i).isWritable = true := (isWritable_whole i).2 h
  rw [text?_of_isWritable hw, literal_whole]

end Quantity

end MarkdownPreview

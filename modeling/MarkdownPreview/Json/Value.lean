import MarkdownPreview.Number.Layout
import MarkdownPreview.Text.Phrase

/-!
# JSON values

Options, request fields and flags arrive as JSON values. Whole numbers are of any size and differ
from numbers with a fraction, and an object keeps its keys in the order in which they first appear.
Texts and keys are phrases, as an escape may spell a lone surrogate.

* `Fields.get?_put_self`, `Fields.get?_put_of_ne`: a field put last is the one that is found.
* `Value.truthy_bool`: a Boolean counts as itself.
-/
namespace MarkdownPreview.Json

open Number (Binary64)
open Text (Phrase Point)

inductive Value where
  | null
  | bool (b : Bool)
  /-- A number written without fraction and exponent. -/
  | int (i : Int)
  /-- A number written with a fraction or an exponent. -/
  | real (x : Binary64)
  | phrase (p : Phrase)
  | array (items : List Value)
  /-- Keys are distinct, in the order of their first appearance. -/
  | object (fields : List (Phrase × Value))
  deriving Inhabited, Repr

abbrev Fields := List (Phrase × Value)

/-- A text without lone surrogates. -/
@[match_pattern] abbrev Value.text (s : String) : Value := .phrase (.plain s)

namespace Fields

def get? (fields : Fields) (key : String) : Option Value :=
  List.lookup (.plain key) fields

/-- The fields with one more, or with a new value in the place of the old one. -/
def put : Fields → Phrase → Value → Fields
  | [], key, v => [(key, v)]
  | (k, w) :: r, key, v => if k = key then (k, v) :: r else (k, w) :: put r key v

/-- The fields of a list of pairs, where the last value of a key counts. -/
def ofPairs (pairs : List (Phrase × Value)) : Fields :=
  pairs.foldl (fun fields (k, v) => put fields k v) []

theorem get?_put_self (fields : Fields) (key : String) (v : Value) :
    (fields.put (.plain key) v).get? key = some v := by
  induction fields with
  | nil => simp [put, get?]
  | cons f r ih =>
    obtain ⟨k, w⟩ := f
    by_cases h : k = .plain key
    · simp [put, get?, h]
    · have : (Phrase.plain key == k) = false := by simpa using fun e => h e.symm
      simpa [put, get?, h, List.lookup_cons, this] using ih

theorem get?_put_of_ne (fields : Fields) {key : Phrase} {other : String} (v : Value)
    (h : key ≠ .plain other) : (fields.put key v).get? other = fields.get? other := by
  have ho : (Phrase.plain other == key) = false := by simpa using fun e => h e.symm
  induction fields with
  | nil => simp [put, get?, List.lookup_cons, ho]
  | cons f r ih =>
    obtain ⟨k, w⟩ := f
    by_cases hk : k = key
    · simp [put, get?, hk, List.lookup_cons, ho]
    · cases hok : Phrase.plain other == k with
      | true => simp [put, get?, hk, List.lookup_cons, hok]
      | false => simpa [put, get?, hk, List.lookup_cons, hok] using ih

end Fields

namespace Value

/-- Whether a value counts as true: null, false, zero and whatever is empty do not. -/
def truthy : Value → Bool
  | null => false
  | bool b => b
  | int i => i ≠ 0
  | real x => !x.isZero
  | phrase p => p ≠ .plain ""
  | array items => !items.isEmpty
  | object fields => !fields.isEmpty

@[simp] theorem truthy_bool (b : Bool) : (bool b).truthy = b := rfl

def isCompound : Value → Bool
  | array _ | object _ => true
  | _ => false

mutual

/-- A value as it is shown inside another one. -/
def literal : Value → List Char
  | null => "None".toList
  | bool true => "True".toList
  | bool false => "False".toList
  | int i => (toString i).toList
  | real x => x.exactText.toList
  | phrase p => Point.quoted p.points
  | array items => '[' :: literalItems items ++ [']']
  | object fields => '\x7b' :: literalFields fields ++ ['\x7d']

/-- The items of an array, with commas between them. -/
def literalItems : List Value → List Char
  | [] => []
  | [v] => literal v
  | v :: w :: r => literal v ++ ", ".toList ++ literalItems (w :: r)

/-- The fields of an object, with commas between them. -/
def literalFields : List (Phrase × Value) → List Char
  | [] => []
  | [(k, v)] => Point.quoted k.points ++ ": ".toList ++ literal v
  | (k, v) :: f :: r =>
    Point.quoted k.points ++ ": ".toList ++ literal v ++ ", ".toList ++ literalFields (f :: r)

end

/-- A value as a text of its own: a text is itself, anything else is shown. -/
def display : Value → List Point
  | phrase p => p.points
  | v => Point.ofChars v.literal

end Value

end MarkdownPreview.Json

import MarkdownPreview.Json.Value
import MarkdownPreview.Number.Whole
import MarkdownPreview.Text.Utf8
import MarkdownPreview.Text.WideUnits

/-!
# Reading JSON

A JSON text is read by recursive descent. White space is space, tab, line feed and carriage return;
characters below space may not stand in a text; `NaN`, `Infinity` and `-Infinity` are numbers; the
last of several fields of one name counts. A whole number of more digits than `maxWholeDigits` is
refused, and so is an array or an object inside more of them than there is room for.

The octets of a document may be UTF-8, UTF-16 or UTF-32: a byte order mark decides, or else the
places of the zero octets among the first four (`detect`).

* `skipBlanks_length`: skipping white space never lengthens a text.
* `readWithin_of_trailing`: nothing but white space may follow the value.
-/
namespace MarkdownPreview.Json

open Number (Binary64 fromDigits maxWholeDigits)
open Text (Phrase Point WideUnits.ByteOrder)

/-! ## Faults -/

/-- What holds other values. -/
inductive Container where
  | array
  | object
  deriving DecidableEq, Repr

inductive ReadError where
  | malformed
  /-- There is no room for one more array or object inside others. -/
  | tooDeep (c : Container)
  deriving DecidableEq, Repr

/-- What has been read, if there is something. -/
def orMalformed : Option α → Except ReadError α
  | some x => .ok x
  | none => .error .malformed

/-! ## Leaves -/

/-- White space between the parts of a document. -/
def isSpace : Point → Bool
  | .char c => c = ' ' || c = '\t' || c = '\n' || c = '\r'
  | .lone _ => false

def skipBlanks (s : List Point) : List Point :=
  s.dropWhile isSpace

theorem skipBlanks_length (s : List Point) : (skipBlanks s).length ≤ s.length :=
  (List.dropWhile_suffix _).length_le

/-- The text after a word, if it starts with it. -/
def afterWord? (w : String) (s : List Point) : Option (List Point) :=
  let word := Point.ofChars w.toList
  if word.isPrefixOf s then some (s.drop word.length) else none

def hexValue? (p : Point) : Option Nat :=
  let c := p.shown
  if '0' ≤ c ∧ c ≤ '9' then some (c.toNat - 48)
  else if 'a' ≤ c ∧ c ≤ 'f' then some (c.toNat - 87)
  else if 'A' ≤ c ∧ c ≤ 'F' then some (c.toNat - 55)
  else none

def fourDigits? (a b c d : Point) : Option Nat :=
  [a, b, c, d].foldlM (fun n x => (hexValue? x).map (n * 16 + ·)) 0

def shortEscape? : Point → Option Char
  | .char '"' => some '"'
  | .char '\\' => some '\\'
  | .char '/' => some '/'
  | .char 'b' => some '\x08'
  | .char 'f' => some '\x0c'
  | .char 'n' => some '\n'
  | .char 'r' => some '\r'
  | .char 't' => some '\t'
  | _ => none

/-- Whether a point stands for itself inside a text. -/
def isLiteral (p : Point) : Bool :=
  match p with
  | .char c => ' ' ≤ c && c ≠ '\\'
  | .lone _ => true

/-- How a point of a JSON text is written. -/
inductive Written where
  | asItself (p : Point)
  /-- By its number. -/
  | byNumber (n : Nat)
  deriving DecidableEq, Repr

/-- The points that are written. Two numbers that form a pair of surrogates are one point. -/
def Written.points : List Written → List Point
  | [] => []
  | .asItself p :: r => p :: points r
  | .byNumber n :: .byNumber low :: r =>
    if Text.WideUnits.isHigh n && Text.WideUnits.isLow low then
      .ofNat (Text.WideUnits.pairValue n low) :: points r
    else .ofNat n :: points (.byNumber low :: r)
  | .byNumber n :: r => .ofNat n :: points r

/-- What a JSON text holds after its opening quote, and the rest after the closing one. -/
def readWritten? : List Point → Option (List Written × List Point)
  | [] => none
  | .char '"' :: r => some ([], r)
  | .char '\\' :: .char 'u' :: a :: b :: c :: d :: r => do
    let n ← fourDigits? a b c d
    let (ws, r) ← readWritten? r
    pure (.byNumber n :: ws, r)
  | .char '\\' :: p :: r => do
    let e ← shortEscape? p
    let (ws, r) ← readWritten? r
    pure (.asItself (.char e) :: ws, r)
  | p :: r =>
    if isLiteral p then (readWritten? r).map fun (ws, t) => (.asItself p :: ws, t) else none

/-- A JSON text after its opening quote. -/
def readText? (s : List Point) : Option (Phrase × List Point) :=
  (readWritten? s).map fun (ws, r) => (.ofPoints (Written.points ws), r)

/-! ## Numbers -/

def isDigit (p : Point) : Bool :=
  '0' ≤ p.shown && p.shown ≤ '9'

def digitsValue (ds : List Point) : Nat :=
  fromDigits 0 (ds.map fun p => p.shown.toNat - '0'.toNat)

/-- The digits of the whole part: a single zero, or digits that start with another one. -/
def wholeDigits? : List Point → Option (List Point × List Point)
  | .char '0' :: r => some ([.char '0'], r)
  | s =>
    let ds := s.takeWhile isDigit
    if ds.isEmpty then none else some (ds, s.dropWhile isDigit)

/-- The digits of a fraction, none if there is no fraction. -/
def fractionDigits : List Point → List Point × List Point
  | .char '.' :: r =>
    let ds := r.takeWhile isDigit
    if ds.isEmpty then ([], .char '.' :: r) else (ds, r.dropWhile isDigit)
  | s => ([], s)

def exponent? (s : List Point) : Option (Int × List Point) :=
  let signedDigits (negative : Bool) (r : List Point) : Option (Int × List Point) :=
    let ds := r.takeWhile isDigit
    if ds.isEmpty then none
    else
      let n : Int := digitsValue ds
      some (if negative then -n else n, r.dropWhile isDigit)
  match s with
  | e :: r =>
    if e = .char 'e' ∨ e = .char 'E' then
      match r with
      | .char '-' :: r => signedDigits true r
      | .char '+' :: r => signedDigits false r
      | r => signedDigits false r
    else none
  | [] => none

def readNumber? (s : List Point) : Option (Value × List Point) := do
  let (negative, s) := match s with
    | .char '-' :: r => (true, r)
    | s => (false, s)
  let (whole, s) ← wholeDigits? s
  let (fraction, s) := fractionDigits s
  match exponent? s with
  | some (e, r) =>
    pure (.real (.ofDecimal negative (digitsValue (whole ++ fraction)) (e - fraction.length)), r)
  | none =>
    if !fraction.isEmpty then
      pure (.real (.ofDecimal negative (digitsValue (whole ++ fraction)) (-fraction.length)), s)
    else if maxWholeDigits < whole.length then none
    else
      let n : Int := digitsValue whole
      pure (.int (if negative then -n else n), s)

/-- A value that holds no others and is no text, and the rest. -/
def readAtom? (s : List Point) : Option (Value × List Point) :=
  let words : List (String × Value) :=
    [("null", .null), ("true", .bool true), ("false", .bool false), ("NaN", .real .nan),
      ("Infinity", .real (.infinite false)), ("-Infinity", .real (.infinite true))]
  (words.findSome? fun (w, v) => (afterWord? w s).map (v, ·)).or (readNumber? s)

/-! ## Values -/

mutual

/-- A value at the start of a text, and the rest. There is `room` for so many arrays and objects
inside each other. -/
def readValue : (fuel room : Nat) → List Point → Except ReadError (Value × List Point)
  | 0, _, _ => .error .malformed
  | _ + 1, _, .char '"' :: r =>
    (orMalformed (readText? r)).map fun (t, r) => (.phrase t, r)
  | _ + 1, 0, .char '[' :: _ => .error (.tooDeep .array)
  | fuel + 1, room + 1, .char '[' :: r =>
    match skipBlanks r with
    | .char ']' :: r => .ok (.array [], r)
    | r => (readItems fuel room r).map fun (items, r) => (.array items, r)
  | _ + 1, 0, .char '\x7b' :: _ => .error (.tooDeep .object)
  | fuel + 1, room + 1, .char '\x7b' :: r =>
    match skipBlanks r with
    | .char '\x7d' :: r => .ok (.object [], r)
    | r => (readFields fuel room r).map fun (pairs, r) => (.object (Fields.ofPairs pairs), r)
  | _ + 1, _, s => orMalformed (readAtom? s)

/-- The items of an array from the first one on, and the rest after the bracket. -/
def readItems : (fuel room : Nat) → List Point → Except ReadError (List Value × List Point)
  | 0, _, _ => .error .malformed
  | fuel + 1, room, s => do
    let (v, r) ← readValue fuel room s
    match skipBlanks r with
    | .char ']' :: r => pure ([v], r)
    | .char ',' :: r =>
      let (items, r) ← readItems fuel room (skipBlanks r)
      pure (v :: items, r)
    | _ => .error .malformed

/-- The fields of an object from the first one on, and the rest after the brace. -/
def readFields : (fuel room : Nat) → List Point →
    Except ReadError (List (Phrase × Value) × List Point)
  | fuel + 1, room, .char '"' :: r => do
    let (key, r) ← orMalformed (readText? r)
    match skipBlanks r with
    | .char ':' :: r =>
      let (v, r) ← readValue fuel room (skipBlanks r)
      match skipBlanks r with
      | .char '\x7d' :: r => pure ([(key, v)], r)
      | .char ',' :: r =>
        let (fields, r) ← readFields fuel room (skipBlanks r)
        pure ((key, v) :: fields, r)
      | _ => .error .malformed
    | _ => .error .malformed
  | _, _, _ => .error .malformed

end

/-- The value of a document, with room for so many arrays and objects inside each other. Of two
steps of the descent one at least takes a character, so twice the length of the text bounds their
number. -/
def readWithin (room : Nat) (s : List Point) : Except ReadError Value :=
  match readValue (2 * s.length + 2) room (skipBlanks s) with
  | .error e => .error e
  | .ok (v, r) => if (skipBlanks r).isEmpty then .ok v else .error .malformed

theorem readWithin_of_trailing {room : Nat} {s r : List Point} {v : Value}
    (h : readValue (2 * s.length + 2) room (skipBlanks s) = .ok (v, r)) (hr : skipBlanks r ≠ []) :
    readWithin room s = .error .malformed := by
  simp [readWithin, h, hr]

/-- The value of a document of characters, however deep it goes. -/
def read? (s : String) : Option Value :=
  (readWithin s.length (Point.ofChars s.toList)).toOption

/-! ## Octets -/

/-- How the octets of a document make up its text. -/
inductive Encoding where
  | utf8
  | utf16 (order : WideUnits.ByteOrder)
  | utf32 (order : WideUnits.ByteOrder)
  deriving DecidableEq, Repr

/-- The encoding that a byte order mark announces, and the octets after the mark. -/
def marked? (bytes : List UInt8) : Option (Encoding × List UInt8) :=
  let marks : List (List UInt8 × Encoding) :=
    [([0x00, 0x00, 0xfe, 0xff], .utf32 .bigEnd), ([0xff, 0xfe, 0x00, 0x00], .utf32 .littleEnd),
      ([0xfe, 0xff], .utf16 .bigEnd), ([0xff, 0xfe], .utf16 .littleEnd),
      ([0xef, 0xbb, 0xbf], .utf8)]
  marks.findSome? fun (mark, encoding) =>
    if mark.isPrefixOf bytes then some (encoding, bytes.drop mark.length) else none

/-- The encoding that the zero octets show. -/
def guessed : List UInt8 → Encoding
  | [0, _] => .utf16 .bigEnd
  | [_, 0] => .utf16 .littleEnd
  | 0 :: 0 :: _ :: _ :: _ => .utf32 .bigEnd
  | 0 :: _ :: _ :: _ :: _ => .utf16 .bigEnd
  | _ :: 0 :: 0 :: 0 :: _ => .utf32 .littleEnd
  | _ :: 0 :: _ :: _ :: _ => .utf16 .littleEnd
  | _ => .utf8

/-- The encoding of a document, and its octets without a byte order mark. -/
def detect (bytes : List UInt8) : Encoding × List UInt8 :=
  (marked? bytes).getD (guessed bytes, bytes)

def Encoding.decode? : Encoding → List UInt8 → Option (List Point)
  | utf8, bytes => Text.Utf8.decodePoints? bytes
  | utf16 order, bytes => Text.WideUnits.decode16? order bytes
  | utf32 order, bytes => Text.WideUnits.decode32? order bytes

def readBytes (room : Nat) (bytes : List UInt8) : Except ReadError Value :=
  let (encoding, rest) := detect bytes
  match encoding.decode? rest with
  | none => .error .malformed
  | some s => readWithin room s

end MarkdownPreview.Json

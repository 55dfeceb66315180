import MarkdownPreview.Text.Blank
import MarkdownPreview.Text.Charset
import MarkdownPreview.Text.LowerCase
import MarkdownPreview.Text.Point
import MarkdownPreview.Text.Quoted
import MarkdownPreview.Web.Form

/-!
# Parameters of a header

A header of several parts has semicolons between them, which count only outside quotes. Each part
behind the first is a parameter: a name and a value. A parameter may itself come in pieces, whose
names end in an asterisk, a number, or both. An asterisk at the very end says that the piece is
written in octets; the joined value then may start with the name of a charset and a language, each
before an apostrophe.

* `splitParts_of_plain`: without semicolons there is one part.
* `pieceName?_of_plain`: a name without an asterisk is no piece's.
-/
namespace MarkdownPreview.Web.Parameter

/-! ## Parts -/

/-- The parts of a header, given the part so far, last character first. A quote behind a backslash
neither opens nor closes. -/
def splitParts : (quoted escaped : Bool) → (part : List Char) → List Char → List (List Char)
  | _, _, part, [] => [part.reverse]
  | quoted, escaped, part, c :: r =>
    if c = ';' && !quoted then part.reverse :: splitParts false false [] r
    else
      let quoted := if c = '"' && !escaped then !quoted else quoted
      splitParts quoted (c = '\\') (c :: part) r

theorem splitParts_of_plain {s : List Char} (h : ';' ∉ s) (quoted escaped : Bool)
    (part : List Char) : splitParts quoted escaped part s = [part.reverse ++ s] := by
  induction s generalizing quoted escaped part with
  | nil => simp [splitParts]
  | cons c r ih =>
    simp only [List.mem_cons, not_or] at h
    simp [splitParts, Ne.symm h.1, ih h.2]

/-- The name and the value of a part. A name without a value keeps its capitals. -/
def ofPart (part : List Char) : List Char × List Char :=
  if part.contains '=' then
    let (name, value) := Form.cut part
    (Text.lowerCase (Text.trim name), Text.trim value)
  else (Text.trim part, [])

/-! ## Quotes -/

/-- A text with `c` for each pair of the characters `a` and `b`. -/
def replacePairs (a b c : Char) : List Char → List Char
  | x :: y :: r =>
    if x = a ∧ y = b then c :: replacePairs a b c r else x :: replacePairs a b c (y :: r)
  | s => s

/-- A value without the quotes or the angle brackets around it. -/
def unquoted (value : List Char) : List Char :=
  match value, value.getLast? with
  | '"' :: r@(_ :: _), some '"' =>
    replacePairs '\\' '"' '"' (replacePairs '\\' '\\' '\\' r.dropLast)
  | '<' :: r@(_ :: _), some '>' => r.dropLast
  | _, _ => value

/-- A text as it would stand inside quotes. -/
def escaped (s : List Char) : List Char :=
  s.flatMap fun c => if c = '\\' ∨ c = '"' then ['\\', c] else [c]

/-! ## Pieces -/

/-- One piece of the value of a parameter. -/
structure Piece where
  number : Option Nat
  text : List Char
  /-- Whether it is written in octets. -/
  encoded : Bool
  deriving DecidableEq, Repr

def isWordChar (c : Char) : Bool :=
  c.isAlphanum || c = '_'

/-- The number behind an asterisk, if anything is to be there; another asterisk may follow it. -/
def pieceNumber? (s : List Char) : Option (Option Nat) :=
  let digits := s.takeWhile Char.isDigit
  match s.dropWhile Char.isDigit with
  | [] =>
    if digits.isEmpty then some none
    else some (some (digits.foldl (fun n c => 10 * n + (c.toNat - '0'.toNat)) 0))
  | ['*'] =>
    if digits.isEmpty then none
    else some (some (digits.foldl (fun n c => 10 * n + (c.toNat - '0'.toNat)) 0))
  | _ => none

/-- The name of the parameter of which a name names a piece, and the piece's number. -/
def pieceName? (name : List Char) : Option (List Char × Option Nat) :=
  let base := name.takeWhile isWordChar
  match base, name.dropWhile isWordChar with
  | _ :: _, '*' :: r => (pieceNumber? r).map fun n => (base, n)
  | _, _ => none

theorem pieceName?_of_plain {name : List Char} (h : '*' ∉ name) : pieceName? name = none := by
  have hm : ∀ r, name.dropWhile isWordChar ≠ '*' :: r := fun r hr =>
    h ((List.dropWhile_sublist isWordChar).subset (hr ▸ List.mem_cons_self))
  simp only [pieceName?]
  split
  · exact absurd ‹_› (hm _)
  · rfl

/-- The characters that octets written with `%` stand for, one for each octet. -/
def octetChars : List Char → List Char
  | p :: a :: b :: r =>
    if p = '%' then
      match Form.octet? a b with
      | some o => Char.ofNat o.toNat :: octetChars r
      | none => p :: octetChars (a :: b :: r)
    else p :: octetChars (a :: b :: r)
  | s => s

def Piece.content (p : Piece) : List Char :=
  if p.encoded then octetChars p.text else p.text

/-- Whether one piece goes before another: by number, then by text. -/
def Piece.before (p q : Piece) : Bool :=
  if p.number ≠ q.number then p.number.getD 0 < q.number.getD 0
  else if p.text ≠ q.text then String.ofList p.text < String.ofList q.text
  else !p.encoded || q.encoded

/-- Whether the first piece that differs from the one before it in having a number does have one. -/
def oddPiece? : List Piece → Option Bool
  | p :: q :: r =>
    if p.number.isSome = q.number.isSome then oddPiece? (q :: r) else some q.number.isSome
  | _ => none

/-! ## Values -/

inductive Value where
  | plain (text : List Char)
  /-- A value written in octets, with the name of the charset, if there is one. -/
  | octets (charset : Option (List Char)) (text : List Char)
  deriving DecidableEq, Repr

/-- The name of a charset, if there is one; a name without characters is none. -/
def charsetName? (name : List Char) : Option (List Char) :=
  if name.isEmpty then none else some (escaped name)

/-- The value that octets make up: a charset and a language may stand before the text, and either
may be left out. -/
def Value.ofOctets (s : List Char) : Value :=
  if 2 ≤ s.count '\'' then
    let behind := (s.dropWhile (· ≠ '\'')).drop 1
    .octets (charsetName? (s.takeWhile (· ≠ '\''))) ((behind.dropWhile (· ≠ '\'')).drop 1)
  else .octets none s

/-- The value that pieces make up, if they are in order. -/
def Value.ofPieces (ps : List Piece) : Value :=
  let text := ps.flatMap Piece.content
  if ps.any Piece.encoded then .ofOctets text else .plain text

/-- A character as an octet holds it; what none can hold is written by its number. -/
def octetText (c : Char) : List Char :=
  let n := c.toNat
  if n < 0x80 then [c]
  else if n < 0x100 then [Text.Point.replacement]
  else if n < 0x10000 then ['\\', 'u'] ++ Text.hex 4 n
  else ['\\', 'U'] ++ Text.hex 8 n

/-- The text of a value as far as it is ASCII; none if its charset writes ASCII as something
else. -/
def Value.text? : Value → Option (List Char)
  | plain s => some s
  | octets charset s =>
    if charset.any Text.Charset.isWide then none else some (s.flatMap octetText)

/-! ## Reading -/

inductive Fault where
  /-- A value is in a charset that nobody knows. -/
  | unknownCharset (name : List Char)
  /-- Nothing can be read in the charset of a value. -/
  | barredCharset (name : List Char) (reason : String)
  /-- The name of a charset holds a zero. -/
  | zeroInCharset
  /-- Some pieces of a parameter have numbers and some have none. -/
  | unordered (laterNumbered : Bool)
  deriving DecidableEq, Repr

def addPiece : List (List Char × List Piece) → List Char → Piece → List (List Char × List Piece)
  | [], name, p => [(name, [p])]
  | (n, ps) :: r, name, p =>
    if n = name then (n, ps ++ [p]) :: r else (n, ps) :: addPiece r name p

/-- Parameters in one piece, and the pieces of the others. -/
structure Sorted where
  whole : List (List Char × Value) := []
  pieces : List (List Char × List Piece) := []
  deriving DecidableEq, Repr

/-- The parameters that have been read, with one more. -/
def Sorted.add (s : Sorted) (parameter : List Char × List Char) : Sorted :=
  let (name, value) := parameter
  match pieceName? name with
  | none => { s with whole := s.whole ++ [(name, .plain (unquoted value))] }
  | some (base, number) =>
    let encoded := name.getLast? = some '*'
    { s with pieces := addPiece s.pieces base ⟨number, unquoted value, encoded⟩ }

def inOrder (ps : List Piece) : Except Fault (List Piece) :=
  match oddPiece? ps with
  | some numbered => .error (.unordered numbered)
  | none => .ok (ps.mergeSort Piece.before)

/-- A value whose charset can be looked up and is known; nothing has to be known to read no
octets. -/
def checkCharset (v : Value) : Except Fault Value :=
  match v with
  | .octets (some name) text =>
    if name.contains '\x00' then .error .zeroInCharset
    else if text.isEmpty then .ok v
    else if Text.Charset.isCharset name then
      match Text.Charset.barred? name with
      | some reason => .error (.barredCharset name reason)
      | none => .ok v
    else .error (.unknownCharset name)
  | _ => .ok v

/-- The parameters in the parts of a header. Those in pieces follow the others. -/
def ofParts (parts : List (List Char)) : Except Fault (List (List Char × Value)) := do
  let s := (parts.map ofPart).foldl Sorted.add {}
  let joined ← s.pieces.mapM fun (name, ps) => return (name, Value.ofPieces (← inOrder ps))
  let checked ← joined.mapM fun (name, v) => return (name, ← checkCharset v)
  return s.whole ++ checked

end MarkdownPreview.Web.Parameter

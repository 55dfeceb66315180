import MarkdownPreview.Text.Quoted

/-!
# Writing JSON

Answers are objects of texts and nulls, written in ASCII on one line. A character outside printed
ASCII is written by its number, in a pair of escapes if it lies beyond the first plane.

* `writeChar_plain`: printed ASCII, quotes and backslashes apart, is written as it is.
-/
namespace MarkdownPreview.Json

/-- One escape of four digits. -/
def numberEscape (n : Nat) : List Char :=
  ['\\', 'u'] ++ Text.hex 4 n

def writeChar (c : Char) : List Char :=
  let n := c.toNat
  if c = '"' ∨ c = '\\' then ['\\', c]
  else if ' ' ≤ c ∧ c ≤ '~' then [c]
  else if c = '\n' then ['\\', 'n']
  else if c = '\r' then ['\\', 'r']
  else if c = '\t' then ['\\', 't']
  else if c = '\x0c' then ['\\', 'f']
  else if c = '\x08' then ['\\', 'b']
  else if n < 0x10000 then numberEscape n
  else
    numberEscape (0xd800 + (n - 0x10000) / 0x400) ++ numberEscape (0xdc00 + (n - 0x10000) % 0x400)

def writeText (s : String) : List Char :=
  '"' :: s.toList.flatMap writeChar ++ ['"']

/-- A text, or null where there is none. -/
def writeOptional : Option String → List Char
  | some s => writeText s
  | none => "null".toList

/-- An object of texts and nulls. -/
def writeObject (fields : List (String × Option String)) : String :=
  let entry (f : String × Option String) : List Char :=
    writeText f.1 ++ [':', ' '] ++ writeOptional f.2
  String.ofList ('\x7b' :: [',', ' '].intercalate (fields.map entry) ++ ['\x7d'])

theorem writeChar_plain {c : Char} (hq : c ≠ '"') (hb : c ≠ '\\') (h : ' ' ≤ c ∧ c ≤ '~') :
    writeChar c = [c] := by
  simp [writeChar, hq, hb, h]

end MarkdownPreview.Json

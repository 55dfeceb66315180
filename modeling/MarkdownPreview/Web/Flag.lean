import MarkdownPreview.Json.Value

/-!
# Flags of requests

A request may override a feature by a flag. Null stands for no flag, a Boolean for itself. Anything
else is read as a word: the value is shown as text, trimmed and put into small letters, and has to
be one of eight words.

* `readFlag_null`, `readFlag_bool`: null and the Booleans are taken as they are.
* `readFlag_ok_iff`: anything else is accepted just if it reads as a flag word.
-/
namespace MarkdownPreview.Web

open Json (Value)
open Text (Point)

/-- A flag that cannot be read, as the text it was read as. -/
structure BadFlag where
  text : List Point
  deriving DecidableEq, Repr

def BadFlag.message (e : BadFlag) : String :=
  "Not a boolean: " ++ String.ofList (Point.quoted e.text)

def onWords : List String := ["1", "true", "yes", "on"]

def offWords : List String := ["0", "false", "no", "off"]

/-- What a word says about a feature. -/
def flagWord? (word : List Point) : Option Bool :=
  let spells (w : String) : Bool := Point.ofChars w.toList = word
  if onWords.any spells then some true
  else if offWords.any spells then some false
  else none

/-- The word that a value is read as. -/
def asWord (v : Value) : List Point :=
  Point.lowerCase (Point.trim v.display)

/-- What a word says about a feature; an error, if it is no flag word. -/
def readWord (word : List Point) : Except BadFlag (Option Bool) :=
  match flagWord? word with
  | some b => .ok (some b)
  | none => .error ⟨word⟩

/-- What a value says about a feature; nothing, if it is null. -/
def readFlag : Value → Except BadFlag (Option Bool)
  | .null => .ok none
  | .bool b => .ok (some b)
  | v => readWord (asWord v)

@[simp] theorem readFlag_null : readFlag .null = .ok none := rfl

@[simp] theorem readFlag_bool (b : Bool) : readFlag (.bool b) = .ok (some b) := rfl

theorem readFlag_of_word {v : Value} (hn : v ≠ .null) (hb : ∀ b, v ≠ .bool b) :
    readFlag v = readWord (asWord v) := by
  cases v with
  | null => exact absurd rfl hn
  | bool b => exact absurd rfl (hb b)
  | _ => rfl

theorem readWord_ok_iff (word : List Point) (o : Option Bool) :
    readWord word = .ok o ↔ ∃ b, o = some b ∧ flagWord? word = some b := by
  unfold readWord
  cases h : flagWord? word with
  | none => simp
  | some b => simp [eq_comm]

/-- A value that is neither null nor a Boolean is accepted just if it reads as a flag word. -/
theorem readFlag_ok_iff {v : Value} (hn : v ≠ .null) (hb : ∀ b, v ≠ .bool b)
    (o : Option Bool) : readFlag v = .ok o ↔ ∃ b, o = some b ∧ flagWord? (asWord v) = some b := by
  rw [readFlag_of_word hn hb, readWord_ok_iff]

end MarkdownPreview.Web

import MarkdownPreview.Text.Table.Capital
import MarkdownPreview.Text.Table.CaseIgnorable
import MarkdownPreview.Text.Table.Cased

/-!
# Small letters

`lowerCase` puts a text into small letters. Almost every capital has a small form of its own, found
in a table. Two need more: a dotted capital I becomes an i and a combining dot, and a capital sigma
at the end of a word takes its final form. A sigma ends a word if, marks and inner punctuation
passed over, a letter with case stands before it and none after it.

* `lowerCase_nil`, `lowerFrom_cons`: the text is taken character by character.
-/
namespace MarkdownPreview.Text

/-- The small form of a character that has one of its own, else the character. -/
def smallForm (c : Char) : Char :=
  let n := c.toNat
  let run := Table.capitals.find? fun (first, last, distance, _) =>
    first ≤ n && n ≤ last && (n - first) % distance = 0
  match run with
  | some (first, _, _, small) => Char.ofNat (small + (n - first))
  | none => c

/-- Whether the first character that is not passed over has a case. -/
def meetsCased (s : List Char) : Bool :=
  match s.dropWhile Table.caseIgnorable.has with
  | [] => false
  | c :: _ => Table.cased.has c

/-- The small form of a character between the text before it, last character first, and the text
after it. -/
def lowerChar (before : List Char) (c : Char) (after : List Char) : List Char :=
  if c = 'Σ' then [if meetsCased before && !meetsCased after then 'ς' else 'σ']
  else if c = 'İ' then ['i', '\u0307']
  else [smallForm c]

/-- A text in small letters, after the text `before`, which is given last character first. -/
def lowerFrom : (before : List Char) → List Char → List Char
  | _, [] => []
  | before, c :: r => lowerChar before c r ++ lowerFrom (c :: before) r

def lowerCase (s : List Char) : List Char :=
  lowerFrom [] s

@[simp] theorem lowerCase_nil : lowerCase [] = [] := rfl

theorem lowerFrom_cons (before r : List Char) (c : Char) :
    lowerFrom before (c :: r) = lowerChar before c r ++ lowerFrom (c :: before) r := rfl

end MarkdownPreview.Text

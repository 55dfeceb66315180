import MarkdownPreview.Text.Pieces
import MarkdownPreview.Text.Table.Charset

/-!
# Charsets by name

A charset is known under several names. Letters count without regard to case, and it does not matter
what stands between stretches of letters, digits and points, nor what stands around them
(`spelling`). Points may be left to a short name only.

* `isKnown_of_spelling`: names of one spelling are known together.
* `isCharset_known`: a charset is known.
-/
namespace MarkdownPreview.Text.Charset

def isNameChar (c : Char) : Bool :=
  c.isAlphanum || c = '.'

/-- A name in small letters, with one low line between its stretches. -/
def spelling (name : List Char) : List Char :=
  let marked := name.map fun c => if isNameChar c then c.toLower else '_'
  ['_'].intercalate ((pieces '_' marked).filter fun p => !p.isEmpty)

def knows (s : List Char) : Bool :=
  let name := String.ofList s
  let pointless := String.ofList (s.map fun c => if c = '.' then '_' else c)
  if s.contains '.' then
    Table.charsetAliases.contains name || Table.charsetAliases.contains pointless
  else Table.charsetAliases.contains name || Table.charsetNames.contains name

/-- Whether a charset is known under a name. -/
def isKnown (name : List Char) : Bool :=
  knows (spelling name)

/-- Whether a charset writes ASCII as something else. -/
def isWide (name : List Char) : Bool :=
  Table.wideNames.contains (String.ofList (spelling name))

/-- Why nothing can be read under a name, if that is so. -/
def barred? (name : List Char) : Option String :=
  List.lookup (String.ofList (spelling name)) Table.barredNames

/-- Whether a name stands for a charset, and not for another code. -/
def isCharset (name : List Char) : Bool :=
  isKnown name && !Table.codeNames.contains (String.ofList (spelling name))

theorem isKnown_of_spelling {a b : List Char} (h : spelling a = spelling b) :
    isKnown a = isKnown b := by
  simp [isKnown, h]

theorem isCharset_known {name : List Char} (h : isCharset name = true) : isKnown name = true :=
  (Bool.and_eq_true_iff.1 h).1

end MarkdownPreview.Text.Charset

/-!
# Switches of the command

The command knows a fixed set of switches. A switch has one or more spellings; a spelling of one
letter stands behind one dash, a longer one behind two. Some switches take a value.

* `mem_all`: the list of switches is complete.
* `ofSpelling?_of_mem`: a spelling belongs to one switch only.
-/
namespace MarkdownPreview.Command

inductive Switch where
  | help
  | version
  /-- How much is reported. -/
  | verbosity
  /-- Where the site's settings are. -/
  | siteSettings
  /-- Where the site's modules are. -/
  | searchPath
  /-- Faults are to be raised and not only reported. -/
  | traceback
  | noColor
  | forceColor
  | skipChecks
  /-- The file to write. -/
  | output
  /-- The view of the HTML text is wanted. -/
  | raw
  /-- A whole page is wanted. -/
  | document
  | taskLists
  | iconBullets
  deriving DecidableEq, Repr

namespace Switch

/-- Every switch, in the order in which messages name them. -/
def all : List Switch :=
  [help, version, verbosity, siteSettings, searchPath, traceback, noColor, forceColor, skipChecks,
    output, raw, document, taskLists, iconBullets]

def spellings : Switch → List String
  | help => ["-h", "--help"]
  | version => ["--version"]
  | verbosity => ["-v", "--verbosity"]
  | siteSettings => ["--settings"]
  | searchPath => ["--pythonpath"]
  | traceback => ["--traceback"]
  | noColor => ["--no-color"]
  | forceColor => ["--force-color"]
  | skipChecks => ["--skip-checks"]
  | output => ["--output"]
  | raw => ["--raw"]
  | document => ["--document"]
  | taskLists => ["--task-lists", "--no-task-lists"]
  | iconBullets => ["--icon-bullets", "--no-icon-bullets"]

def takesValue : Switch → Bool
  | verbosity | siteSettings | searchPath | output => true
  | _ => false

/-- A switch as messages name it. -/
def label (s : Switch) : String :=
  "/".intercalate s.spellings

def table : List (String × Switch) :=
  all.flatMap fun s => s.spellings.map fun spelling => (spelling, s)

/-- The switch that a text spells in full. -/
def ofSpelling? (text : String) : Option Switch :=
  List.lookup text table

theorem mem_all (s : Switch) : s ∈ all := by
  cases s <;> simp [all]

theorem ofSpelling?_of_mem {s : Switch} {spelling : String} (h : spelling ∈ s.spellings) :
    ofSpelling? spelling = some s := by
  have key : ∀ s ∈ all, ∀ spelling ∈ s.spellings, ofSpelling? spelling = some s := by
    decide +kernel
  exact key s (mem_all s) spelling h

/-- Whether a spelling is one letter behind one dash. -/
def isLetter (spelling : String) : Bool :=
  spelling.length = 2

def turnsOn (spelling : String) : Bool :=
  !"--no-".toList.isPrefixOf spelling.toList

end Switch

end MarkdownPreview.Command

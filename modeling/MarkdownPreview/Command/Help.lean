import MarkdownPreview.Command.Arguments

/-!
# Help

The help of the command names its arguments twice: in short at the top, and each with a text below.
Lines are filled word by word up to a width; headings stand on the left, texts in a column on the
right, and a heading that is too wide has a line of its own.

* `fill_words`: filling keeps the words and their order.
-/
namespace MarkdownPreview.Command

/-! ## Layout -/

/-- Words in lines of at most `width` characters, behind the words of a line begun before them. A
word that is wider has a line of its own. -/
def fill (width : Nat) : (line : List String) → List String → List (List String)
  | line, [] => [line]
  | line, w :: r =>
    if !line.isEmpty && width < (" ".intercalate (line ++ [w])).length then line :: fill width [w] r
    else fill width (line ++ [w]) r

theorem fill_words (width : Nat) (line words : List String) :
    (fill width line words).flatten = line ++ words := by
  induction words generalizing line with
  | nil => simp [fill]
  | cons w r ih =>
    unfold fill
    split <;> simp [ih]

/-- Words in lines. -/
def filled (width : Nat) (words : List String) : List String :=
  (fill width [] words).map (" ".intercalate ·)

def blanks (n : Nat) : String :=
  String.ofList (List.replicate n ' ')

/-- A text, with blanks behind it up to a column. -/
def padded (column : Nat) (s : String) : String :=
  s ++ blanks (column - s.length)

def helpWidth : Nat := 78

def textColumn : Nat := 24

/-- A heading with its text. -/
def helpEntry (heading text : String) : List String :=
  let lines := filled (helpWidth - textColumn) (text.splitOn " ")
  let heading := "  " ++ heading
  match lines with
  | first :: rest =>
    let rest := rest.map (blanks textColumn ++ ·)
    if heading.length + 2 ≤ textColumn then (padded textColumn heading ++ first) :: rest
    else heading :: (blanks textColumn ++ first) :: rest
  | [] => [heading]

/-! ## Texts -/

namespace Switch

/-- What stands for the value of a switch. -/
def valueName? : Switch → Option String
  | verbosity => some ("\x7b" ++ ",".intercalate (verbosities.map toString) ++ "\x7d")
  | siteSettings => some "SETTINGS"
  | searchPath => some "PYTHONPATH"
  | output => some "OUTPUT"
  | _ => none

/-- A spelling with what stands for the value. -/
def withValue (s : Switch) (spelling : String) : String :=
  match s.valueName? with
  | some v => spelling ++ " " ++ v
  | none => spelling

/-- A switch as the help heads it. -/
def heading (s : Switch) : String :=
  ", ".intercalate (s.spellings.map s.withValue)

/-- A switch in short. One that can be turned off is shown with both spellings, any other one with
the first. -/
def brief (s : Switch) : String :=
  let shown := match s with
    | taskLists | iconBullets => s.spellings
    | _ => s.spellings.take 1
  "[" ++ " | ".intercalate (shown.map s.withValue) ++ "]"

def purpose : Switch → String
  | help => "show this help message and exit"
  | output => "Write the HTML to this file instead of stdout"
  | raw => "Output the HTML-text view instead of the preview body"
  | document => "Wrap the preview in a standalone page with the preview stylesheet"
  | taskLists => "Override the " ++ Feature.taskLists.name ++ " setting"
  | iconBullets => "Override the " ++ Feature.iconBullets.name ++ " setting"
  | version => "Show program's version number and exit."
  | verbosity =>
    "Verbosity level; 0=minimal output, 1=normal output, 2=verbose output, 3=very verbose output"
  | siteSettings =>
    "The Python path to a settings module, e.g. \"myproject.settings.main\". If this isn't " ++
      "provided, the DJANGO_SETTINGS_MODULE environment variable will be used."
  | searchPath =>
    "A directory to add to the Python path, e.g. \"/home/djangoprojects/myproject\"."
  | traceback => "Display a full stack trace on CommandError exceptions."
  | noColor => "Don't colorize the command output."
  | forceColor => "Force colorization of the command output."
  | skipChecks => "Skip system checks."

/-- Every switch, in the order of the help: the command's own ones come first. -/
def inHelp : List Switch :=
  let own := [help, output, raw, document, taskLists, iconBullets]
  own ++ all.filter fun s => !own.contains s

end Switch

def callText : String := "usage: manage.py render_preview "

/-- The arguments in short. -/
def usageLines : List String :=
  let indent := blanks callText.length
  let lines := filled (helpWidth - callText.length) (Switch.inHelp.map Switch.brief) ++ ["path"]
  match lines with
  | first :: rest => (callText ++ first) :: rest.map (indent ++ ·)
  | [] => [callText]

def helpText : String :=
  let lines := usageLines ++ ["", "Render a markdown file to preview HTML", "",
    "positional arguments:"] ++ helpEntry "path" "Markdown file to render" ++ ["", "options:"] ++
      Switch.inHelp.flatMap fun s => helpEntry s.heading s.purpose
  String.join (lines.map (· ++ "\n"))

/-- What is shown instead of rendering. -/
def Notice.text : Notice → String
  | help => helpText
  | version => ""

end MarkdownPreview.Command

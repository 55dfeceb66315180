import MarkdownPreview.Command.Failure
import MarkdownPreview.Command.Help
import MarkdownPreview.Command.Site
import MarkdownPreview.Page.Document
import MarkdownPreview.Text.LineEnd
import MarkdownPreview.Text.Utf8

/-!
# Running the command

The command renders one file. It checks what was chosen, reads the file, renders its text, selects a
part of the preview, and then prints it or writes it to a file. Each of these is a step in a `World`
of files, printed text and runs of the converter. A step may fail, and what was done before it stays
done: the output file is opened, which empties it, before the HTML is encoded, and filled after that.

Where printed text goes is a parameter (`Outlet`): a text in memory takes any phrase, a stream has to
encode it.

The command can be called, or started as a program. A program also hands on where the site's
settings are, and it prints the help when that is asked for.
-/
namespace MarkdownPreview.Command

open Files (Path Place FileError Tree Content)
open Json (Value)
open Text (Phrase EncodeFault)

/-! ## What is wanted -/

inductive Part where
  | body
  | htmlText
  | page
  deriving DecidableEq, Repr

/-- The text of a part, if there is a stylesheet for it. -/
def Part.text (part : Part) (s : Settings) (title : Phrase) (p : Preview) :
    Except Page.StyleFault Phrase :=
  match part with
  | body => .ok p.html
  | htmlText => .ok p.rawHtml
  | page => Page.document p s title

/-- The part that is wanted, unless two are. -/
def Choices.part? (c : Choices) : Option Part :=
  match c.raw, c.document with
  | true, true => none
  | true, false => some .htmlText
  | false, true => some .page
  | false, false => some .body

/-- The file that is to be written; an empty name is none. -/
def Choices.target? (c : Choices) : Option Phrase :=
  c.output.filter fun name => name ≠ .plain ""

/-- The part that is wanted, if the choices go together. -/
def Choices.check (c : Choices) : Except Failure Part :=
  if c.noColor && c.forceColor then .error .colorClash
  else
    match c.part? with
    | none => .error .partClash
    | some part => .ok part

/-! ## Steps -/

/-- Where printed text goes. -/
inductive Outlet where
  /-- It is kept as it is. -/
  | memory
  /-- It is encoded. -/
  | stream
  /-- It is encoded, and surrogates that stand for octets of names are written as these. -/
  | escapingStream
  deriving DecidableEq, Repr

/-- What keeps a text from being printed. -/
def Outlet.fault? (o : Outlet) (p : Phrase) : Option EncodeFault :=
  match o with
  | memory => none
  | stream => p.fault? fun _ => false
  | escapingStream => p.fault? Files.isNameOctet

/-- What a run of the command works on. -/
structure World where
  files : Tree
  outlet : Outlet := .memory
  /-- What has been printed. -/
  output : Phrase := ""
  /-- The runs of the converter. -/
  runs : List Invocation := []
  deriving DecidableEq, Repr

/-- A step of the command. If it fails, the world is left as it is at that moment. -/
abbrev Step := ExceptT Failure (StateM World)

/-- A path that may be the path of a file. -/
def usablePath (name : Phrase) : Except Failure Path :=
  let path := Path.ofPhrase name
  match path.fault? with
  | some e => .error (.unnamed e)
  | none => if path.text.points.contains (.char '\x00') then .error .unusableName else .ok path

def decodeSource (path : Path) (content : Content) : Except Failure String :=
  match Text.Utf8.decode? content with
  | none => .error (.undecoded path)
  | some s => .ok (String.ofList (Text.withLineFeeds s))

def sourceIn (t : Tree) (name : Phrase) : Except Failure String :=
  match usablePath name with
  | .error f => .error f
  | .ok path =>
    match t.read path with
    | .error e => .error (.unread path e)
    | .ok content => decodeSource path content

def readSource (name : Phrase) : Step String := do
  let w ← get
  ofExcept (sourceIn w.files name)

/-- The place of the file of some name, if that can be opened. -/
def targetIn (t : Tree) (name : Phrase) : Except Failure Place :=
  match usablePath name with
  | .error f => .error f
  | .ok path => (t.target path).mapError (.unwritten path)

/-- Opens the file of some name: it is there then, and empty. -/
def openTarget (name : Phrase) : Step Place := do
  let w ← get
  let place ← ofExcept (targetIn w.files name)
  set { w with files := w.files.put place [] }
  pure place

/-- Writes a text to a file that is open and empty. -/
def fillTarget (place : Place) (html : Phrase) : Step Unit := do
  let s ← ofExcept (html.asString.mapError .unencoded)
  let w ← get
  let content := s.toUTF8.toList
  set { w with files := w.files.put place (w.files.fitting content) }
  if w.files.fits content then pure () else throw .noRoom

def print (p : Phrase) : Step Unit := do
  let w ← get
  match w.outlet.fault? p with
  | some e => throw (.unprinted e)
  | none => set { w with output := w.output ++ p }

def renderText (s : Settings) (c : Converter) (text : String) : Step Preview := do
  let result := render s c text
  modify fun w => { w with runs := w.runs ++ runsMade result }
  let r ← ofExcept (result.mapError .fault)
  pure r.preview

def siteSettings (options : Option Value) : Except Failure Settings :=
  (Settings.ofOptions options).mapError fun e => .fault (.options e)

/-- Selects a part of a preview, which has to be good. -/
def select (part : Part) (s : Settings) (path : Path) (p : Preview) : Except Failure Phrase :=
  match p.error with
  | some reason => .error (.unrendered path reason)
  | none => (part.text s path.name p).mapError .unstyled

/-- Renders a text and selects the wanted part of the preview. -/
def produce (options : Option Value) (c : Converter) (choices : Choices) (part : Part)
    (path : Path) (text : String) : Step Phrase := do
  let base ← ofExcept (siteSettings options)
  let s := base.withFeatures choices.features
  let p ← renderText s c text
  ofExcept (select part s path p)

def inSuccessColor (p : Phrase) : Phrase :=
  .plain "\x1b[32;1m" ++ p ++ .plain "\x1b[0m"

/-- The line that tells of a written file. -/
def writtenLine (choices : Choices) (target html : Phrase) : Phrase :=
  let line := .plain ("Wrote " ++ toString html.length ++ " characters to ") ++ target
  Text.endingLine (if choices.forceColor then inSuccessColor line else line)

/-- Writes or prints the HTML. -/
def deliver (choices : Choices) (html : Phrase) : Step Unit :=
  match choices.target? with
  | none => print html
  | some target => do
    let place ← openTarget target
    fillTarget place html
    print (writtenLine choices target html)

/-- Does what the arguments say. -/
def handle (options : Option Value) (c : Converter) (a : Arguments) : Step Unit := do
  let part ← ofExcept a.choices.check
  let text ← readSource a.path
  let html ← produce options c a.choices part (Path.ofPhrase a.path) text
  deliver a.choices html

/-- The places that the command looks at for some arguments. -/
def placesOf (args : List String) : List Place :=
  match readArguments args with
  | .error _ => []
  | .ok a =>
    let target := (a.choices.target?.map fun name => (Path.ofPhrase name).places).getD []
    (Path.ofPhrase a.path).places ++ target

/-! ## Runs of the command -/

/-- A run of the command: the world after it, and how it ended. -/
structure Run extends World where
  failure : Option Failure := none
  /-- Whether every failure is to be raised. -/
  traceback : Bool := false
  deriving DecidableEq, Repr

def failureOf : Except Failure Unit → Option Failure
  | .error f => some f
  | .ok _ => none

/-- Runs the command with arguments that have been read. -/
def execute (options : Option Value) (c : Converter) (outlet : Outlet) (t : Tree)
    (a : Arguments) : Run :=
  let (result, w) := (handle options c a).run { files := t, outlet }
  { toWorld := w, failure := failureOf result, traceback := a.choices.traceback }

def run (options : Option Value) (c : Converter) (outlet : Outlet) (t : Tree)
    (args : List String) : Run :=
  match readArguments args with
  | .error (.notice _) => { files := t, outlet }
  | .error (.fault e) => { files := t, outlet, failure := some (.usage e) }
  | .ok a => execute options c outlet t a

def runProgram (options : Option Value) (c : Converter) (outlet : Outlet) (t : Tree)
    (args : List String) : Run :=
  if (soughtSettings? none args).any isUnusable then
    { files := t, outlet, failure := some .unusableName }
  else
    match readArguments args with
    | .error (.notice n) => { files := t, outlet, output := n.text }
    | .error (.fault e) => { files := t, outlet, failure := some (.usage e) }
    | .ok a =>
      if isUnusable a.choices.siteSettings then
        { files := t, outlet, failure := some .unusableName }
      else run options c outlet t args

/-- How a run ends for whoever started it. -/
inductive Ending where
  /-- It ends with a status, and has reported something on the error stream. -/
  | exit (status : Nat) (report : Phrase)
  | raised (f : Failure)
  deriving DecidableEq, Repr

/-- How a run ends: arguments that are refused end it before anything else is known. -/
def Run.ending (r : Run) : Ending :=
  match r.failure with
  | none => .exit 0 ""
  | some (.usage _) => .exit 2 ""
  | some f =>
    if f.isReported && !r.traceback then
      .exit 1 (Text.endingLine (.plain "CommandError: " ++ f.message))
    else .raised f

end MarkdownPreview.Command

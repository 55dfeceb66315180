import MarkdownPreview.Command.Switch
import MarkdownPreview.Number.Whole
import MarkdownPreview.Settings.Basic
import MarkdownPreview.Text.Quoted

/-!
# Arguments of the command

The command takes one path and any switches, in any order. Before anything is used, each argument is
classed by itself (`Role`): a switch may be cut short as long as only one spelling starts that way,
its value may follow an equals sign, and what looks like a negative number or holds a space is no
switch. After `--` nothing is a switch. Then the arguments are used from left to right. What is
attached to a switch of one letter that takes no value is a group of further letters. What is read is
strings; a caller who hands over the path and the choices may name files by phrases.

* `classify_spelling`: a spelling in full is its switch.
* `classify_plain`: what does not start with a dash is no switch.
* `useAttached_of_takesValue`: what is attached to a switch that takes a value is its value.
* `readArguments_single`: one plain argument is the path, with nothing chosen.
-/
namespace MarkdownPreview.Command

open Text (Phrase)

/-! ## Faults -/

inductive UsageError where
  /-- Several spellings start like the argument. -/
  | ambiguous (argument : String) (spellings : List String)
  /-- The value of a switch is missing. -/
  | noValue (s : Switch)
  /-- A switch that takes no value has one. -/
  | strayValue (s : Switch) (value : String)
  /-- A value should be a whole number. -/
  | notWhole (s : Switch) (value : String)
  /-- A number is not among the choices. -/
  | notChoice (s : Switch) (value : Int) (choices : List Int)
  /-- There is no path. -/
  | noPath
  /-- Some arguments belong to nothing. -/
  | unrecognized (arguments : List String)
  deriving DecidableEq, Repr

/-- A fault of one switch. -/
def aboutSwitch (s : Switch) (text : String) : String :=
  "argument " ++ s.label ++ ": " ++ text

def inQuotes (s : String) : String :=
  String.ofList (Text.quoted s.toList)

def UsageError.message : UsageError → String
  | ambiguous argument spellings =>
    "ambiguous option: " ++ argument ++ " could match " ++ ", ".intercalate spellings
  | noValue s => aboutSwitch s "expected one argument"
  | strayValue s value => aboutSwitch s ("ignored explicit argument " ++ inQuotes value)
  | notWhole s value => aboutSwitch s ("invalid int value: " ++ inQuotes value)
  | notChoice s value choices =>
    aboutSwitch s ("invalid choice: " ++ toString value ++ " (choose from " ++
      ", ".intercalate (choices.map toString) ++ ")")
  | noPath => "the following arguments are required: path"
  | unrecognized arguments => "unrecognized arguments: " ++ " ".intercalate arguments

/-! ## Classes of arguments -/

/-- What stands behind a switch in the same argument. -/
inductive Attached where
  | nothing
  /-- What follows an equals sign, or the letter of the switch. -/
  | text (cs : List Char)
  deriving DecidableEq, Repr

/-- What an argument is by itself. -/
inductive Role where
  | plain
  /-- The argument after which nothing is a switch. -/
  | separator
  | switch (s : Switch) (spelling : String) (attached : Attached)
  /-- It looks like a switch and is none. -/
  | unknown
  deriving DecidableEq, Repr

/-- A number after the dash: digits, or a point with digits behind it. -/
def isAmount (s : List Char) : Bool :=
  let rest := s.dropWhile Text.isDigit
  (rest.isEmpty && !s.isEmpty) ||
    match rest with
    | '.' :: fraction => !fraction.isEmpty && fraction.all Text.isDigit
    | _ => false

/-- Whether an argument looks like a negative number; a line feed may follow. -/
def isNegativeNumber : List Char → Bool
  | '-' :: r => isAmount r || (r.getLast? = some '\n' && isAmount r.dropLast)
  | _ => false

def stem (arg : List Char) : List Char :=
  arg.takeWhile (· ≠ '=')

def attachedTo (arg : List Char) : Attached :=
  match arg.dropWhile (· ≠ '=') with
  | [] => .nothing
  | _ :: value => .text value

/-- The switches that an argument may mean without spelling one in full. -/
def candidates (arg : List Char) : List (Switch × String × Attached) :=
  match arg with
  | '-' :: '-' :: _ =>
    (Switch.table.filter fun e => (stem arg).isPrefixOf e.1.toList).map fun (spelling, s) =>
      (s, spelling, attachedTo arg)
  | '-' :: letter :: rest =>
    match Switch.ofSpelling? (String.ofList ['-', letter]) with
    | some s => [(s, String.ofList ['-', letter], .text rest)]
    | none => []
  | _ => []

/-- What an argument is if it means none of the switches. -/
def roleOfOther (arg : List Char) : Role :=
  if isNegativeNumber arg || arg.contains ' ' then .plain else .unknown

/-- What an argument that starts with a dash and something behind it is, if it spells no switch. -/
def classifyDashed (arg : String) : Except UsageError Role :=
  let cs := arg.toList
  match Switch.ofSpelling? (String.ofList (stem cs)) with
  | some s => .ok (.switch s (String.ofList (stem cs)) (attachedTo cs))
  | none =>
    match candidates cs with
    | [] => .ok (roleOfOther cs)
    | [(s, spelling, attached)] => .ok (.switch s spelling attached)
    | several => .error (.ambiguous arg (several.map fun c => c.2.1))

/-- What an argument is by itself. -/
def classify (arg : String) : Except UsageError Role :=
  match arg.toList with
  | '-' :: _ :: _ => classifyDashed arg
  | _ => .ok .plain

structure Item where
  text : String
  role : Role
  deriving DecidableEq, Repr

def itemsOf : List String → Except UsageError (List Item)
  | [] => .ok []
  | arg :: r =>
    if arg = "--" then .ok (⟨arg, .separator⟩ :: r.map fun a => ⟨a, .plain⟩)
    else
      match classify arg with
      | .error e => .error e
      | .ok role =>
        match itemsOf r with
        | .error e => .error e
        | .ok items => .ok (⟨arg, role⟩ :: items)

theorem classify_plain {arg : String} (h : ∀ r, arg.toList ≠ '-' :: r) :
    classify arg = .ok .plain := by
  unfold classify
  split
  · rename_i c r hc
    exact absurd hc (h (c :: r))
  · rfl

theorem classify_spelling {s : Switch} {spelling : String} (h : spelling ∈ s.spellings) :
    classify spelling = .ok (.switch s spelling .nothing) := by
  have key : ∀ s ∈ Switch.all, ∀ spelling ∈ s.spellings,
      (classify spelling).toOption = some (.switch s spelling .nothing) := by
    decide +kernel
  have hs := key s (Switch.mem_all s) spelling h
  cases hc : classify spelling with
  | error e => simp [hc, Except.toOption] at hs
  | ok role => simpa [hc, Except.toOption] using hs

/-! ## Uses of switches -/

structure Use where
  switch : Switch
  spelling : String
  value : Option String
  deriving DecidableEq, Repr

/-- The value that an attached text gives: `--` stands for none. -/
def attachedValue? (cs : List Char) : Option String :=
  if cs = ['-', '-'] then none else some (String.ofList cs)

/-- A switch without anything attached, before the plain argument `next`, and whether that argument
is used. -/
def useAlone (s : Switch) (spelling : String) (next : Option String) :
    Except UsageError (List Use × Bool) :=
  if s.takesValue then
    match next with
    | some value => .ok ([⟨s, spelling, some value⟩], true)
    | none => .error (.noValue s)
  else .ok ([⟨s, spelling, none⟩], false)

/-- The switch that a letter behind a spelling means, if that is one letter itself. -/
def groupedSwitch? (spelling : String) (letter : Char) : Option Switch :=
  if Switch.isLetter spelling then Switch.ofSpelling? (String.ofList ['-', letter]) else none

/-- A switch with a text attached. The text is the value of a switch that takes one. Behind a switch
of one letter it is a group of switches of one letter, the last of which may have its value in the
group or behind it. Anything else is refused. -/
def useAttached (next : Option String) : Switch → String → List Char →
    Except UsageError (List Use × Bool)
  | s, spelling, [] =>
    if s.takesValue then .ok ([⟨s, spelling, attachedValue? []⟩], false)
    else .error (.strayValue s "")
  | s, spelling, c :: r =>
    if s.takesValue then .ok ([⟨s, spelling, attachedValue? (c :: r)⟩], false)
    else
      match groupedSwitch? spelling c with
      | none => .error (.strayValue s (String.ofList (c :: r)))
      | some t =>
        let letter := String.ofList ['-', c]
        let rest := if r.isEmpty then useAlone t letter next else useAttached next t letter r
        match rest with
        | .error e => .error e
        | .ok (uses, used) => .ok (⟨s, spelling, none⟩ :: uses, used)

theorem useAttached_of_takesValue {s : Switch} (h : s.takesValue = true) (next : Option String)
    (spelling : String) (cs : List Char) :
    useAttached next s spelling cs = .ok ([⟨s, spelling, attachedValue? cs⟩], false) := by
  cases cs <;> simp [useAttached, h]

/-- The uses that a switch and what is attached to it stand for. -/
def usesOf (s : Switch) (spelling : String) (attached : Attached) (next : Option String) :
    Except UsageError (List Use × Bool) :=
  match attached with
  | .nothing => useAlone s spelling next
  | .text cs => useAttached next s spelling cs

/-! ## What the arguments say -/

structure Choices where
  /-- The file to write. -/
  output : Option Phrase := none
  raw : Bool := false
  document : Bool := false
  features : FeatureOverrides := {}
  traceback : Bool := false
  noColor : Bool := false
  forceColor : Bool := false
  /-- Where the site's settings are. -/
  siteSettings : Option String := none
  deriving DecidableEq, Repr

structure Arguments where
  path : Phrase
  choices : Choices := {}
  deriving DecidableEq, Repr

/-- Something that is shown instead of rendering. -/
inductive Notice where
  | help
  | version
  deriving DecidableEq, Repr

/-- Why reading the arguments ends early. -/
inductive Stop where
  | notice (n : Notice)
  | fault (e : UsageError)
  deriving DecidableEq, Repr

def verbosities : List Int := [0, 1, 2, 3]

/-- The fault of a verbosity, if it has one. -/
def verbosityFault? (value : String) : Option UsageError :=
  match Number.readWhole? value.toList with
  | none => some (.notWhole .verbosity value)
  | some n => if n ∈ verbosities then none else some (.notChoice .verbosity n verbosities)

/-- What is chosen after one more use of a switch. -/
def Choices.apply (c : Choices) (u : Use) : Except Stop Choices :=
  match u.switch with
  | .help => .error (.notice .help)
  | .version => .error (.notice .version)
  | .verbosity =>
    match u.value.bind verbosityFault? with
    | some e => .error (.fault e)
    | none => .ok c
  | .siteSettings => .ok { c with siteSettings := u.value }
  | .searchPath | .skipChecks => .ok c
  | .traceback => .ok { c with traceback := true }
  | .noColor => .ok { c with noColor := true }
  | .forceColor => .ok { c with forceColor := true }
  | .output => .ok { c with output := u.value.map Phrase.plain }
  | .raw => .ok { c with raw := true }
  | .document => .ok { c with document := true }
  | .taskLists =>
    .ok { c with features := { c.features with taskLists := some (Switch.turnsOn u.spelling) } }
  | .iconBullets =>
    .ok { c with features := { c.features with iconBullets := some (Switch.turnsOn u.spelling) } }

def Choices.applyAll : Choices → List Use → Except Stop Choices
  | c, [] => .ok c
  | c, u :: r =>
    match c.apply u with
    | .error e => .error e
    | .ok c => c.applyAll r

structure Draft where
  path : Option String := none
  choices : Choices := {}
  /-- The arguments that belong to nothing. -/
  extra : List String := []
  deriving DecidableEq, Repr

def Draft.addExtra (d : Draft) (text : String) : Draft :=
  { d with extra := d.extra ++ [text] }

/-- The items behind a path: a separator right behind it is part of it. -/
def afterPath : List Item → List Item
  | ⟨_, .separator⟩ :: r => r
  | items => items

/-- The text of the next item, if it is plain. -/
def nextPlain? : List Item → Option String
  | ⟨text, .plain⟩ :: _ => some text
  | _ => none

theorem afterPath_length (items : List Item) : (afterPath items).length ≤ items.length := by
  unfold afterPath
  split <;> simp

/-- Reads the items from left to right. -/
def readItems : Draft → List Item → Except Stop Draft
  | d, [] => .ok d
  | d, item :: rest =>
    match item.role with
    | .plain =>
      match d.path with
      | none => readItems { d with path := some item.text } (afterPath rest)
      | some _ => readItems (d.addExtra item.text) rest
    | .separator =>
      match d.path with
      | none =>
        match rest with
        | [] => .ok (d.addExtra item.text)
        | next :: rest => readItems { d with path := some next.text } rest
      | some _ => readItems (d.addExtra item.text) rest
    | .unknown => readItems (d.addExtra item.text) rest
    | .switch s spelling attached =>
      match usesOf s spelling attached (nextPlain? rest) with
      | .error e => .error (.fault e)
      | .ok (uses, used) =>
        match d.choices.applyAll uses with
        | .error e => .error e
        | .ok choices => readItems { d with choices } (rest.drop (if used then 1 else 0))
termination_by _ items => items.length
decreasing_by
  · exact Nat.lt_succ_of_le (afterPath_length rest)
  all_goals simp only [List.length_drop, List.length_cons]; omega

def Draft.finish (d : Draft) : Except Stop Arguments :=
  match d.path with
  | none => .error (.fault .noPath)
  | some path =>
    if d.extra.isEmpty then .ok { path := .plain path, choices := d.choices }
    else .error (.fault (.unrecognized d.extra))

def readArguments (args : List String) : Except Stop Arguments :=
  match itemsOf args with
  | .error e => .error (.fault e)
  | .ok items =>
    match readItems {} items with
    | .error e => .error e
    | .ok d => d.finish

theorem readArguments_single {path : String} (h : ∀ r, path.toList ≠ '-' :: r) :
    readArguments [path] = .ok { path := .plain path } := by
  have hs : path ≠ "--" := by
    rintro rfl
    exact h ['-'] rfl
  simp [readArguments, itemsOf, hs, classify_plain h, readItems, afterPath, Draft.finish]

end MarkdownPreview.Command

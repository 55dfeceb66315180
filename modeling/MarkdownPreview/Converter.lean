import MarkdownPreview.Number.Layout
import MarkdownPreview.Settings.Basic
import MarkdownPreview.Text.Blank

/-!
# The converter

Documents are turned into HTML by an external program. A `Plan` says how it is started under given
settings: which dialect it reads, what it writes, and how long it may take. A `Converter` says how a
start would end, and `convert` is the start: which runs it makes and what comes of it.

Most ways to end give an answer, be it an output or a message. A run is given up without one if the
text or the output cannot be passed on as UTF-8, or if the system does not wait as long as the time
limit (`Converter.Answers`).

* `plan_isSome_iff`: there is a plan unless the time limit is too large for a number of the format.
* `convert_runs_le_one`: a conversion makes one run at most.
* `convert_converted_iff`: when there is an output.
* `convert_aborted`: what becomes of a run without an answer.
-/
namespace MarkdownPreview

open Number (Binary64)
open Text (Phrase)

/-! ## Plan -/

/-- The extensions of the dialect that a setting turns on or off. -/
def dialectSwitches : List ((Settings → Bool) × List String) :=
  [(Settings.abbreviations, ["abbreviations"]),
    (Settings.hardWraps, ["hard_line_breaks"]),
    (Settings.autolinks, ["autolink_bare_uris"]),
    (Settings.wikiLinks, ["wikilinks_title_after_pipe"]),
    (Settings.tables, ["pipe_tables"]),
    (Settings.definitions, ["definition_lists"]),
    (Settings.fencedCodeBlocks, ["fenced_code_blocks", "backtick_code_blocks"]),
    (Settings.strikethrough, ["strikeout"]),
    (Settings.headerSpace, ["space_in_atx_header"]),
    (Settings.anchorLinks, ["auto_identifiers"]),
    -- quotes and other punctuation are one extension
    (fun s => s.smarts || s.quotes, ["smart"]),
    -- blocks and inline parts of HTML cannot be held back separately
    (fun s => !(s.suppressHtmlBlocks || s.suppressInlineHtml), ["raw_html"]),
    -- the preview makes the check boxes itself and needs the markers as they are
    (fun _ => false, ["task_lists"])]

def toggle (on : Bool) (extension : String) : String :=
  (if on then "+" else "-") ++ extension

def dialect (s : Settings) : String :=
  let toggles := dialectSwitches.flatMap fun (on, names) => names.map (toggle (on s))
  "markdown" ++ String.join toggles

/-- How the converter is started. -/
structure Plan where
  source : String
  target : String
  extra : List String
  /-- Seconds that a conversion may take. -/
  timeout : Binary64
  deriving DecidableEq, Repr

/-- The time limit in seconds, unless the milliseconds are too many for a number of the format. -/
def timeout? (s : Settings) : Option Binary64 :=
  s.parsingTimeout.toBinary64?.map fun ms => ms.divNat 1000

/-- The plan that the settings ask for, unless their time limit is too large. -/
def Plan.of? (s : Settings) : Option Plan :=
  (timeout? s).map fun t =>
    -- the output stays on predictable lines
    { source := dialect s, target := "html", extra := ["--wrap=none"], timeout := t }

theorem plan_isSome_iff (s : Settings) :
    (Plan.of? s).isSome = true ↔
      ∀ i, s.parsingTimeout = .whole i → i.natAbs < Binary64.tooLarge := by
  rw [← Quantity.toBinary64?_isSome_iff]
  simp [Plan.of?, timeout?]

/-! ## Runs -/

/-- One run of the converter. -/
structure Invocation where
  program : String
  arguments : List String
  input : Phrase
  timeout : Binary64
  deriving DecidableEq, Repr

/-- How starting the converter would end. -/
inductive Converter where
  /-- It is not installed. -/
  | missing (reason : String)
  /-- It cannot be started. -/
  | notStarted (reason : String)
  /-- It does not end in time. -/
  | tooSlow
  /-- It ends. -/
  | finished (output : String) (report : Option String) (status : Int)
  /-- The system has no timer for the time limit. Timers of 2147483647 milliseconds are common. -/
  | unwaitable
  /-- What it writes is not UTF-8. -/
  | garbled
  deriving DecidableEq, Repr

inductive ConversionError where
  | missing (reason : String)
  | notStarted (reason : String)
  | timedOut (limit : Binary64)
  /-- The converter ended with a fault; it may have said something about it. -/
  | failed (report : Option String) (status : Int)
  deriving DecidableEq, Repr

/-- What a converter said about its fault, or else its status. -/
def faultText (report : Option String) (status : Int) : String :=
  let said := Text.trimmed (report.getD "")
  if said = "" then "exit status " ++ toString status else said

def ConversionError.message : ConversionError → String
  | missing reason => "pandoc is not available: " ++ reason
  | notStarted reason => "Could not run pandoc: " ++ reason
  | timedOut limit => "Markdown conversion timed out after " ++ limit.briefText ++ "s"
  | failed report status => "pandoc failed: " ++ faultText report status

inductive RunFault where
  | unencodable (e : Text.EncodeFault)
  | unwaitable
  | undecodable
  deriving DecidableEq, Repr

def RunFault.message : RunFault → String
  | unencodable e => e.message
  | unwaitable => "timeout is too large"
  | undecodable => "The output is not UTF-8"

inductive Conversion where
  | converted (html : String)
  | failed (e : ConversionError)
  /-- Nothing can be said of the run. -/
  | aborted (why : RunFault)
  deriving DecidableEq, Repr

def converterProgram : String := "/usr/bin/pandoc"

def Plan.invocation (p : Plan) (text : Phrase) : Invocation where
  program := converterProgram
  arguments := ["--from=" ++ p.source, "--to=" ++ p.target] ++ p.extra
  input := text
  timeout := p.timeout

/-- A conversion: the runs it makes, and what comes of them. -/
def convert (p : Plan) (c : Converter) (text : Phrase) : List Invocation × Conversion :=
  match c, text.asString with
  | .missing reason, _ => ([], .failed (.missing reason))
  | .notStarted reason, _ => ([p.invocation text], .failed (.notStarted reason))
  -- the text is encoded only when the converter waits for it
  | _, .error e => ([p.invocation text], .aborted (.unencodable e))
  | .tooSlow, .ok _ => ([p.invocation text], .failed (.timedOut p.timeout))
  | .finished output report status, .ok _ =>
    ([p.invocation text],
      if status = 0 then .converted output else .failed (.failed report status))
  | .unwaitable, .ok _ => ([p.invocation text], .aborted .unwaitable)
  | .garbled, .ok _ => ([p.invocation text], .aborted .undecodable)

theorem convert_runs_le_one (p : Plan) (c : Converter) (text : Phrase) :
    (convert p c text).1.length ≤ 1 := by
  unfold convert
  split <;> simp

/-- A run that is given up has been made. -/
theorem runs_of_aborted {p : Plan} {c : Converter} {text : Phrase} {why : RunFault}
    (h : (convert p c text).2 = .aborted why) : (convert p c text).1 = [p.invocation text] := by
  unfold convert at h ⊢
  split <;> simp_all

theorem convert_converted_iff (p : Plan) (c : Converter) (text : Phrase) (html : String) :
    (convert p c text).2 = .converted html ↔
      text.IsPlain ∧ ∃ report, c = .finished html report 0 := by
  simp only [Phrase.IsPlain, ← Phrase.asString_ok_iff]
  unfold convert
  cases c with
  | finished output report status =>
    by_cases h : status = 0 <;> cases text.asString <;> simp [h]
  | _ => cases text.asString <;> simp

/-! ## Answers -/

/-- Whether a start gives an answer for a text: an output, or a message why there is none. -/
def Converter.Answers : Converter → Phrase → Prop
  | missing _, _ | notStarted _, _ => True
  | tooSlow, text | finished .., text => text.IsPlain
  | unwaitable, _ | garbled, _ => False

theorem answers_of_finished {output : String} {report : Option String} {status : Int}
    (t : String) : (Converter.finished output report status).Answers (.plain t) :=
  Phrase.isPlain_plain t

/-- A run without an answer is made, and given up. -/
theorem convert_aborted {c : Converter} {text : Phrase} (h : ¬c.Answers text) (p : Plan) :
    ∃ why, convert p c text = ([p.invocation text], .aborted why) := by
  unfold convert
  cases ht : text.asString with
  | error e =>
    cases c with
    | missing reason | notStarted reason => exact absurd trivial h
    | _ => exact ⟨_, rfl⟩
  | ok t =>
    have hplain : text.IsPlain := ⟨t, Phrase.asString_ok_iff.1 ht⟩
    cases c with
    | missing reason | notStarted reason => exact absurd trivial h
    | tooSlow | finished output report status => exact absurd hplain h
    | _ => exact ⟨_, rfl⟩

end MarkdownPreview

import MarkdownPreview.Converter
import MarkdownPreview.Setup
import MarkdownPreview.Text.Escape

/-!
# Rendering a preview

A preview is made in two steps: the converter turns the text into HTML, and the preview pass
enhances that. When the conversion fails, the last good preview stays as it is and only the error is
attached; without one, the error is shown in a paragraph of its own. Every failed conversion is
reported once, a missed time limit as a warning. A run that is given up leaves no preview at all.

A session renders one text after the other, each with the last good preview before it.

* `renderWith_of_conclude`, `renderWith_of_aborted`: what comes of a conversion decides.
* `runsMade_le_one`: rendering runs the converter once at most.
-/
namespace MarkdownPreview

open Json (Value)
open Text (Phrase)
open Markup (FeatureEntry enhance)

/-! ## Results -/

structure Preview where
  /-- The preview's body. -/
  html : String
  /-- What the view of the HTML text shows. -/
  rawHtml : String
  /-- Why the last conversion failed, if it did. -/
  error : Option String := none
  deriving DecidableEq, Repr

def Preview.ok (p : Preview) : Bool :=
  p.error.isNone

/-- Why nothing can be rendered at all. -/
inductive Fault where
  | options (e : OptionError)
  /-- The time limit is too large for a number of the format. -/
  | timeoutTooLarge
  /-- A run was given up. -/
  | aborted (run : Invocation) (why : RunFault)
  deriving DecidableEq, Repr

def Fault.message : Fault → Phrase
  | options e => e.message
  | timeoutTooLarge => "The time limit is too large"
  | aborted _ why => why.message

def Fault.runs : Fault → List Invocation
  | aborted run _ => [run]
  | _ => []

/-- A preview, with the runs that were made for it and what was reported. -/
structure Rendering where
  preview : Preview
  runs : List Invocation
  log : List LogRecord
  deriving DecidableEq, Repr

/-! ## Rendering -/

def errorParagraph (message : String) : String :=
  "<p class=\"preview-error\">" ++ Text.escaped message ++ "</p>"

/-- The preview after a failed conversion, and what enhancing it reported. -/
def failedPreview (entry : FeatureEntry) (message : String) :
    Option Preview → Preview × List LogRecord
  | some p => ({ p with error := some message }, [])
  | none =>
    let (html, log) := enhance entry (errorParagraph message)
    ({ html := html, rawHtml := errorParagraph message, error := some message }, log)

def failureRecord (e : ConversionError) : LogRecord :=
  let source := "preview.markdown.renderer"
  match e with
  | .timedOut _ => ⟨.warning, source, "Markdown preview not updated: " ++ e.message⟩
  | _ => ⟨.error, source, "Failed processing Markdown document: " ++ e.message⟩

/-- What becomes of a conversion, and what is reported. -/
def conclude (u : Setup) (previous : Option Preview) :
    Conversion → Except RunFault (Preview × List LogRecord)
  | .converted output =>
    let (html, log) := enhance u.entry output
    let shown := if u.settings.showHtmlTextAsModified then html else output
    .ok ({ html := html, rawHtml := shown }, log)
  | .failed e =>
    let (preview, log) := failedPreview u.entry e.message previous
    .ok (preview, failureRecord e :: log)
  | .aborted why => .error why

/-- Renders a text with a setup of the caller's own. -/
def renderWith (u : Setup) (c : Converter) (text : Phrase) (previous : Option Preview := none) :
    Except Fault Rendering :=
  match Plan.of? u.settings with
  | none => .error .timeoutTooLarge
  | some plan =>
    let (runs, outcome) := convert plan c text
    match conclude u previous outcome with
    | .error why => .error (.aborted (plan.invocation text) why)
    | .ok (preview, log) => .ok ⟨preview, runs, log⟩

/-- Renders a text with the features of the settings. -/
def render (s : Settings) (c : Converter) (text : Phrase) (previous : Option Preview := none) :
    Except Fault Rendering :=
  renderWith (.of s) c text previous

section
variable {u : Setup} {plan : Plan} {c : Converter} {text : Phrase} {previous : Option Preview}

theorem renderWith_of_conclude (hp : Plan.of? u.settings = some plan) {preview : Preview}
    {log : List LogRecord}
    (h : conclude u previous (convert plan c text).2 = .ok (preview, log)) :
    renderWith u c text previous = .ok ⟨preview, (convert plan c text).1, log⟩ := by
  simp only [renderWith, hp, h]

theorem renderWith_of_aborted (hp : Plan.of? u.settings = some plan) {why : RunFault}
    (h : (convert plan c text).2 = .aborted why) :
    renderWith u c text previous = .error (.aborted (plan.invocation text) why) := by
  simp only [renderWith, hp, h, conclude]

theorem renderWith_of_no_plan (hp : Plan.of? u.settings = none) (c : Converter) (text : Phrase)
    (previous : Option Preview) : renderWith u c text previous = .error .timeoutTooLarge := by
  simp only [renderWith, hp]

end

/-! ## Runs -/

/-- The runs that were made for a result, whether it is a rendering or a fault. -/
def runsMade : Except Fault Rendering → List Invocation
  | .ok r => r.runs
  | .error f => f.runs

theorem aborted_of_conclude_error {u : Setup} {previous : Option Preview} {y : Conversion}
    {why : RunFault} (h : conclude u previous y = .error why) : y = .aborted why := by
  cases y with
  | aborted why' => rw [Except.error.inj h]
  | _ => cases h

/-- The runs of a rendering are those of its conversion, even if that is given up. -/
theorem runsMade_of_plan {u : Setup} {plan : Plan} (hp : Plan.of? u.settings = some plan)
    (c : Converter) (text : Phrase) (previous : Option Preview) :
    runsMade (renderWith u c text previous) = (convert plan c text).1 := by
  cases h : conclude u previous (convert plan c text).2 with
  | ok y => rw [renderWith_of_conclude hp h, runsMade]
  | error why =>
    have hc := aborted_of_conclude_error h
    rw [renderWith_of_aborted hp hc, runs_of_aborted hc, runsMade, Fault.runs]

theorem runsMade_le_one (u : Setup) (c : Converter) (text : Phrase) (previous : Option Preview) :
    (runsMade (renderWith u c text previous)).length ≤ 1 := by
  cases hp : Plan.of? u.settings with
  | none => simp [renderWith_of_no_plan hp, runsMade, Fault.runs]
  | some plan =>
    rw [runsMade_of_plan hp]
    exact convert_runs_le_one plan c text

/-! ## Where the setup comes from -/

/-- The setup to use: the one given, or else the one that the site's options describe. -/
def setupFrom (given : Option Setup) (options : Option Value) : Except Fault Setup :=
  match given with
  | some u => .ok u
  | none =>
    match Settings.ofOptions options with
    | .ok s => .ok (.of s)
    | .error e => .error (.options e)

/-! ## Sessions -/

/-- One text of a session. -/
structure SessionStep where
  given : Option Setup
  options : Option Value
  converter : Converter
  text : Phrase

/-- Renders the texts of a session in turn, after the last good preview before it. The first fault
ends it. -/
def renderSession : (last : Option Preview) → List SessionStep → Except Fault (List Rendering)
  | _, [] => .ok []
  | last, step :: rest =>
    match setupFrom step.given step.options with
    | .error e => .error e
    | .ok u =>
      match renderWith u step.converter step.text last with
      | .error e => .error e
      | .ok r =>
        let last := if r.preview.ok then some r.preview else last
        match renderSession last rest with
        | .error e => .error e
        | .ok rs => .ok (r :: rs)

end MarkdownPreview

import MarkdownPreview.Json.Writer
import MarkdownPreview.Page.Document
import MarkdownPreview.Preview
import MarkdownPreview.Web.Flag
import MarkdownPreview.Web.Request

/-!
# Endpoints

Two endpoints render a text that is posted to them: one answers with the parts of the preview, the
other with a whole page. Both check a request in the same order before anything runs: the header,
the method, the body, the text, the site's options, and then the two flags. The first fault met
decides. A request that passes is a `Job`. It has no answer if its rendering is given up, or if the
site's settings leave no page that could be sent.

* `respond_of_refusal`, `respond_of_unreadable`, `respond_of_options`, `respond_of_job`: an answer
  follows from the check.
* `perform_of_fault`, `perform_of_present`, `perform_of_no_page`: how a job ends.
* `runsFor_respond_le_one`: a request starts the converter once at most.
-/
namespace MarkdownPreview.Web

open Json (Value Fields)
open Text (Phrase EncodeFault)

/-- Where a text can be posted to. -/
inductive Endpoint where
  /-- Answers with the parts of the preview. -/
  | render
  /-- Answers with a page. -/
  | document
  deriving DecidableEq, Repr

/-! ## Checks -/

inductive Refusal where
  | wrongMethod
  | notAnObject
  | noText
  | badFlag (e : BadFlag)
  deriving DecidableEq, Repr

/-- Why a request renders nothing: it is refused, it cannot be read, or the site's options are
refused. -/
inductive Rejection where
  | refusal (r : Refusal)
  | unreadable (e : Unreadable)
  | options (e : OptionError)
  deriving DecidableEq, Repr

structure Job where
  text : Phrase
  settings : Settings
  deriving DecidableEq, Repr

def textField : String := "markdown"

/-- The text among a request's fields. -/
def textOf? (fields : Fields) : Option Phrase :=
  match fields.get? textField with
  | some (.phrase p) => some p
  | _ => none

def flagOf (fields : Fields) (f : Feature) : Except BadFlag (Option Bool) :=
  readFlag ((fields.get? f.name).getD .null)

def overridesOf (fields : Fields) : Except BadFlag FeatureOverrides :=
  match flagOf fields .taskLists with
  | .error e => .error e
  | .ok taskLists =>
    match flagOf fields .iconBullets with
    | .error e => .error e
    | .ok iconBullets => .ok ⟨taskLists, iconBullets⟩

def jobOf (options : Option Value) (fields : Fields) : Except Rejection Job :=
  match textOf? fields with
  | none => .error (.refusal .noText)
  | some text =>
    match Settings.ofOptions options with
    | .error e => .error (.options e)
    | .ok s =>
      match overridesOf fields with
      | .error e => .error (.refusal (.badFlag e))
      | .ok o => .ok ⟨text, s.withFeatures o⟩

/-- The job that a request of some content type asks for. -/
def Request.jobAs (server : Server) (options : Option Value) (r : Request) (t : ContentType) :
    Except Rejection Job :=
  if r.isPost then
    match r.fields? server t with
    | .error e => .error (.unreadable e)
    | .ok none => .error (.refusal .notAnObject)
    | .ok (some fields) => jobOf options fields
  else .error (.refusal .wrongMethod)

/-- The job that a request asks for. -/
def Request.job (server : Server) (options : Option Value) (r : Request) : Except Rejection Job :=
  match r.header with
  | .error e => .error (.unreadable (.header e))
  | .ok t => r.jobAs server options t

/-! ## Answers -/

structure Response where
  status : Nat
  contentType : String
  /-- The methods that are served, where another one was tried. -/
  allow : Option String := none
  body : String
  deriving DecidableEq, Repr

/-- The content type of pages and of messages. -/
def pageType : String := "text/html; charset=utf-8"

def Refusal.message : Refusal → String
  | wrongMethod => ""
  | notAnObject => "Request body must be a JSON object"
  | noText => "Missing '" ++ textField ++ "' field"
  | badFlag e => e.message

def Refusal.response : Refusal → Response
  | wrongMethod => { status := 405, contentType := pageType, allow := some "POST", body := "" }
  | r => { status := 400, contentType := pageType, body := r.message }

/-- The parts of a preview, as a JSON object. -/
def previewObject (p : Preview) : String :=
  Json.writeObject [("html", some p.html), ("raw_html", some p.rawHtml), ("error", p.error)]

inductive PageFault where
  | style (e : Page.StyleFault)
  | unencodable (e : EncodeFault)
  deriving DecidableEq, Repr

def PageFault.message : PageFault → String
  | style e => e.message
  | unencodable e => e.message

/-- The page for a preview as it is sent. -/
def sentPage (s : Settings) (p : Preview) : Except PageFault String :=
  match Page.document p s with
  | .error e => .error (.style e)
  | .ok page => page.asString.mapError .unencodable

def Endpoint.present (e : Endpoint) (s : Settings) (p : Preview) : Except PageFault Response :=
  match e with
  | render => .ok { status := 200, contentType := jsonType, body := previewObject p }
  | document => (sentPage s p).map fun page =>
      { status := 200, contentType := pageType, body := page }

/-- An answer, with the runs that were made for it. -/
structure Exchange where
  response : Response
  runs : List Invocation
  deriving DecidableEq, Repr

inductive Failure where
  | unreadable (e : Unreadable)
  | fault (f : Fault)
  /-- The text is rendered, but there is no page to show it. -/
  | page (e : PageFault) (runs : List Invocation)
  deriving DecidableEq, Repr

def Failure.runs : Failure → List Invocation
  | unreadable _ => []
  | fault f => f.runs
  | page _ runs => runs

def Endpoint.perform (e : Endpoint) (c : Converter) (job : Job) : Except Failure Exchange :=
  match MarkdownPreview.render job.settings c job.text with
  | .error f => .error (.fault f)
  | .ok r =>
    match e.present job.settings r.preview with
    | .error why => .error (.page why r.runs)
    | .ok answer => .ok ⟨answer, r.runs⟩

section
variable {e : Endpoint} {c : Converter} {s : Settings} {text : Phrase} {y : Rendering}

theorem perform_of_fault {f : Fault} (h : MarkdownPreview.render s c text = .error f) :
    e.perform c ⟨text, s⟩ = .error (.fault f) := by
  simp only [Endpoint.perform, h]

theorem perform_of_present (h : MarkdownPreview.render s c text = .ok y) {answer : Response}
    (hp : e.present s y.preview = .ok answer) : e.perform c ⟨text, s⟩ = .ok ⟨answer, y.runs⟩ := by
  simp only [Endpoint.perform, h, hp]

theorem perform_of_no_page (h : MarkdownPreview.render s c text = .ok y) {why : PageFault}
    (hp : e.present s y.preview = .error why) :
    e.perform c ⟨text, s⟩ = .error (.page why y.runs) := by
  simp only [Endpoint.perform, h, hp]

end

def Endpoint.respond (e : Endpoint) (server : Server) (options : Option Value) (c : Converter)
    (r : Request) : Except Failure Exchange :=
  match r.job server options with
  | .error (.refusal why) => .ok ⟨why.response, []⟩
  | .error (.unreadable e) => .error (.unreadable e)
  | .error (.options e) => .error (.fault (.options e))
  | .ok job => e.perform c job

section
variable {server : Server} {options : Option Value} {r : Request}

theorem respond_of_refusal {why : Refusal} (h : r.job server options = .error (.refusal why))
    (e : Endpoint) (c : Converter) :
    e.respond server options c r = .ok ⟨why.response, []⟩ := by
  simp [Endpoint.respond, h]

theorem respond_of_unreadable {why : Unreadable}
    (h : r.job server options = .error (.unreadable why)) (e : Endpoint) (c : Converter) :
    e.respond server options c r = .error (.unreadable why) := by
  simp [Endpoint.respond, h]

theorem respond_of_options {why : OptionError} (h : r.job server options = .error (.options why))
    (e : Endpoint) (c : Converter) :
    e.respond server options c r = .error (.fault (.options why)) := by
  simp [Endpoint.respond, h]

theorem respond_of_job {job : Job} (h : r.job server options = .ok job) (e : Endpoint)
    (c : Converter) : e.respond server options c r = e.perform c job := by
  simp [Endpoint.respond, h]

end

/-! ## Runs -/

/-- The runs that were made for a request, whether it is answered or not. -/
def runsFor : Except Failure Exchange → List Invocation
  | .ok x => x.runs
  | .error f => f.runs

/-- A job makes the runs of its rendering, even if there is no page to show it. -/
theorem runsFor_perform (e : Endpoint) (c : Converter) (job : Job) :
    runsFor (e.perform c job) = runsMade (MarkdownPreview.render job.settings c job.text) := by
  cases h : MarkdownPreview.render job.settings c job.text with
  | error f => rw [perform_of_fault h, runsFor, Failure.runs, runsMade]
  | ok y =>
    cases hp : e.present job.settings y.preview with
    | error why => rw [perform_of_no_page h hp, runsFor, Failure.runs, runsMade]
    | ok answer => rw [perform_of_present h hp, runsFor, runsMade]

theorem runsFor_respond_le_one (e : Endpoint) (server : Server) (options : Option Value)
    (c : Converter) (r : Request) : (runsFor (e.respond server options c r)).length ≤ 1 := by
  unfold Endpoint.respond
  split
  · simp [runsFor]
  · simp [runsFor, Failure.runs]
  · simp [runsFor, Failure.runs, Fault.runs]
  · rename_i job _
    rw [runsFor_perform]
    exact runsMade_le_one (.of job.settings) c job.text none

end MarkdownPreview.Web

import MarkdownPreview.Json.Value
import MarkdownPreview.Log
import MarkdownPreview.Markup.Pass

/-!
# Enhancing converter output

The preview pass needs a snapshot of the features. A caller may hand over something else in its
place; the pass then cannot run, which is reported, and the document is shown as the converter left
it, inside the preview's body.

* `enhance_snapshot`: with a snapshot, the pass decides and nothing is reported.
* `enhance_unusable`: without one, the document is only wrapped.
-/
namespace MarkdownPreview.Markup

open Json (Value)

/-- What a caller hands over as the features of a document. -/
inductive FeatureEntry where
  | snapshot (f : Features)
  /-- Something that is no snapshot of features, or none that can be used. -/
  | unusable
  deriving DecidableEq, Repr

/-- The entry for features given as a JSON value, or not at all: what does not count as true stands
for no features, anything else is no snapshot. -/
def FeatureEntry.ofGiven : Option Value → FeatureEntry
  | none => .snapshot {}
  | some v => if v.truthy then .unusable else .snapshot {}

/-- The entry for features `f` that were given as two values: an array or an object among them
cannot be used. -/
def FeatureEntry.ofValues (f : Features) (taskLists iconBullets : Value) : FeatureEntry :=
  if taskLists.isCompound || iconBullets.isCompound then .unusable else .snapshot f

/-- The report of a pass that could not run. -/
def passFailed : LogRecord where
  level := .error
  source := "preview.markdown.postprocessors.preview_enhancer"
  message := "Preview postprocessing failed"

/-- The preview's body for converter output, and what is reported. -/
def enhance (entry : FeatureEntry) (html : String) : String × List LogRecord :=
  match entry with
  | .snapshot f => (transform f html, [])
  | .unusable => (wrapBody html, [passFailed])

theorem enhance_snapshot (f : Features) (html : String) :
    enhance (.snapshot f) html = (transform f html, []) := rfl

theorem enhance_unusable (html : String) :
    enhance .unusable html = (wrapBody html, [passFailed]) := rfl

end MarkdownPreview.Markup

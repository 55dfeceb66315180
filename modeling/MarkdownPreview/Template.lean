import MarkdownPreview.Preview

/-!
# Previews in templates

A template shows the preview of a value in two ways. The filter renders it under the site's
settings. The tag also takes a value for each feature: null says nothing, and any other value counts
by its truth. The features of a tag whose values hold an array or an object cannot be used by the
preview pass, so the document is then shown as the converter left it.

* `tag_empty`: a tag that names no feature shows what the filter shows.
-/
namespace MarkdownPreview.Template

open Json (Value)

/-- The text that a template's value stands for: anything empty is the empty text. -/
def sourceText : Value → Text.Phrase
  | .phrase p => p
  | _ => ""

/-- The values that a tag is given for the features. -/
structure FlagValues where
  taskLists : Value := .null
  iconBullets : Value := .null
  deriving Repr

/-- What a flag value says about a feature. -/
def saidBy : Value → Option Bool
  | .null => none
  | v => some v.truthy

namespace FlagValues

def overrides (a : FlagValues) : FeatureOverrides :=
  ⟨saidBy a.taskLists, saidBy a.iconBullets⟩

/-- The setup of one tag under the site's settings. -/
def setup (a : FlagValues) (base : Settings) : Setup :=
  let s := base.withFeatures a.overrides
  { settings := s, entry := .ofValues s.features a.taskLists a.iconBullets }

end FlagValues

/-- Renders a value with the features that a tag names. -/
def tag (options : Option Value) (c : Converter) (v : Value) (a : FlagValues) :
    Except Fault Rendering :=
  match Settings.ofOptions options with
  | .error e => .error (.options e)
  | .ok base => renderWith (a.setup base) c (sourceText v)

/-- Renders a value under the site's settings. -/
def filter (options : Option Value) (c : Converter) (v : Value) : Except Fault Rendering :=
  match Settings.ofOptions options with
  | .error e => .error (.options e)
  | .ok s => render s c (sourceText v)

theorem tag_empty (options : Option Value) (c : Converter) (v : Value) :
    tag options c v {} = filter options c v := by
  unfold tag filter
  cases Settings.ofOptions options <;> rfl

end MarkdownPreview.Template

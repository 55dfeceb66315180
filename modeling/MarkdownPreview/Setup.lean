import MarkdownPreview.Markup.Enhance
import MarkdownPreview.Settings.Unchecked

/-!
# Setups

A rendering goes by settings and by what the preview pass is handed as the features. For checked
settings both say the same (`Setup.of`). For fields handed over without a check (`Setup.ofFields`)
the pass is handed features that it may not be able to use.

* `ofFields_nil`: no fields mean the defaults.
* `ofFields_of_usable`: features that are neither arrays nor objects can be used.
-/
namespace MarkdownPreview

open Json (Value Fields)
open Markup (FeatureEntry)

/-- What a rendering goes by. -/
structure Setup where
  settings : Settings
  /-- What the preview pass is handed as the features. -/
  entry : FeatureEntry
  deriving DecidableEq, Repr

namespace Setup

/-- The setup for settings whose features can be used. -/
def of (s : Settings) : Setup where
  settings := s
  entry := .snapshot s.features

/-- The value of a feature among fields; null for none. -/
def featureValue (fields : Fields) (x : Feature) : Value :=
  (fields.get? x.name).getD .null

/-- The setup for fields of settings that nobody has checked. -/
def ofFields (fields : Fields) : Setup :=
  let s := Settings.acceptAll {} fields
  { settings := s
    entry :=
      .ofValues s.features (featureValue fields .taskLists) (featureValue fields .iconBullets) }

theorem ofFields_nil : ofFields [] = of {} := rfl

theorem ofFields_of_usable {fields : Fields}
    (h : ∀ x, (featureValue fields x).isCompound = false) :
    ofFields fields = of (Settings.acceptAll {} fields) := by
  simp [ofFields, of, FeatureEntry.ofValues, h]

end Setup

end MarkdownPreview

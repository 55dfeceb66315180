import MarkdownPreview.Features
import MarkdownPreview.Settings.Quantity

/-!
# Settings

`Settings` says how documents are converted, which features the preview has, and how it looks. Each
field has a default, so that a site names only what it wants otherwise.

* `withFeatures_isEmpty`: overrides that name no feature change nothing.
* `features_withFeatures`: an override decides, else the setting.
-/
namespace MarkdownPreview

open Text (Phrase)

/-- How documents are converted and shown. -/
structure Settings where
  /-- Task items get check boxes. -/
  taskLists : Bool := true
  /-- Items of bulleted lists get check-box bullets. -/
  iconBullets : Bool := false
  /-- How long a conversion may take, in milliseconds. -/
  parsingTimeout : Quantity := .whole 10000
  smarts : Bool := true
  quotes : Bool := true
  abbreviations : Bool := false
  hardWraps : Bool := false
  autolinks : Bool := true
  wikiLinks : Bool := false
  tables : Bool := true
  definitions : Bool := true
  fencedCodeBlocks : Bool := true
  suppressHtmlBlocks : Bool := false
  suppressInlineHtml : Bool := false
  strikethrough : Bool := true
  headerSpace : Bool := true
  anchorLinks : Bool := true
  /-- The view of the HTML text shows the preview's markup. -/
  showHtmlTextAsModified : Bool := false
  htmlTheme : Phrase := "light"
  /-- A stylesheet of the site's own. -/
  customCss : Phrase := ""
  /-- The greatest width of an image in pixels; zero for no limit. -/
  maxImgWidth : Quantity := .whole 0
  deriving DecidableEq, Repr

/-- Features that are to be on or off for one document, whatever the settings say. -/
structure FeatureOverrides where
  taskLists : Option Bool := none
  iconBullets : Option Bool := none
  deriving DecidableEq, Repr

def FeatureOverrides.isEmpty (o : FeatureOverrides) : Bool :=
  o.taskLists.isNone && o.iconBullets.isNone

namespace Settings

/-- The theme with light letters on a dark ground. -/
def darkTheme : String := "dark"

def themes : List String := ["light", darkTheme]

/-- Whether the dark theme is chosen. Any other name stands for the light one. -/
def isDark (s : Settings) : Bool :=
  s.htmlTheme = .plain darkTheme

def features (s : Settings) : Features :=
  ⟨s.taskLists, s.iconBullets⟩

/-- The settings for one document. -/
def withFeatures (s : Settings) (o : FeatureOverrides) : Settings :=
  { s with
    taskLists := o.taskLists.getD s.taskLists
    iconBullets := o.iconBullets.getD s.iconBullets }

theorem withFeatures_isEmpty {s : Settings} {o : FeatureOverrides} (h : o.isEmpty = true) :
    s.withFeatures o = s := by
  obtain ⟨t, i⟩ := o
  cases t <;> cases i <;> simp_all [FeatureOverrides.isEmpty, withFeatures]

theorem features_withFeatures (s : Settings) (o : FeatureOverrides) :
    (s.withFeatures o).features =
      ⟨o.taskLists.getD s.taskLists, o.iconBullets.getD s.iconBullets⟩ := rfl

end Settings

end MarkdownPreview

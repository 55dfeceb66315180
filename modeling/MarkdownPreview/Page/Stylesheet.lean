import MarkdownPreview.Page.Css
import MarkdownPreview.Settings.Basic
import MarkdownPreview.Text.Blank

/-!
# The preview's stylesheet

The light and the dark theme have the same rules and differ in their colours (`Palette`). A site's
own stylesheet replaces both, unless it is blank. A limit on the width of images adds one more rule;
there is no stylesheet if the width has too many digits to be written.

* `bundled_selects`: a selector is styled by both themes or by none.
* `stylesheet_ok_iff`: when there is a stylesheet.
* `isPlain_stylesheet_iff`: when it can be written.
-/
namespace MarkdownPreview.Page

open Number (maxWholeDigits)
open Text (Phrase)

/-! ## The bundled themes -/

/-- The colours of a theme. -/
structure Palette where
  letters : String
  ground : String
  link : String
  /-- Behind code and behind every other row. -/
  panel : String
  border : String
  rule : String
  errorLetters : String
  errorGround : String
  deriving DecidableEq, Repr

/-- Dark letters on a light ground. -/
def lightPalette : Palette where
  letters := "#333333"
  ground := "#ffffff"
  link := "#4183c4"
  panel := "#f8f8f8"
  border := "#dddddd"
  rule := "#e7e7e7"
  errorLetters := "#a94442"
  errorGround := "#f2dede"

/-- Light letters on a dark ground. -/
def darkPalette : Palette where
  letters := "#a9b7c6"
  ground := "#2b2b2b"
  link := "#589df6"
  panel := "#313335"
  border := "#4a4a4a"
  rule := "#4a4a4a"
  errorLetters := "#ff6b68"
  errorGround := "#3c3f41"

/-- The rules of a theme. -/
def bundled (p : Palette) : Css :=
  [[{ selectors := ["body.multimarkdown-preview"]
      declarations :=
        [("font-family", "Helvetica, Arial, sans-serif"), ("font-size", "14px"),
          ("line-height", "1.6"), ("color", p.letters), ("background-color", p.ground),
          ("padding", "20px")] }],
    [{ selectors := ["a"], declarations := [("color", p.link)], oneLine := true }],
    [{ selectors := ["code", "pre"]
       declarations :=
        [("font-family", "Consolas, \"Liberation Mono\", Courier, monospace"),
          ("background-color", p.panel), ("border", "1px solid " ++ p.border)] }],
    [{ selectors := ["div.hr"]
       declarations :=
        [("height", "4px"), ("margin", "16px 0"), ("background-color", p.rule)] }],
    [{ selectors := ["span.del"]
       declarations := [("text-decoration", "line-through")], oneLine := true }],
    [{ selectors := ["table"], declarations := [("border-collapse", "collapse")], oneLine := true },
      { selectors := ["th", "td"]
        declarations := [("border", "1px solid " ++ p.border), ("padding", "6px 13px")]
        oneLine := true },
      { selectors := ["tr.first-child", "tr.odd-child"]
        declarations := [("background-color", p.ground)], oneLine := true },
      { selectors := ["tr.even-child"]
        declarations := [("background-color", p.panel)], oneLine := true }],
    [{ selectors := ["li.p", "li.bulletp", "li.taskp"]
       declarations := [("margin", "0")], oneLine := true },
      { selectors := ["p.p"], declarations := [("margin", "0 0 8px 0")], oneLine := true }],
    [{ selectors := ["li.task", "li.taskp", "li.bullet", "li.bulletp"]
       declarations := [("list-style-type", "none")], oneLine := true }],
    [{ selectors := ["input.task-list-item-checkbox"]
       declarations := [("margin", "0 6px 0 -20px")], oneLine := true },
      { selectors := ["input.list-item-bullet"]
        declarations := [("margin", "0 6px 0 -20px"), ("width", "8px"), ("height", "8px")] }],
    [{ selectors := ["p.preview-error"]
       declarations :=
        [("color", p.errorLetters), ("background-color", p.errorGround),
          ("padding", "8px")] }]]

theorem bundled_selects (p q : Palette) (selector : String) :
    (bundled p).selects selector = (bundled q).selects selector := rfl

/-! ## The stylesheet of some settings -/

/-- Why there is no stylesheet. -/
inductive StyleFault where
  /-- The width of images has too many digits to be written. -/
  | widthTooLong
  deriving DecidableEq, Repr

def StyleFault.message : StyleFault → String
  | widthTooLong =>
    "Exceeds the limit (" ++ toString maxWholeDigits ++
      " digits) for integer string conversion; use sys.set_int_max_str_digits() to increase the limit"

/-- The rule that limits the width of images. -/
def imageRule (width : String) : CssRule where
  selectors := ["img"]
  declarations := [("max-width", width ++ "px")]
  oneLine := true

/-- The stylesheet without a limit on images. -/
def baseStylesheet (s : Settings) : Phrase :=
  if s.customCss.isBlank then
    .plain (bundled (if s.isDark then darkPalette else lightPalette)).text
  else s.customCss

/-- The stylesheet that the settings ask for. -/
def stylesheet (s : Settings) : Except StyleFault Phrase :=
  if s.maxImgWidth.isPositive then
    match s.maxImgWidth.text? with
    | none => .error .widthTooLong
    | some width =>
      .ok ((baseStylesheet s).dropFinalLineFeeds ++
        .plain ("\n\n" ++ (imageRule width).text ++ "\n"))
  else .ok (baseStylesheet s)

theorem isPlain_baseStylesheet_iff (s : Settings) :
    (baseStylesheet s).IsPlain ↔ s.customCss.IsPlain := by
  unfold baseStylesheet
  split
  · rename_i hblank
    exact iff_of_true (Phrase.isPlain_plain _) (Phrase.isPlain_of_isBlank hblank)
  · exact Iff.rfl

/-- A stylesheet can be written unless the site's own one cannot. -/
theorem isPlain_stylesheet_iff {s : Settings} {css : Phrase} (h : stylesheet s = .ok css) :
    css.IsPlain ↔ s.customCss.IsPlain := by
  unfold stylesheet at h
  split at h
  · split at h
    · cases h
    · cases h
      rw [Phrase.isPlain_append_iff, Phrase.isPlain_dropFinalLineFeeds_iff,
        isPlain_baseStylesheet_iff]
      exact and_iff_left (Phrase.isPlain_plain _)
  · cases h
    exact isPlain_baseStylesheet_iff s

/-- There is a stylesheet unless a limit on images has too many digits. -/
theorem stylesheet_ok_iff (s : Settings) : (∃ css, stylesheet s = .ok css) ↔
    (s.maxImgWidth.isPositive = true → s.maxImgWidth.isWritable = true) := by
  unfold stylesheet Quantity.text?
  cases s.maxImgWidth.isPositive <;> cases s.maxImgWidth.isWritable <;> simp

end MarkdownPreview.Page

import MarkdownPreview.Page.Stylesheet
import MarkdownPreview.Preview
import MarkdownPreview.Text.Escape

/-!
# The preview page

A preview can be shown on a page of its own: the title, the stylesheet, a comment with the error of
the last conversion if there was one, and the preview's body. Title and error are escaped; the
stylesheet and the body stand as they are.

* `document_ok_iff`, `document_plain_iff`: when there is a page, and when it can be written.
* `errorComment_eq_empty_iff`: there is no comment for no error and for an empty one only.
-/
namespace MarkdownPreview.Page

open Text (Phrase)

/-- The title of a page whose document has no name. -/
def defaultTitle : String := "Preview"

def beforeTitle : String :=
  "<!DOCTYPE html>\n<html>\n<head>\n<meta charset=\"utf-8\">\n<title>"

def beforeStylesheet : String := "</title>\n<style>\n"

def afterStylesheet : String := "\n</style>\n</head>\n"

def afterBody : String := "</html>\n"

/-- The comment that notes an error; none for no error and for an empty one. -/
def errorComment (error : Option String) : String :=
  match error with
  | none => ""
  | some e => if e = "" then "" else "<!-- " ++ Text.escaped e ++ " -->\n"

def pageWith (p : Preview) (title css : Phrase) : Phrase :=
  .plain beforeTitle ++ title.escaped ++ .plain beforeStylesheet ++ css ++
    .plain (afterStylesheet ++ errorComment p.error ++ p.html ++ afterBody)

/-- The page for a preview, if there is a stylesheet. -/
def document (p : Preview) (s : Settings) (title : Phrase := .plain defaultTitle) :
    Except StyleFault Phrase :=
  (stylesheet s).map (pageWith p title)

theorem isPlain_pageWith_iff (p : Preview) (title css : Phrase) :
    (pageWith p title css).IsPlain ↔ title.IsPlain ∧ css.IsPlain := by
  simp only [pageWith, Phrase.isPlain_append_iff, Phrase.isPlain_plain, Phrase.isPlain_escaped_iff,
    true_and, and_true]

/-- A page can be written if its title and the settings' own stylesheet can. -/
theorem isPlain_document_iff {p : Preview} {s : Settings} {title page : Phrase}
    (h : document p s title = .ok page) : page.IsPlain ↔ title.IsPlain ∧ s.customCss.IsPlain := by
  unfold document at h
  cases hcss : stylesheet s with
  | error e =>
    rw [hcss] at h
    cases h
  | ok css =>
    rw [hcss] at h
    cases h
    rw [isPlain_pageWith_iff, isPlain_stylesheet_iff hcss]

theorem document_ok_iff (p : Preview) (s : Settings) (title : Phrase) :
    (∃ page, document p s title = .ok page) ↔
      (s.maxImgWidth.isPositive = true → s.maxImgWidth.isWritable = true) := by
  rw [← stylesheet_ok_iff]
  unfold document
  cases stylesheet s <;> simp [Except.map]

/-- What the settings must be like for their pages to be written. -/
structure Writable (s : Settings) : Prop where
  width : s.maxImgWidth.isPositive = true → s.maxImgWidth.isWritable = true
  css : s.customCss.IsPlain

/-- There is a page that can be written exactly if the settings and the title are fit for it. -/
theorem document_plain_iff (p : Preview) (s : Settings) (title : Phrase) :
    (∃ page : String, document p s title = .ok (.plain page)) ↔ Writable s ∧ title.IsPlain := by
  constructor
  · rintro ⟨page, hpage⟩
    obtain ⟨htitle, hcss⟩ := (isPlain_document_iff hpage).1 (Phrase.isPlain_plain page)
    exact ⟨⟨(document_ok_iff p s title).1 ⟨_, hpage⟩, hcss⟩, htitle⟩
  · rintro ⟨hs, htitle⟩
    obtain ⟨page, hpage⟩ := (document_ok_iff p s title).2 hs.width
    obtain ⟨text, rfl⟩ := (isPlain_document_iff hpage).2 ⟨htitle, hs.css⟩
    exact ⟨text, hpage⟩

theorem errorComment_eq_empty_iff (error : Option String) :
    errorComment error = "" ↔ error = none ∨ error = some "" := by
  cases error with
  | none => simp [errorComment]
  | some e =>
    by_cases h : e = ""
    · simp [errorComment, h]
    · simp [errorComment, h, String.append_eq_empty_iff]

end MarkdownPreview.Page

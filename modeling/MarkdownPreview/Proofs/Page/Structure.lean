import Mathlib.Data.List.Infix
import MarkdownPreview.Page.Document

/-!
# The structure of a page

A page shows two texts that come from elsewhere: its title, and the error of the last conversion.
Both stand escaped between marks of the page's own, the tags of the title and the ends of a comment.
Someone who reads the page looks for the first closing mark, so neither text may spell one. An
escaped text holds no `>`, with which both closing marks end.

* `between?`: what a reader finds between two marks.
* `cut?_enclosed`: the first closing mark is the page's own.
* `showsBetween_title`, `showsBetween_comment`: title and error are found as they are.
* `document_structure`: what a page consists of.
-/
namespace MarkdownPreview.Page

open Text (Phrase Point)

/-! ## Marks -/

section
variable {α : Type} [DecidableEq α]

/-- A text before and behind the first place where another one stands. -/
def cut? (mark : List α) : List α → Option (List α × List α)
  | [] => if mark.isEmpty then some ([], []) else none
  | c :: r =>
    if mark.isPrefixOf (c :: r) then some ([], (c :: r).drop mark.length)
    else (cut? mark r).map fun (before, behind) => (c :: before, behind)

/-- What stands between the first opening mark and the first closing mark behind it. -/
def between? (opening closing s : List α) : Option (List α) :=
  (cut? opening s).bind fun (_, r) => (cut? closing r).map Prod.fst

theorem cut?_of_prefix {mark s : List α} (h : mark <+: s) :
    cut? mark s = some ([], s.drop mark.length) := by
  cases s with
  | nil =>
    obtain rfl := List.prefix_nil.1 h
    rfl
  | cons c r => rw [cut?, if_pos (List.isPrefixOf_iff_prefix.2 h)]

/-- A mark is found behind a text that does not hold its last character. -/
theorem cut?_enclosed {mark stem : List α} {last : α} (hmark : mark = stem ++ [last])
    (hstem : last ∉ stem) {s : List α} (hs : last ∉ s) (t : List α) :
    cut? mark (s ++ (mark ++ t)) = some (s, t) := by
  induction s with
  | nil =>
    rw [List.nil_append, cut?_of_prefix (List.prefix_append _ t), List.drop_left]
  | cons c s ih =>
    rw [List.mem_cons, not_or] at hs
    have hne : ¬mark.isPrefixOf (c :: (s ++ (mark ++ t))) = true := by
      intro hp
      have hprefix := List.isPrefixOf_iff_prefix.1 hp
      have hsplit : c :: (s ++ (mark ++ t)) = (c :: s ++ stem) ++ (last :: t) := by simp [hmark]
      rw [hsplit] at hprefix
      -- the mark would end before its own last character is reached
      have hshort : mark.length ≤ (c :: s ++ stem).length := by simp [hmark]
      have hinside := List.prefix_of_prefix_length_le hprefix (List.prefix_append _ _) hshort
      have hlast : last ∈ c :: s ++ stem := hinside.subset (by simp [hmark])
      simp only [List.cons_append, List.mem_cons, List.mem_append] at hlast
      rcases hlast with h | h | h
      · exact hs.1 h
      · exact hs.2 h
      · exact hstem h
    rw [List.cons_append, cut?, if_neg hne, ih hs.2]
    rfl

end

/-! ## Escaped texts -/

/-- Between two marks a reader finds a text in escaped form. -/
structure ShowsBetween (opening closing : String) (page text : Phrase) : Prop where
  found : between? (Phrase.plain opening).points (Phrase.plain closing).points page.points =
    some text.escaped.points
  /-- No character of it could end something in the page. -/
  harmless : ∀ c, .char c ∈ text.escaped.points → c ≠ '<' ∧ c ≠ '>' ∧ c ≠ '"' ∧ c ≠ '\''
  /-- The text itself can be read back from it. -/
  restored : Point.unescape text.escaped.points = text.points

theorem harmless_escaped {text : Phrase} {c : Char} (h : .char c ∈ text.escaped.points) :
    c ≠ '<' ∧ c ≠ '>' ∧ c ≠ '"' ∧ c ≠ '\'' := by
  rw [Phrase.points_escaped] at h
  obtain ⟨cs, hc⟩ := Point.exists_of_mem_mapRuns h
  obtain ⟨d, -, hd⟩ := List.mem_flatMap.1 hc
  exact Text.mem_escapeChar hd

theorem showsBetween_of_found {opening closing : String} {page text : Phrase}
    (h : between? (Phrase.plain opening).points (Phrase.plain closing).points page.points =
      some text.escaped.points) : ShowsBetween opening closing page text where
  found := h
  harmless _ hc := harmless_escaped hc
  restored := by rw [Phrase.points_escaped, Point.unescape_escape]

theorem greater_notMem_escaped (text : Phrase) : Point.char '>' ∉ text.escaped.points :=
  fun h => (harmless_escaped h).2.1 rfl

/-- The title of a page is found, whatever follows it. -/
theorem showsBetween_title (title r : Phrase) : ShowsBetween "<title>" "</title>"
    (.plain beforeTitle ++ title.escaped ++ .plain "</title>" ++ r) title := by
  apply showsBetween_of_found
  have hopen : ∀ t, cut? (Phrase.plain "<title>").points ((Phrase.plain beforeTitle).points ++ t) =
      some ((Phrase.plain "<!DOCTYPE html>\n<html>\n<head>\n<meta charset=\"utf-8\">\n").points,
        t) := by
    intro t
    simp [Phrase.points, Point.ofChars, beforeTitle, cut?]
  have hmark : (Phrase.plain "</title>").points =
      (Phrase.plain "</title").points ++ [.char '>'] := by decide
  have hclose := cut?_enclosed hmark (by decide) (greater_notMem_escaped title) r.points
  simp only [between?, Phrase.points_append, List.append_assoc, hopen, Option.bind_some, hclose,
    Option.map_some]

/-- The error that a comment notes is found. -/
theorem showsBetween_comment (e : Phrase) :
    ShowsBetween "<!-- " " -->" (.plain "<!-- " ++ e.escaped ++ .plain " -->\n") e := by
  apply showsBetween_of_found
  have hopen : ∀ t, cut? (Phrase.plain "<!-- ").points ((Phrase.plain "<!-- ").points ++ t) =
      some ([], t) := fun _ => rfl
  have hmark : (Phrase.plain " -->").points = (Phrase.plain " --").points ++ [.char '>'] := by
    decide
  have hend : (Phrase.plain " -->\n").points =
      (Phrase.plain " -->").points ++ [.char '\n'] := by decide
  have hclose := cut?_enclosed hmark (by decide) (greater_notMem_escaped e) [.char '\n']
  simp only [between?, Phrase.points_append, List.append_assoc, hopen, Option.bind_some, hend,
    hclose, Option.map_some]

/-! ## Pages -/

theorem errorComment_of_ne_empty {e : String} (h : e ≠ "") :
    errorComment (some e) = "<!-- " ++ Text.escaped e ++ " -->\n" :=
  if_neg h

/-- There is a page unless a limit on the width of images has too many digits. -/
theorem exists_document {s : Settings}
    (h : ∀ i, s.maxImgWidth = .whole i → i.natAbs < Number.tooLong) (p : Preview)
    (title : Phrase) : ∃ page, document p s title = .ok page := by
  have hwritable : s.maxImgWidth.isWritable = true := by
    cases hw : s.maxImgWidth with
    | whole i => exact (Quantity.isWritable_whole i).2 (h i hw)
    | _ => rfl
  obtain ⟨css, hcss⟩ := (stylesheet_ok_iff s).2 fun _ => hwritable
  exact ⟨_, by rw [document, hcss]; rfl⟩

/-- What a page consists of. All that stands around the title, the stylesheet, the comment and the
body is the same in every page; the stylesheet and the body stand in it as they are. There is a page
unless the limit on the width of images has more than 4300 digits. The title is shown between its
tags; there is a comment exactly if there is an error that is not empty, and it shows that error. -/
theorem document_structure (p : Preview) (s : Settings) (title : Phrase) : ∃ comment : String,
    document p s title = (stylesheet s).map (fun css =>
      .plain "<!DOCTYPE html>\n<html>\n<head>\n<meta charset=\"utf-8\">\n<title>" ++
        title.escaped ++ .plain "</title>\n<style>\n" ++ css ++
        .plain ("\n</style>\n</head>\n" ++ comment ++ p.html ++ "</html>\n")) ∧
    ((∀ i, s.maxImgWidth = .whole i → i.natAbs < Number.tooLong) →
      ∃ page, document p s title = .ok page) ∧
    (∀ page, document p s title = .ok page → ShowsBetween "<title>" "</title>" page title) ∧
    (p.error = none ∨ p.error = some "" → comment = "") ∧
    ∀ e, p.error = some e → e ≠ "" → comment = "<!-- " ++ Text.escaped e ++ " -->\n" ∧
      ShowsBetween "<!-- " " -->" (.plain comment) (.plain e) := by
  refine ⟨errorComment p.error, ?_, fun h => exists_document h p title, ?_,
    (errorComment_eq_empty_iff p.error).2, ?_⟩
  · rfl
  · intro page hpage
    rw [document] at hpage
    cases hcss : stylesheet s with
    | error e => cases hcss ▸ hpage
    | ok css =>
      obtain rfl := Except.ok.inj (hcss ▸ hpage)
      have hbefore : beforeStylesheet = "</title>" ++ "\n<style>\n" := by decide
      rw [pageWith, hbefore, ← Phrase.plain_append]
      simp only [Phrase.append_assoc]
      have htitle := showsBetween_title title
      simp only [Phrase.append_assoc] at htitle
      exact htitle _
  · intro e he hne
    rw [he, errorComment_of_ne_empty hne]
    exact ⟨rfl, showsBetween_comment (.plain e)⟩

end MarkdownPreview.Page

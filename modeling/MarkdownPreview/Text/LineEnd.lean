import MarkdownPreview.Text.Phrase

/-!
# Line ends

A line may end in a line feed, in a carriage return, or in both. `withLineFeeds` makes each of these
ends a line feed, and `endingLine` ends a line that has no end yet.

* `withLineFeeds_no_return`: no carriage return is left.
* `withLineFeeds_of_no_return`: a text without carriage returns stays as it is.
-/
namespace MarkdownPreview.Text

/-- The text with a line feed for each line end. -/
def withLineFeeds : List Char → List Char
  | [] => []
  | [c] => [if c = '\r' then '\n' else c]
  | c :: d :: r =>
    if c = '\r' then
      if d = '\n' then '\n' :: withLineFeeds r else '\n' :: withLineFeeds (d :: r)
    else c :: withLineFeeds (d :: r)

theorem withLineFeeds_no_return (s : List Char) : '\r' ∉ withLineFeeds s := by
  fun_induction withLineFeeds s <;> grind

theorem withLineFeeds_of_no_return {s : List Char} (h : '\r' ∉ s) : withLineFeeds s = s := by
  fun_induction withLineFeeds s <;> grind

/-- The text with a line feed after it, unless it ends in one. -/
def endingLine (p : Phrase) : Phrase :=
  if p.points.getLast? = some (.char '\n') then p else p ++ .plain "\n"

end MarkdownPreview.Text

/-!
# Sets of characters by ranges

A property of characters is kept as a list of ranges of code points, both ends included.
-/
namespace MarkdownPreview.Text

/-- Ranges of code points, both ends included. -/
abbrev CharRanges := List (Nat × Nat)

def CharRanges.has (ranges : CharRanges) (c : Char) : Bool :=
  ranges.any fun (low, high) => low ≤ c.toNat && c.toNat ≤ high

theorem CharRanges.has_append (a b : CharRanges) (c : Char) :
    CharRanges.has (a ++ b) c = (a.has c || b.has c) :=
  List.any_append

end MarkdownPreview.Text

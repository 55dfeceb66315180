import Mathlib.Data.List.Induction
import MarkdownPreview.Markup.Pass
import MarkdownPreview.Proofs.Markup.Scan

/-!
# A pass on its way through a text

What a pass remembers is often the same as what can be read off the text up to the place that it has
come to. To see that, it is enough to go on by one place: at the place of a tag the pass takes its
step, and at every other place, those inside a tag among them, it does nothing.

* `run_invariant`: what holds at the start and is kept at each place holds wherever a pass has come.
-/
namespace MarkdownPreview.Markup

/-- Only tables and rows bear on the counter of rows. -/
theorem rows_next (st : PassState) (k : Kind) : (st.next k).rows =
    if k = .tableOpen then 0 else st.rows + if k = .rowOpen then 1 else 0 := by
  cases k <;> rfl

theorem run_concat_plain (f : Features) (st : PassState) (l : List Segment) (c : Char) :
    (run f st (l ++ [.plain c])).2 = (run f st l).2 := by
  rw [run_append]
  rfl

theorem run_concat_tag (f : Features) (st : PassState) (l : List Segment) (t : Tag) :
    (run f st (l ++ [.tag t])).2 = (run f st l).2.next t.kind := by
  rw [run_append]
  rfl

theorem run_map_plain_append (f : Features) (st : PassState) (a : List Char) (l : List Segment) :
    (run f st (a.map .plain ++ l)).1 = a ++ (run f st l).1 := by
  induction a with
  | nil => rfl
  | cons c r ih => exact congrArg (c :: ·) ih

section
variable {f : Features} {s : List Char} {P : PassState → Nat → Prop}

/-- Over the rest of a tag nothing changes. -/
theorem keeps_inside_tag
    (plain : ∀ st i, tagAt? (active f) (s.drop i) = none → P st i → P st (i + 1)) {i : Nat} {t : Tag}
    (h : tagAt? (active f) (s.drop i) = some t) {st : PassState} (hst : P st (i + 1)) {n : Nat}
    (hn : n < t.text.length) : P st (i + 1 + n) := by
  induction n with
  | zero => exact hst
  | succ n ih =>
    have hin := tagAt?_inside h (Nat.succ_pos n) hn
    rw [List.drop_drop, show i + n.succ = i + 1 + n by omega] at hin
    exact plain st _ hin (ih (Nat.lt_of_succ_lt hn))

/-- What holds at the start and is kept at each place holds wherever a pass has come. -/
theorem run_invariant (start : P .initial 0)
    (plain : ∀ st i, tagAt? (active f) (s.drop i) = none → P st i → P st (i + 1))
    (tag : ∀ st i t, tagAt? (active f) (s.drop i) = some t → P st i → P (st.next t.kind) (i + 1))
    {before after : List Segment} (h : segments f s = before ++ after) :
    P (run f .initial before).2 (textOf before).length := by
  induction before using List.reverseRecOn generalizing after with
  | nil => exact start
  | append_singleton before x ih =>
    rw [List.append_assoc] at h
    have hbefore := ih h
    have hread : Reads f ([x] ++ after) := reads_append (h ▸ reads_segments f s)
    have hat : s.drop (textOf before).length = textOf ([x] ++ after) := by
      rw [← textOf_segments f s, h, textOf_append, List.drop_left]
    cases x with
    | plain c =>
      rw [run_concat_plain, textOf_append, List.length_append]
      exact plain _ _ (hat ▸ hread.1) hbefore
    | tag t =>
      have ht : tagAt? (active f) (s.drop (textOf before).length) = some t := hat ▸ hread.1
      have hpos := List.length_pos_iff.2 (tagAt?_text_ne_nil ht)
      have hlast := keeps_inside_tag plain ht (tag _ _ t ht hbefore)
        (show t.text.length - 1 < t.text.length by omega)
      rw [run_concat_tag, textOf_append, List.length_append, textOf_tag, textOf_nil,
        List.append_nil]
      rwa [Nat.add_assoc, Nat.add_sub_cancel' hpos] at hlast

end

end MarkdownPreview.Markup

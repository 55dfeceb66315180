import MarkdownPreview.Proofs.Markup.Emission
import MarkdownPreview.Proofs.Markup.FixedTags
import MarkdownPreview.Proofs.Markup.Walk

/-!
# Striped rows

The rows of a table get classes in turn. Which class a row gets can be read off the bare text: it is
decided by the number of `<tr>` from the last `<table>` before it on (`rowNumber`). Tags with
capitals or attributes do not count, and the features have no part in it.

* `rows_run`: the counter of a pass is the number of rows in the text since the last table.
* `rows_striped`: every `<tr>` of a text gets the class of its number.
-/
namespace MarkdownPreview.Markup

/-! ## Rows of a text -/

/-- The place of the last table that opens before place `i`, or the start of the text. -/
def lastTable (s : List Char) (i : Nat) : Nat :=
  ((List.range i).reverse.find? fun j => "<table>".toList.isPrefixOf (s.drop j)).getD 0

/-- How many rows begin from place `p` on and before place `i`. -/
def rowsBetween (s : List Char) (p i : Nat) : Nat :=
  (List.range i).countP fun j => p ≤ j && "<tr>".toList.isPrefixOf (s.drop j)

/-- The number of a row that begins at place `i`: how many rows begin from the last table on up to
there. -/
def rowNumber (s : List Char) (i : Nat) : Nat :=
  rowsBetween s (lastTable s i) (i + 1)

theorem lastTable_succ (s : List Char) (i : Nat) : lastTable s (i + 1) =
    if "<table>".toList <+: s.drop i then i else lastTable s i := by
  simp only [lastTable, List.range_succ, List.reverse_concat, List.find?_cons,
    ← List.isPrefixOf_iff_prefix]
  cases "<table>".toList.isPrefixOf (s.drop i) <;> rfl

theorem lastTable_le (s : List Char) (i : Nat) : lastTable s i ≤ i := by
  induction i with
  | zero => exact Nat.le_refl 0
  | succ i ih =>
    rw [lastTable_succ]
    split <;> omega

theorem rowsBetween_succ {s : List Char} {p i : Nat} (h : p ≤ i) : rowsBetween s p (i + 1) =
    rowsBetween s p i + if "<tr>".toList <+: s.drop i then 1 else 0 := by
  simp only [rowsBetween, List.range_succ, List.countP_append, List.countP_singleton, h,
    decide_true, Bool.true_and, ← List.isPrefixOf_iff_prefix]

theorem rowsBetween_self (s : List Char) (i : Nat) : rowsBetween s i i = 0 := by
  refine List.countP_eq_zero.2 fun j hj => ?_
  have := List.mem_range.1 hj
  simp [show ¬i ≤ j by omega]

/-- A row is the next one after those before it. -/
theorem rowNumber_eq {s : List Char} {i : Nat} (h : "<tr>".toList <+: s.drop i) :
    rowNumber s i = rowsBetween s (lastTable s i) i + 1 := by
  rw [rowNumber, rowsBetween_succ (lastTable_le s i), if_pos h]

/-! ## The counter of a pass -/

theorem table_mem_fixedTags : (.tableOpen, "<table>") ∈ fixedTags := by decide

theorem row_mem_fixedTags : (.rowOpen, "<tr>") ∈ fixedTags := by decide

/-- Wherever a pass has come, it has counted the rows of the text since the last table. -/
theorem rows_run {f : Features} {s : List Char} {before after : List Segment}
    (h : segments f s = before ++ after) : (run f .initial before).2.rows =
      rowsBetween s (lastTable s (textOf before).length) (textOf before).length := by
  refine run_invariant (P := fun st i => st.rows = rowsBetween s (lastTable s i) i) rfl ?_ ?_ h
  · intro st i hn hst
    have htable := not_prefix_of_no_tag table_mem_fixedTags hn
    have hrow := not_prefix_of_no_tag row_mem_fixedTags hn
    rw [lastTable_succ, if_neg htable, rowsBetween_succ (lastTable_le s i), if_neg hrow, hst,
      Nat.add_zero]
  · intro st i t ht hst
    have htable : t.kind = .tableOpen ↔ "<table>".toList <+: s.drop i :=
      kind_eq_iff_of_tagAt? table_mem_fixedTags (by decide) ht
    have hrow : t.kind = .rowOpen ↔ "<tr>".toList <+: s.drop i :=
      kind_eq_iff_of_tagAt? row_mem_fixedTags (by decide) ht
    rw [rows_next, lastTable_succ]
    simp only [← htable]
    split
    · rename_i hk
      rw [rowsBetween_succ (Nat.le_refl i), rowsBetween_self, if_neg]
      rw [← hrow, hk]
      decide
    · rw [rowsBetween_succ (lastTable_le s i), hst]
      simp only [← hrow]

/-! ## The class of a row -/

/-- The class of the `n`-th row, counted from one: the rows after the first alternate, beginning with
the odd class. -/
inductive Striped : Nat → String → Prop
  | first : Striped 1 "first-child"
  | even {n : Nat} (h : n % 2 = 0) (hn : 2 ≤ n) : Striped n "odd-child"
  | odd {n : Nat} (h : n % 2 = 1) (hn : 3 ≤ n) : Striped n "even-child"

theorem striped_rowClass {n : Nat} (hn : 0 < n) : Striped n (rowClass n) := by
  unfold rowClass
  split
  · subst n
    exact .first
  · split
    · exact .even (by omega) (by omega)
    · exact .odd (by omega) (by omega)

/-- A row as a pass emits it. -/
def rowMarkup (cls : String) : String := "<tr class=\"" ++ cls ++ "\">"

/-- What a pass emits for a row is decided by the number of the row. -/
theorem emitted_row {f : Features} {html : String} {t : Token} {out : List Char}
    (hk : t.kind = .rowOpen) (h : (t, out) ∈ emissions f html) :
    "<tr>".toList <+: html.toList.drop t.start ∧
      out = (rowMarkup (rowClass (rowNumber html.toList t.start))).toList := by
  have hrow : "<tr>".toList <+: html.toList.drop t.start :=
    (kind_eq_iff_of_tagAt? row_mem_fixedTags (by decide)
      (mem_scan_iff.1 (mem_scan_of_mem_emissions h))).1 hk
  refine ⟨hrow, ?_⟩
  obtain ⟨before, after, hl, hs, rfl⟩ := mem_emissions_iff.1 h
  rw [rowNumber_eq hrow, hs, ← rows_run hl, PassState.replace, hk]
  rfl

/-- Every row tag of a text, wherever it stands, is emitted with the class of its number, which no
feature bears on; and no other tag is taken for a row. -/
theorem rows_striped (html : String) :
    (∀ f, transform f html = wrapBody (String.ofList (weave html.toList 0 (emissions f html))) ∧
      (emissions f html).map Prod.fst = scan f html ∧
      ∀ t out, (t, out) ∈ emissions f html → t.kind = .rowOpen →
        "<tr>".toList <+: html.toList.drop t.start) ∧
    ∀ i, "<tr>".toList <+: html.toList.drop i → ∃ cls, Striped (rowNumber html.toList i) cls ∧
      ∀ f, (⟨⟨.rowOpen, "<tr>".toList⟩, i⟩, (rowMarkup cls).toList) ∈ emissions f html := by
  refine ⟨fun f => ⟨transform_eq_weave f html, map_fst_emissions f html, ?_⟩, ?_⟩
  · intro t out h hk
    exact (emitted_row hk h).1
  · intro i hi
    have hpos : 0 < rowNumber html.toList i := by
      rw [rowNumber_eq hi]
      omega
    refine ⟨_, striped_rowClass hpos, fun f => ?_⟩
    have hm : ⟨⟨.rowOpen, "<tr>".toList⟩, i⟩ ∈ scan f html :=
      mem_scan_iff.2 ((tagAt?_eq_fixedTag_iff row_mem_fixedTags f _).2 hi)
    obtain ⟨out, h⟩ := exists_mem_emissions hm
    obtain ⟨-, rfl⟩ := emitted_row rfl h
    exact h

/-- A row behind an item, in a table that was opened before a tag in capitals: the second one. -/
theorem rows_striped_item :
    "<tr>".toList <+: "<tr><table><tr><TABLE><Tr><li><tr>".toList.drop 30 ∧
      rowNumber "<tr><table><tr><TABLE><Tr><li><tr>".toList 30 = 2 ∧
      ∀ f, (⟨⟨.rowOpen, "<tr>".toList⟩, 30⟩, (rowMarkup "odd-child").toList) ∈
        emissions f "<tr><table><tr><TABLE><Tr><li><tr>" := by
  have hi : "<tr>".toList <+: "<tr><table><tr><TABLE><Tr><li><tr>".toList.drop 30 := by decide
  have hn : rowNumber "<tr><table><tr><TABLE><Tr><li><tr>".toList 30 = 2 := by decide +kernel
  obtain ⟨cls, hc, h⟩ := (rows_striped "<tr><table><tr><TABLE><Tr><li><tr>").2 30 hi
  rw [hn] at hc
  cases hc with
  | even => exact ⟨hi, hn, h⟩
  | odd ho => exact absurd ho (by decide)

end MarkdownPreview.Markup

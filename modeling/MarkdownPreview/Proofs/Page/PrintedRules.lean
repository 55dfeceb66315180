import MarkdownPreview.Page.Stylesheet
import MarkdownPreview.Text.Blank
import MarkdownPreview.Text.Pieces

/-!
# Reading a printed stylesheet

A stylesheet is printed to be read again: each closing brace ends a rule, whose selectors stand
before the opening brace and are parted by commas. What is read from a printed sheet are the
selectors of its rules, as long as no selector or declaration holds a character that the reader
goes by.

* `selectorLists_text`: the selectors that are read from a printed sheet.
* `styledByAll_iff`: a selector is read from both printed themes if one of them has a rule for it.
-/
namespace MarkdownPreview.Page

open Text (isBlank pieces pieces_append pieces_cons_of_ne pieces_ne_nil pieces_of_not_mem trim
  trim_append_blank trim_cons_blank)

/-! ## Reading -/

def selectorsOf (rule : List Char) : List String :=
  (pieces ',' (rule.takeWhile (· ≠ '\x7b'))).map fun s => String.ofList (trim s)

/-- The selectors of each rule of a stylesheet, from its text. -/
def selectorLists (sheet : List Char) : List (List String) :=
  (pieces '\x7d' sheet).dropLast.map selectorsOf

theorem map_trim_pieces_cons {c : Char} (hc : isBlank c = true) (hne : c ≠ ',') (s : List Char) :
    (pieces ',' (c :: s)).map trim = (pieces ',' s).map trim := by
  obtain ⟨p, ps, hp⟩ := List.exists_cons_of_ne_nil (pieces_ne_nil ',' s)
  rw [pieces_cons_of_ne hne hp, hp, List.map_cons, List.map_cons, trim_cons_blank hc]

/-- An empty line before a rule does not matter. -/
theorem selectorsOf_newline (rule : List Char) : selectorsOf ('\n' :: rule) = selectorsOf rule := by
  have hpieces := map_trim_pieces_cons (c := '\n') (by decide) (by decide)
    (rule.takeWhile (· ≠ '\x7b'))
  have hmap := congrArg (List.map String.ofList) hpieces
  rwa [List.map_map, List.map_map] at hmap

theorem selectorLists_newline (s : List Char) : selectorLists ('\n' :: s) = selectorLists s := by
  obtain ⟨p, ps, hp⟩ := List.exists_cons_of_ne_nil (pieces_ne_nil '\x7d' s)
  rw [selectorLists, selectorLists, pieces_cons_of_ne (by decide) hp, hp]
  cases ps with
  | nil => rfl
  | cons q ps =>
    rw [List.dropLast_cons_of_ne_nil (List.cons_ne_nil q ps),
      List.dropLast_cons_of_ne_nil (List.cons_ne_nil q ps), List.map_cons, List.map_cons,
      selectorsOf_newline]

theorem selectorLists_append {rule : List Char} (h : '\x7d' ∉ rule) (s : List Char) :
    selectorLists (rule ++ '\x7d' :: s) = selectorsOf rule :: selectorLists s := by
  rw [selectorLists, pieces_append h, List.dropLast_cons_of_ne_nil (pieces_ne_nil _ s),
    List.map_cons, selectorLists]

/-! ## Printing -/

/-- A character that the reader goes by. -/
def isSeparator (c : Char) : Bool :=
  isBlank c || c = ',' || c = '\x7b' || c = '\x7d'

theorem not_isSeparator {c : Char} (h : isSeparator c = false) :
    isBlank c = false ∧ c ≠ ',' ∧ c ≠ '\x7b' ∧ c ≠ '\x7d' := by
  simpa [isSeparator, and_assoc] using h

/-- A rule that can be read back: its selectors hold no character that the reader goes by, and its
declarations do not end it. -/
def CssRule.Plain (r : CssRule) : Prop :=
  r.selectors ≠ [] ∧ (∀ s ∈ r.selectors, ∀ c ∈ s.toList, isSeparator c = false) ∧
    ∀ d ∈ r.declarations, '\x7d' ∉ d.1.toList ∧ '\x7d' ∉ d.2.toList

/-- The same as a test. -/
def CssRule.isPlain (r : CssRule) : Bool :=
  !r.selectors.isEmpty && (r.selectors.all fun s => s.toList.all fun c => !isSeparator c) &&
    r.declarations.all fun d => d.1.toList.all (· != '\x7d') && d.2.toList.all (· != '\x7d')

theorem plain_of_isPlain {r : CssRule} (h : r.isPlain = true) : r.Plain := by
  simp only [CssRule.isPlain, Bool.and_eq_true, Bool.not_eq_true', List.all_eq_true,
    List.isEmpty_eq_false_iff, bne_iff_ne] at h
  obtain ⟨⟨hnamed, hselectors⟩, hdeclarations⟩ := h
  refine ⟨hnamed, hselectors, fun d hd => ?_⟩
  obtain ⟨hname, hvalue⟩ := hdeclarations d hd
  exact ⟨fun hc => hname _ hc rfl, fun hc => hvalue _ hc rfl⟩

/-- What a rule is printed with between its braces. -/
def CssRule.block (r : CssRule) : String :=
  let declarations := r.declarations.map declarationText
  if r.oneLine then " " ++ " ".intercalate declarations ++ " "
  else "\n" ++ String.join (declarations.map fun d => "    " ++ d ++ "\n")

theorem text_eq (r : CssRule) :
    r.text = ", ".intercalate r.selectors ++ " \x7b" ++ r.block ++ "\x7d" := rfl

theorem not_mem_intercalate {c : Char} {separator : String} (hc : c ∉ separator.toList)
    {l : List String} (h : ∀ s ∈ l, c ∉ s.toList) : c ∉ (separator.intercalate l).toList := by
  induction l with
  | nil => simp
  | cons s l ih =>
    obtain ⟨hs, hl⟩ := List.forall_mem_cons.1 h
    cases l with
    | nil => simpa using hs
    | cons t l =>
      rw [String.intercalate_cons_cons, String.toList_append, String.toList_append]
      simp only [List.mem_append, not_or]
      exact ⟨⟨hs, hc⟩, ih hl⟩

theorem not_mem_block {r : CssRule} (h : r.Plain) : '\x7d' ∉ r.block.toList := by
  have hdeclarations : ∀ t ∈ r.declarations.map declarationText, '\x7d' ∉ t.toList := by
    intro t ht
    obtain ⟨d, hd, rfl⟩ := List.mem_map.1 ht
    obtain ⟨hname, hvalue⟩ := h.2.2 d hd
    simp [declarationText, hname, hvalue]
  have hspace : '\x7d' ∉ " ".toList := by decide
  unfold CssRule.block
  extract_lets declarations
  split
  · simp only [String.toList_append, List.mem_append, not_or]
    exact ⟨⟨hspace, not_mem_intercalate hspace hdeclarations⟩, hspace⟩
  · rw [String.toList_append, String.toList_join, List.mem_append, not_or]
    refine ⟨by decide, fun hmem => ?_⟩
    obtain ⟨line, hline, hc⟩ := List.mem_flatMap.1 hmem
    obtain ⟨t, ht, rfl⟩ := List.mem_map.1 hline
    simp only [String.toList_append, List.mem_append] at hc
    rcases hc with (hc | hc) | hc
    · exact absurd hc (by decide)
    · exact hdeclarations t ht hc
    · exact absurd hc (by decide)

theorem trim_of_no_blank {s : List Char} (h : ∀ c ∈ s, isBlank c = false) : trim s = s := by
  have hstart : ∀ t : List Char, (∀ c ∈ t, isBlank c = false) → t.dropWhile isBlank = t := by
    intro t ht
    cases t with
    | nil => rfl
    | cons c t => rw [List.dropWhile_cons_of_neg (by simp [ht c])]
  have hreverse : ∀ c ∈ s.reverse, isBlank c = false := fun c hc => h c (List.mem_reverse.1 hc)
  rw [trim, Text.trimEnd, Text.trimStart, hstart s h, hstart _ hreverse, List.reverse_reverse]

/-- The selectors of a rule are read back, with the blank behind them. -/
theorem map_trim_pieces_selectors {l : List String} (hl : l ≠ [])
    (h : ∀ s ∈ l, ∀ c ∈ s.toList, isSeparator c = false) :
    (pieces ',' ((", ".intercalate l).toList ++ [' '])).map trim = l.map String.toList := by
  induction l with
  | nil => exact absurd rfl hl
  | cons s l ih =>
    obtain ⟨hs, hrest⟩ := List.forall_mem_cons.1 h
    have hcomma : ',' ∉ s.toList := fun hc => (not_isSeparator (hs ',' hc)).2.1 rfl
    have htrim := trim_of_no_blank fun c hc => (not_isSeparator (hs c hc)).1
    cases l with
    | nil =>
      have hpiece : ',' ∉ s.toList ++ [' '] := by simpa using hcomma
      rw [String.intercalate_singleton, pieces_of_not_mem hpiece, List.map_singleton,
        trim_append_blank (by decide), htrim]
      rfl
    | cons t l =>
      -- the blank behind the comma is read as the start of the next piece
      have hcut : (", ".intercalate (s :: t :: l)).toList ++ [' '] =
          s.toList ++ ',' :: ' ' :: ((", ".intercalate (t :: l)).toList ++ [' ']) := by
        rw [String.intercalate_cons_cons, String.toList_append, String.toList_append,
          List.append_assoc, List.append_assoc]
        rfl
      rw [hcut, pieces_append hcomma, List.map_cons, htrim,
        map_trim_pieces_cons (by decide) (by decide), ih (List.cons_ne_nil t l) hrest]
      rfl

/-- The text of a rule up to its closing brace. -/
def CssRule.stem (r : CssRule) : List Char :=
  (", ".intercalate r.selectors).toList ++ [' '] ++ '\x7b' :: r.block.toList

theorem toList_text_rule (r : CssRule) : r.text.toList = r.stem ++ ['\x7d'] := by
  simp only [text_eq, String.toList_append, CssRule.stem, List.append_assoc]
  rfl

theorem not_mem_selectors {r : CssRule} (h : r.Plain) {c : Char} (hc : c = '\x7b' ∨ c = '\x7d') :
    c ∉ (", ".intercalate r.selectors).toList ++ [' '] := by
  have hselectors : ∀ s ∈ r.selectors, c ∉ s.toList := by
    intro s hs hmem
    obtain ⟨-, -, hopen, hclose⟩ := not_isSeparator (h.2.1 s hs c hmem)
    exact hc.elim hopen hclose
  have hcomma : c ∉ ", ".toList := by
    rcases hc with rfl | rfl <;> decide
  have hspace : c ∉ [' '] := by
    rcases hc with rfl | rfl <;> decide
  simp only [List.mem_append, not_or]
  exact ⟨not_mem_intercalate hcomma hselectors, hspace⟩

theorem not_mem_stem {r : CssRule} (h : r.Plain) : '\x7d' ∉ r.stem := by
  rw [CssRule.stem, List.mem_append, List.mem_cons, not_or, not_or]
  exact ⟨not_mem_selectors h (.inr rfl), by decide, not_mem_block h⟩

/-- The selectors of a rule are read back. -/
theorem selectorsOf_stem {r : CssRule} (h : r.Plain) : selectorsOf r.stem = r.selectors := by
  have hopen : ∀ c ∈ (", ".intercalate r.selectors).toList ++ [' '],
      (decide (c ≠ '\x7b')) = true := by
    intro c hc
    exact decide_eq_true fun he => not_mem_selectors h (.inl he) hc
  have hread := map_trim_pieces_selectors h.1 h.2.1
  rw [selectorsOf, CssRule.stem, List.takeWhile_append_of_pos hopen,
    List.takeWhile_cons_of_neg (by decide), List.append_nil]
  have hstrings := congrArg (List.map String.ofList) hread
  rw [List.map_map, List.map_map] at hstrings
  refine hstrings.trans ?_
  simp

/-! ## Sheets -/

/-- A stylesheet whose rules can be read back. -/
def Css.Plain (css : Css) : Prop :=
  ∀ g ∈ css, ∀ r ∈ g, r.Plain

/-- The rules of a group in print. -/
def groupText (g : List CssRule) : String :=
  String.join (g.map fun r => r.text ++ "\n")

theorem selectorLists_group {g : List CssRule} (h : ∀ r ∈ g, r.Plain) (s : List Char) :
    selectorLists ((groupText g).toList ++ s) =
      g.map (·.selectors) ++ selectorLists s := by
  induction g with
  | nil => rfl
  | cons r g ih =>
    obtain ⟨hr, hg⟩ := List.forall_mem_cons.1 h
    have hcut : (groupText (r :: g)).toList ++ s =
        r.stem ++ '\x7d' :: '\n' :: ((groupText g).toList ++ s) := by
      simp only [groupText, List.map_cons, String.join_cons, String.toList_append,
        toList_text_rule, List.append_assoc]
      rfl
    rw [hcut, selectorLists_append (not_mem_stem hr), selectorsOf_stem hr, selectorLists_newline,
      ih hg]
    rfl

/-- The selectors of a stylesheet are read back from its print. -/
theorem selectorLists_text {css : Css} (h : css.Plain) :
    selectorLists css.text.toList = css.flatten.map (·.selectors) := by
  have htext : css.text = "\n".intercalate (css.map groupText) := rfl
  rw [htext]
  clear htext
  induction css with
  | nil => rfl
  | cons g css ih =>
    obtain ⟨hg, hcss⟩ := List.forall_mem_cons.1 h
    have hgroup := selectorLists_group hg
    cases css with
    | nil =>
      -- what is left behind the last brace is a line feed, and no rule
      have hlast := hgroup []
      rw [List.append_nil] at hlast
      rw [List.map_singleton, String.intercalate_singleton, hlast, List.flatten_singleton]
      exact List.append_nil _
    | cons g' css =>
      have hcut : ("\n".intercalate ((g :: g' :: css).map groupText)).toList =
          (groupText g).toList ++
            '\n' :: ("\n".intercalate ((g' :: css).map groupText)).toList := by
        simp only [List.map_cons, String.intercalate_cons_cons, String.toList_append,
          List.append_assoc]
        rfl
      rw [hcut, hgroup, selectorLists_newline, ih hcss, ← List.map_append, ← List.flatten_cons]

/-! ## The themes -/

def palettes : List Palette :=
  [lightPalette, darkPalette]

theorem isPlain_bundled :
    (palettes.all fun p => (bundled p).all fun g => g.all CssRule.isPlain) = true := by
  decide +kernel

theorem plain_bundled {p : Palette} (hp : p ∈ palettes) : (bundled p).Plain := by
  intro g hg r hr
  have hall := List.all_eq_true.1 (List.all_eq_true.1 isPlain_bundled p hp) g hg
  exact plain_of_isPlain (List.all_eq_true.1 hall r hr)

/-- Each printed theme has a rule for the selector. -/
def StyledByAll (selector : String) : Prop :=
  ∀ p ∈ palettes, ∃ l ∈ selectorLists (bundled p).text.toList, selector ∈ l

/-- The themes have the same selectors, so it is enough to look at one of them. -/
theorem styledByAll_iff {selector : String} :
    StyledByAll selector ↔ (bundled lightPalette).selects selector = true := by
  have hread : ∀ p ∈ palettes, (∃ l ∈ selectorLists (bundled p).text.toList, selector ∈ l) ↔
      (bundled lightPalette).selects selector = true := by
    intro p hp
    rw [selectorLists_text (plain_bundled hp), bundled_selects lightPalette p, selects_iff]
    simp only [List.mem_map, List.mem_flatten]
    constructor
    · rintro ⟨_, ⟨r, ⟨g, hg, hr⟩, rfl⟩, hs⟩
      exact ⟨g, hg, r, hr, hs⟩
    · rintro ⟨g, hg, r, hr, hs⟩
      exact ⟨r.selectors, ⟨r, ⟨g, hg, hr⟩, rfl⟩, hs⟩
  exact ⟨fun h => (hread lightPalette (by simp [palettes])).1 (h _ (by simp [palettes])),
    fun h p hp => (hread p hp).2 h⟩

end MarkdownPreview.Page

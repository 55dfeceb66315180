import MarkdownPreview.Features
import MarkdownPreview.Markup.Kind
import MarkdownPreview.Text.Blank

/-!
# The tag vocabulary

Each recognised tag has a `Spelling`: a shape that finds it in a text whatever the case of its
letters, the exact texts that are taken for it, and the feature that needs it. `vocabulary` lists
the spellings in order of priority, so that a spelling which extends another one stands before it
(`<li><p>[x]` before `<li><p>` before `<li>`).

* `Piece.split?_append`, `split?_append`: what a shape takes and what it leaves make up the text.
* `Spelling.take?_append`: the same for a whole spelling.
* `Spelling.take?_eq_cons`: every tag that is found opens with an angle bracket.
* `closeGap_of_no_item`: closing the gap of an item changes nothing else.
-/
namespace MarkdownPreview.Markup

open Text (isAsciiBlank)

/-! ## Shapes -/

/-- The small form of an ASCII capital; every other character is itself. -/
def smallLetter (c : Char) : Char :=
  if 'A' ≤ c ∧ c ≤ 'Z' then Char.ofNat (c.toNat + 32) else c

/-- A part of a tag's shape. -/
inductive Piece where
  /-- These characters, with ASCII letters in either case. -/
  | word (cs : List Char)
  /-- As many ASCII blanks as there are, possibly none. -/
  | gap
  /-- One space, or nothing where there is none. -/
  | space
  deriving DecidableEq, Repr

/-- What a piece takes from the start of a text, and the rest. -/
def Piece.split? : Piece → List Char → Option (List Char × List Char)
  | .word w, s =>
    if (s.take w.length).map smallLetter = w then some (s.take w.length, s.drop w.length) else none
  | .gap, s => some (s.takeWhile isAsciiBlank, s.dropWhile isAsciiBlank)
  | .space, ' ' :: r => some ([' '], r)
  | .space, s => some ([], s)

/-- What a shape takes from the start of a text, and the rest. -/
def split? : List Piece → List Char → Option (List Char × List Char)
  | [], s => some ([], s)
  | p :: ps, s =>
    match p.split? s with
    | none => none
    | some (a, r) => (split? ps r).map fun (b, t) => (a ++ b, t)

theorem Piece.split?_word_eq_some {w s a r : List Char} :
    (Piece.word w).split? s = some (a, r) ↔
      (s.take w.length).map smallLetter = w ∧ a = s.take w.length ∧ r = s.drop w.length := by
  simp only [Piece.split?, Option.ite_none_right_eq_some, Option.some.injEq, Prod.mk.injEq]
  exact and_congr_right fun _ => and_congr eq_comm eq_comm

theorem split?_cons_eq_some {p : Piece} {ps : List Piece} {s a r : List Char} :
    split? (p :: ps) s = some (a, r) ↔
      ∃ b t c, p.split? s = some (b, t) ∧ split? ps t = some (c, r) ∧ a = b ++ c := by
  rw [split?]
  constructor
  · intro h
    split at h
    · cases h
    · rename_i b t hb
      obtain ⟨⟨c, u⟩, hc, he⟩ := Option.map_eq_some_iff.1 h
      cases he
      exact ⟨b, t, c, hb, hc, rfl⟩
  · rintro ⟨b, t, c, hb, hc, rfl⟩
    simp [hb, hc]

theorem Piece.split?_append {p : Piece} {s a r : List Char} (h : p.split? s = some (a, r)) :
    a ++ r = s := by
  cases p with
  | word w =>
    obtain ⟨-, rfl, rfl⟩ := Piece.split?_word_eq_some.1 h
    exact List.take_append_drop ..
  | gap => cases h; exact List.takeWhile_append_dropWhile
  | space =>
    cases s with
    | nil => cases h; rfl
    | cons c t =>
      by_cases hc : c = ' '
      · subst hc; cases h; rfl
      · simp [Piece.split?, hc] at h
        obtain ⟨rfl, rfl⟩ := h; rfl

theorem split?_append {ps : List Piece} {s a r : List Char} (h : split? ps s = some (a, r)) :
    a ++ r = s := by
  induction ps generalizing s a r with
  | nil => cases h; rfl
  | cons p ps ih =>
    obtain ⟨b, t, c, hb, hc, rfl⟩ := split?_cons_eq_some.1 h
    rw [List.append_assoc, ih hc, Piece.split?_append hb]

/-! ## Spellings -/

/-- How one kind of tag is recognised. -/
structure Spelling where
  kind : Kind
  /-- Finds the tag in whatever case it is written. -/
  shape : List Piece
  /-- The texts that are taken for the tag, with a closed gap. -/
  canonical : List String
  /-- The feature without which the tag is of no interest. -/
  need : Option Feature := none
  deriving Repr

/-- A tag that is written in one way only. -/
def Spelling.tag (k : Kind) (text : String) (need : Option Feature := none) : Spelling :=
  ⟨k, [.word text.toList], [text], need⟩

def itemTag : String := "<li>"

/-- The open tag of a list item that the converter marks as a task. -/
def taskItemTag : String := "<li class=\"task-list-item\">"

/-- A list item whose text starts a paragraph, before the given marker. -/
def Spelling.paragraphItem (k : Kind) (item marker : String) (need : Option Feature := none) :
    Spelling :=
  ⟨k, [.word item.toList, .gap, .word ("<p>" ++ marker).toList], [item ++ "<p>" ++ marker], need⟩

/-- The spellings in order of priority. -/
def vocabulary : List Spelling :=
  [.tag .tableOpen "<table>",
    .tag .theadOpen "<thead>",
    .tag .tbodyOpen "<tbody>",
    .tag .rowOpen "<tr>",
    { kind := .rule
      shape := [.word "<hr".toList, .space, .word "/>".toList]
      canonical := ["<hr/>", "<hr />"] },
    .tag .delOpen "<del>",
    .tag .delClose "</del>",
    .tag .paraClose "</p>",
    .paragraphItem .itemParaChecked itemTag "[x]" (some .taskLists),
    .paragraphItem .itemParaUnchecked itemTag "[ ]" (some .taskLists),
    .paragraphItem .itemPara itemTag "",
    .paragraphItem .taskItemPara taskItemTag "" (some .taskLists),
    .tag .taskItem taskItemTag (some .taskLists),
    .tag .itemChecked "<li>[x]" (some .taskLists),
    .tag .itemUnchecked "<li>[ ]" (some .taskLists),
    .tag .orderedOpen "<ol>" (some .iconBullets),
    .tag .orderedClose "</ol>" (some .iconBullets),
    .tag .unorderedOpen "<ul>" (some .iconBullets),
    .tag .unorderedClose "</ul>" (some .iconBullets),
    -- bullets need every item, not only those that start a paragraph
    .tag .itemOpen itemTag (some .iconBullets)]

/-- The spellings that matter under `f`, in order of priority. -/
def active (f : Features) : List Spelling :=
  vocabulary.filter fun sp => f.allow sp.need

/-- What a spelling takes from the start of a text. -/
def Spelling.take? (sp : Spelling) (s : List Char) : Option (List Char) :=
  (split? sp.shape s).map Prod.fst

theorem Spelling.take?_append {sp : Spelling} {s a : List Char} (h : sp.take? s = some a) :
    a ++ s.drop a.length = s := by
  obtain ⟨⟨b, r⟩, hb, rfl⟩ := Option.map_eq_some_iff.1 h
  have := split?_append hb
  rw [← this]; simp

/-! ## Every tag opens with an angle bracket -/

theorem smallLetter_eq_angle {c : Char} (h : smallLetter c = '<') : c = '<' := by
  unfold smallLetter at h
  split at h
  · rename_i hc
    have h1 : 65 ≤ c.toNat := hc.1
    have h2 : c.toNat ≤ 90 := hc.2
    exfalso
    have key : ∀ n, n ≤ 90 → 65 ≤ n → Char.ofNat (n + 32) ≠ '<' := by decide
    exact key _ h2 h1 h
  · exact h

/-- Whether the shape begins with a word that opens a tag. -/
def Spelling.opensTag (sp : Spelling) : Bool :=
  match sp.shape with
  | .word ('<' :: _) :: _ => true
  | _ => false

theorem opensTag_of_mem_vocabulary : ∀ sp ∈ vocabulary, sp.opensTag = true := by decide

theorem opensTag_of_mem_active {f : Features} {sp : Spelling} (h : sp ∈ active f) :
    sp.opensTag = true :=
  opensTag_of_mem_vocabulary sp (List.mem_filter.1 h).1

theorem Spelling.take?_eq_cons {sp : Spelling} {s a : List Char} (hsp : sp.opensTag = true)
    (h : sp.take? s = some a) : ∃ r, a = '<' :: r := by
  obtain ⟨⟨b, t⟩, hb, rfl⟩ := Option.map_eq_some_iff.1 h
  unfold Spelling.opensTag at hsp
  split at hsp
  · rename_i w ps hsh
    rw [hsh] at hb
    obtain ⟨b', t', c, hb', -, rfl⟩ := split?_cons_eq_some.1 hb
    obtain ⟨hm, rfl, -⟩ := Piece.split?_word_eq_some.1 hb'
    cases s with
    | nil => simp at hm
    | cons d s =>
      simp only [List.length_cons, List.take_succ_cons, List.map_cons, List.cons.injEq] at hm
      rw [smallLetter_eq_angle hm.1]
      exact ⟨_, rfl⟩
  · cases hsp

/-! ## The gap of an item -/

/-- The item tag that a text starts with, exactly as the converter writes it, and the rest. -/
def leadingItem? (s : List Char) : Option (List Char × List Char) :=
  [itemTag, taskItemTag].findSome? fun tag =>
    if tag.toList.isPrefixOf s then some (tag.toList, s.drop tag.toList.length) else none

/-- The text without the blanks between an item tag at its start and a paragraph tag right after
them. Only the converter's own small letters count. -/
def closeGap (s : List Char) : List Char :=
  match leadingItem? s with
  | none => s
  | some (tag, rest) =>
    let body := rest.dropWhile isAsciiBlank
    if "<p>".toList.isPrefixOf body then tag ++ body else s

theorem closeGap_of_no_item {s : List Char} (h : leadingItem? s = none) : closeGap s = s := by
  simp [closeGap, h]

/-- The gap of an item between two texts is closed whatever it holds. -/
theorem closeGap_item (w r : List Char) (hw : w.all isAsciiBlank = true) :
    closeGap (itemTag.toList ++ w ++ "<p>".toList ++ r) =
      itemTag.toList ++ "<p>".toList ++ r := by
  have hd : (w ++ '<' :: 'p' :: '>' :: r).dropWhile isAsciiBlank = '<' :: 'p' :: '>' :: r := by
    rw [List.dropWhile_append_of_pos (by simpa using hw)]
    simp [isAsciiBlank]
  simp [closeGap, leadingItem?, itemTag, hd]

end MarkdownPreview.Markup

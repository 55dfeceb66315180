import MarkdownPreview.Proofs.Markup.Scan

/-!
# Items

An item tag may be found alone, with a marker behind it, or with blanks, a paragraph tag and a
marker, and each of these in small letters or with a capital. `itemForm` says what stands behind an
item tag, and the tag at that place depends on nothing else.

* `mem_wordForms`: the ways to write a word in either case.
* `tagAt?_item`: what the vocabulary finds at an item tag.
* `settle_found`: what becomes of it; with a capital in its paragraph tag, or in a marker right
  behind its own tag, an item is of no kind.
* `tagAt?_itemForm`: both together.
* `text_settle_append`: what a tag leaves out of what was found is a marker with a capital.
-/
namespace MarkdownPreview.Markup

open Text (isAsciiBlank)

/-! ## Words in either case -/

/-- The characters whose small form is `c`. -/
def letterForms (c : Char) : List Char :=
  [c, Char.ofNat (c.toNat - 32)].filter (smallLetter · = c)

/-- The texts whose small form is `w`. -/
def wordForms : List Char → List (List Char)
  | [] => [[]]
  | c :: w => (letterForms c).flatMap fun d => (wordForms w).map (d :: ·)

theorem mem_letterForms {c d : Char} : d ∈ letterForms c ↔ smallLetter d = c := by
  simp only [letterForms, List.mem_filter, decide_eq_true_eq, and_iff_right_iff_imp]
  rintro rfl
  rcases smallLetter_cases d with hd | ⟨n, h2, h1, hd, hn⟩
  · simp [hd]
  · have key : ∀ n, n ≤ 90 → 65 ≤ n → (Char.ofNat (n + 32)).toNat - 32 = n := by decide
    rw [hn, key n h2 h1, ← hd]
    simp

theorem mem_wordForms {u w : List Char} : u ∈ wordForms w ↔ u.map smallLetter = w := by
  induction w generalizing u with
  | nil => simp [wordForms]
  | cons c w ih =>
    simp only [wordForms, List.mem_flatMap, List.mem_map, mem_letterForms, ih, List.map_eq_cons_iff]
    grind

theorem split?_word_append (u v : List Char) (ps : List Piece) (s : List Char) :
    split? (.word (u ++ v) :: ps) s = split? (.word u :: .word v :: ps) s := by
  rw [← split?_letters, ← split?_letters (.word u :: _)]
  simp [letters]

/-- A word finds a text of its length in whatever case it is written. -/
theorem split?_word_of_length {w u : List Char} (hu : u.length = w.length) (ps : List Piece)
    (s : List Char) : split? (.word w :: ps) (u ++ s) =
      if u.map smallLetter = w then (split? ps s).map fun (a, r) => (u ++ a, r) else none := by
  rw [split?, Piece.split?, ← hu, List.take_left, List.drop_left]
  split <;> rename_i h <;> split at h <;> cases h
  · exact (if_neg ‹_›).symm
  · exact (if_pos ‹_›).symm

/-- A word in small letters finds itself. -/
theorem split?_word_self {w : List Char} (hw : w.map smallLetter = w) (ps : List Piece)
    (s : List Char) : split? (.word w :: ps) (w ++ s) =
      (split? ps s).map fun (a, r) => (w ++ a, r) := by
  rw [split?_word_of_length rfl, if_pos hw]

/-- A gap takes the blanks before a text that begins with none. -/
theorem split?_gap_of_solid {gap s : List Char} (hg : ∀ c ∈ gap, isAsciiBlank c = true)
    (hs : ∀ c ∈ s.head?, isAsciiBlank c = false) (ps : List Piece) :
    split? (.gap :: ps) (gap ++ s) = (split? ps s).map fun (a, r) => (gap ++ a, r) := by
  rw [split?, Piece.split?, List.takeWhile_append_of_pos hg, List.dropWhile_append_of_pos hg]
  cases s with
  | nil => simp
  | cons c s =>
    have hc := hs c rfl
    simp [hc]

/-! ## Markers and paragraph tags -/

/-- A task marker, written as the converter does or with a capital. -/
inductive Marker where
  | checked
  | unchecked
  | capital
  deriving DecidableEq, Repr

def Marker.text : Marker → String
  | .checked => "[x]"
  | .unchecked => "[ ]"
  | .capital => "[X]"

/-- Whether a marker holds a letter, in whatever case. -/
def Marker.isTicked (m : Marker) : Bool :=
  m != .unchecked

/-- The word of the vocabulary that finds a marker. -/
def Marker.word (m : Marker) : String :=
  if m.isTicked then "[x]" else "[ ]"

/-- The marker at the start of a text. -/
def markerAt? (s : List Char) : Option Marker :=
  [Marker.checked, .unchecked, .capital].find? fun m => m.text.toList.isPrefixOf s

theorem markerAt?_append (m : Marker) (s : List Char) :
    markerAt? (m.text.toList ++ s) = some m := by
  cases m <;> rfl

theorem markerAt?_eq_some_iff {s : List Char} {m : Marker} :
    markerAt? s = some m ↔ m.text.toList <+: s := by
  constructor
  · intro h
    have hp := List.find?_some h
    exact List.isPrefixOf_iff_prefix.1 hp
  · rintro ⟨r, rfl⟩
    exact markerAt?_append m r

theorem wordForms_marker : ∀ w ∈ ["[x]", "[ ]"], ∀ u ∈ wordForms w.toList,
    ∃ m ∈ [Marker.checked, .unchecked, .capital], m.word = w ∧ m.text.toList = u := by decide

theorem map_smallLetter_marker (m : Marker) :
    m.text.toList.map smallLetter = m.word.toList := by
  cases m <;> decide

/-- A marker is found by its word. -/
theorem split?_markerWord {w : String} (hw : w ∈ ["[x]", "[ ]"]) (s : List Char) :
    (split? [.word w.toList] s).map Prod.fst =
      ((markerAt? s).filter fun m => m.word = w).map fun m => m.text.toList := by
  have hl : w.toList.length = 3 := by
    simp only [List.mem_cons, List.not_mem_nil, or_false] at hw
    rcases hw with rfl | rfl <;> rfl
  cases hm : markerAt? s with
  | some m =>
    obtain ⟨r, rfl⟩ := markerAt?_eq_some_iff.1 hm
    have hu : m.text.toList.length = w.toList.length := by
      rw [hl]; cases m <;> rfl
    rw [split?_word_of_length hu, map_smallLetter_marker]
    by_cases h : m.word = w <;> simp [h, split?, String.toList_inj, Option.filter_some]
  | none =>
    cases ht : split? [.word w.toList] s with
    | none => rfl
    | some p =>
      obtain ⟨b, t, c, hb, hc, he⟩ := split?_cons_eq_some.1 ht
      obtain ⟨hu, rfl, rfl⟩ := Piece.split?_word_eq_some.1 hb
      obtain ⟨m, -, -, hmu⟩ := wordForms_marker w hw _ (mem_wordForms.2 hu)
      have hp := markerAt?_eq_some_iff.2 (hmu ▸ List.take_prefix ..)
      rw [hm] at hp
      cases hp

/-- The paragraph tag in its two cases. -/
def paragraphTag (capital : Bool) : String :=
  if capital then "<P>" else "<p>"

/-- No paragraph tag stands behind the blanks at the start of the text. -/
def NoParagraph (rest : List Char) : Prop :=
  ∀ gap p s, (∀ c ∈ gap, isAsciiBlank c = true) → rest ≠ gap ++ ((paragraphTag p).toList ++ s)

theorem paragraph_or_noParagraph (rest : List Char) :
    (∃ gap p s, (∀ c ∈ gap, isAsciiBlank c = true) ∧
      rest = gap ++ ((paragraphTag p).toList ++ s)) ∨ NoParagraph rest := by
  by_cases hr : ∃ gap p s, (∀ c ∈ gap, isAsciiBlank c = true) ∧
      rest = gap ++ ((paragraphTag p).toList ++ s)
  · exact .inl hr
  · exact .inr fun gap p s hg he => hr ⟨gap, p, s, hg, he⟩

/-! ## The form of an item -/

/-- What stands behind an item tag, as far as it can belong to the item's tag. -/
inductive ItemForm where
  /-- Neither a marker nor a paragraph. -/
  | plain
  /-- A marker. -/
  | marked (m : Marker)
  /-- Blanks and a paragraph tag, which may be written with a capital, and a marker behind it. -/
  | paragraph (gap : List Char) (capital : Bool) (m : Option Marker)
  deriving DecidableEq, Repr

/-- The marker at the start of a text, if tasks are looked for. -/
def taskMarker? (f : Features) (s : List Char) : Option Marker :=
  if f.taskLists then markerAt? s else none

/-- The form of an item with the text `rest` behind its tag. -/
def itemForm (f : Features) (rest : List Char) : ItemForm :=
  let gap := rest.takeWhile isAsciiBlank
  let body := rest.dropWhile isAsciiBlank
  if "<p>".toList.isPrefixOf body then .paragraph gap false (taskMarker? f (body.drop 3))
  else if "<P>".toList.isPrefixOf body then .paragraph gap true (taskMarker? f (body.drop 3))
  else ((taskMarker? f rest).map .marked).getD .plain

/-- The kind of the spelling that finds an item of this form. -/
def ItemForm.finder : ItemForm → Kind
  | .plain => .itemOpen
  | .marked m => if m.isTicked then .itemChecked else .itemUnchecked
  | .paragraph _ _ none => .itemPara
  | .paragraph _ _ (some m) => if m.isTicked then .itemParaChecked else .itemParaUnchecked

/-- The text that is found of an item of this form. -/
def ItemForm.found : ItemForm → List Char
  | .plain => itemTag.toList
  | .marked m => itemTag.toList ++ m.text.toList
  | .paragraph gap capital m =>
    itemTag.toList ++ gap ++ (paragraphTag capital).toList ++ ((m.map Marker.text).getD "").toList

/-! ## The spellings of items -/

/-- The spellings of an item with a marker behind a paragraph tag. -/
def paragraphTasks : List Spelling :=
  [.paragraphItem .itemParaChecked itemTag "[x]" (some .taskLists),
    .paragraphItem .itemParaUnchecked itemTag "[ ]" (some .taskLists)]

/-- The spellings of an item with a marker right behind its tag. -/
def markedItems : List Spelling :=
  [.tag .itemChecked (itemTag ++ "[x]") (some .taskLists),
    .tag .itemUnchecked (itemTag ++ "[ ]") (some .taskLists)]

/-- The spellings that may find something where a plain item tag begins. -/
def itemSpellings (f : Features) : List Spelling :=
  (if f.taskLists then paragraphTasks else []) ++ .paragraphItem .itemPara itemTag "" ::
    ((if f.taskLists then markedItems else []) ++
      if f.iconBullets then [.tag .itemOpen itemTag (some .iconBullets)] else [])

/-- Whether spellings of this kind may find something where a plain item tag begins. -/
def Kind.opensPlainTag (k : Kind) : Bool :=
  k.isParagraphTask || k = .itemPara || k = .itemChecked || k = .itemUnchecked || k = .itemOpen

theorem clashes_itemTag : ∀ sp ∈ vocabulary,
    sp.clashes itemTag.toList = !sp.kind.opensPlainTag := by decide

theorem filter_opensPlainTag (f : Features) :
    (active f).filter (fun sp => sp.kind.opensPlainTag) = itemSpellings f := by
  obtain ⟨tasks, bullets⟩ := f
  cases tasks <;> cases bullets <;> rfl

theorem tagAt?_itemTag (f : Features) (rest : List Char) :
    tagAt? (active f) (itemTag.toList ++ rest) =
      tagAt? (itemSpellings f) (itemTag.toList ++ rest) := by
  rw [← tagAt?_filter_clashes (List.prefix_append itemTag.toList rest), ← filter_opensPlainTag]
  congr 1
  refine List.filter_congr fun sp hsp => ?_
  rw [clashes_itemTag sp (mem_vocabulary_of_mem_active hsp), Bool.not_not]

theorem tagAt?_append_spellings (sps sps' : List Spelling) (s : List Char) :
    tagAt? (sps ++ sps') s = (tagAt? sps s).or (tagAt? sps' s) :=
  List.findSome?_append

theorem tagAt?_cons_spellings (sp : Spelling) (sps : List Spelling) (s : List Char) :
    tagAt? (sp :: sps) s = ((sp.take? s).map (settle sp.kind)).or (tagAt? sps s) := by
  rw [tagAt?, List.findSome?_cons]
  cases sp.take? s <;> rfl

/-- Of two spellings that end in a marker, the marker in the text decides. -/
theorem tagAt?_markers {sp sp' : Spelling} {t s head : List Char}
    (h : sp.take? t = ((split? [.word "[x]".toList] s).map Prod.fst).map (head ++ ·))
    (h' : sp'.take? t = ((split? [.word "[ ]".toList] s).map Prod.fst).map (head ++ ·)) :
    tagAt? [sp, sp'] t = (markerAt? s).map fun m =>
      settle (if m.isTicked then sp.kind else sp'.kind) (head ++ m.text.toList) := by
  rw [split?_markerWord (by simp)] at h h'
  simp only [tagAt?_cons_spellings, h, h']
  cases markerAt? s with
  | none => rfl
  | some m => cases m <;> rfl

theorem shape_paragraphItem (k : Kind) (item marker : String) (need : Option Feature) :
    (Spelling.paragraphItem k item marker need).shape =
      [.word item.toList, .gap, .word ("<p>".toList ++ marker.toList)] := by
  rw [← String.toList_append]
  rfl

theorem map_smallLetter_itemTag : itemTag.toList.map smallLetter = itemTag.toList := by decide

/-- A paragraph item is found if its marker is, whatever the gap and the case of the paragraph. -/
theorem take?_paragraphItem {gap : List Char} (hg : ∀ c ∈ gap, isAsciiBlank c = true) (p : Bool)
    (s : List Char) (k : Kind) (marker : String) (need : Option Feature) :
    (Spelling.paragraphItem k itemTag marker need).take?
        (itemTag.toList ++ (gap ++ ((paragraphTag p).toList ++ s))) =
      ((split? [.word marker.toList] s).map Prod.fst).map
        (itemTag.toList ++ gap ++ (paragraphTag p).toList ++ ·) := by
  have hl : (paragraphTag p).toList.length = "<p>".toList.length := by cases p <;> decide
  have hp : (paragraphTag p).toList.map smallLetter = "<p>".toList := by cases p <;> decide
  have hs : ∀ c ∈ ((paragraphTag p).toList ++ s).head?, isAsciiBlank c = false := by
    cases p <;> simp [paragraphTag, isAsciiBlank]
  rw [Spelling.take?, shape_paragraphItem, split?_word_self map_smallLetter_itemTag,
    split?_gap_of_solid hg hs, split?_word_append, split?_word_of_length hl, if_pos hp]
  simp only [Option.map_map, Function.comp_def, List.append_assoc]

theorem wordForms_paragraph : ∀ u ∈ wordForms "<p>".toList,
    ∃ p ∈ [false, true], u = (paragraphTag p).toList := by decide

/-- Without a paragraph tag behind the blanks, no paragraph item is found. -/
theorem take?_paragraphItem_eq_none {rest : List Char} (hr : NoParagraph rest) (k : Kind)
    (marker : String) (need : Option Feature) :
    (Spelling.paragraphItem k itemTag marker need).take? (itemTag.toList ++ rest) = none := by
  rw [Spelling.take?, shape_paragraphItem, split?_word_self map_smallLetter_itemTag]
  cases ht : split? [.gap, .word ("<p>".toList ++ marker.toList)] rest with
  | none => rfl
  | some found =>
    obtain ⟨gap, body, c, hg, hb, -⟩ := split?_cons_eq_some.1 ht
    rw [split?_word_append] at hb
    obtain ⟨tag, s, c', hw, -, -⟩ := split?_cons_eq_some.1 hb
    obtain ⟨hu, ht, hs⟩ := Piece.split?_word_eq_some.1 hw
    obtain ⟨p, -, hp⟩ := wordForms_paragraph _ (mem_wordForms.2 hu)
    refine absurd ?_ (hr gap p s (Piece.describes_of_split? hg))
    rw [← hp, ← ht, Piece.split?_append hw, Piece.split?_append hg]

theorem take?_markedItem (k : Kind) (w : String) (need : Option Feature) (rest : List Char) :
    (Spelling.tag k (itemTag ++ w) need).take? (itemTag.toList ++ rest) =
      ((split? [.word w.toList] rest).map Prod.fst).map (itemTag.toList ++ ·) := by
  rw [Spelling.take?, Spelling.tag, String.toList_append, split?_word_append,
    split?_word_self map_smallLetter_itemTag]
  simp only [Option.map_map, Function.comp_def]

theorem itemForm_of_paragraph (f : Features) {gap : List Char}
    (hg : ∀ c ∈ gap, isAsciiBlank c = true) (p : Bool) (s : List Char) :
    itemForm f (gap ++ ((paragraphTag p).toList ++ s)) = .paragraph gap p (taskMarker? f s) := by
  have ht : ∀ c, isAsciiBlank c = false → ∀ r, (gap ++ c :: r).takeWhile isAsciiBlank = gap := by
    intro c hc r
    rw [List.takeWhile_append_of_pos hg]
    simp [hc]
  have hd : ∀ c, isAsciiBlank c = false →
      ∀ r, (gap ++ c :: r).dropWhile isAsciiBlank = c :: r := by
    intro c hc r
    rw [List.dropWhile_append_of_pos hg]
    simp [hc]
  cases p
  · rw [itemForm, show (paragraphTag false).toList ++ s = '<' :: 'p' :: '>' :: s from rfl,
      ht '<' rfl, hd '<' rfl]
    rfl
  · rw [itemForm, show (paragraphTag true).toList ++ s = '<' :: 'P' :: '>' :: s from rfl,
      ht '<' rfl, hd '<' rfl]
    rfl

theorem itemForm_of_no_paragraph (f : Features) {rest : List Char} (hr : NoParagraph rest) :
    itemForm f rest = ((taskMarker? f rest).map .marked).getD .plain := by
  have key : ∀ p, ¬(paragraphTag p).toList.isPrefixOf (rest.dropWhile isAsciiBlank) = true := by
    intro p hp
    obtain ⟨s, hs⟩ := List.isPrefixOf_iff_prefix.1 hp
    refine hr (rest.takeWhile isAsciiBlank) p s (List.all_eq_true.1 List.all_takeWhile) ?_
    rw [hs, List.takeWhile_append_dropWhile]
  rw [itemForm]
  exact (if_neg (key false)).trans (if_neg (key true))

theorem tagAt?_paragraphTasks (f : Features) {gap : List Char}
    (hg : ∀ c ∈ gap, isAsciiBlank c = true) (p : Bool) (s : List Char) :
    tagAt? (if f.taskLists then paragraphTasks else [])
        (itemTag.toList ++ (gap ++ ((paragraphTag p).toList ++ s))) =
      (taskMarker? f s).map fun m =>
        settle (if m.isTicked then .itemParaChecked else .itemParaUnchecked)
          (itemTag.toList ++ gap ++ (paragraphTag p).toList ++ m.text.toList) := by
  unfold taskMarker?
  split
  · exact tagAt?_markers (take?_paragraphItem hg p s ..) (take?_paragraphItem hg p s ..)
  · rfl

theorem tagAt?_markedItems (f : Features) (rest : List Char) :
    tagAt? (if f.taskLists then markedItems else []) (itemTag.toList ++ rest) =
      (taskMarker? f rest).map fun m =>
        settle (if m.isTicked then .itemChecked else .itemUnchecked)
          (itemTag.toList ++ m.text.toList) := by
  unfold taskMarker?
  split
  · exact tagAt?_markers (take?_markedItem ..) (take?_markedItem ..)
  · rfl

theorem tagAt?_plainItem (f : Features) (rest : List Char) :
    tagAt? (if f.iconBullets then [.tag .itemOpen itemTag (some .iconBullets)] else [])
        (itemTag.toList ++ rest) =
      if f.iconBullets then some (settle .itemOpen itemTag.toList) else none := by
  have ht : (Spelling.tag .itemOpen itemTag (some .iconBullets)).take? (itemTag.toList ++ rest) =
      some itemTag.toList := by
    rw [Spelling.take?, Spelling.tag, split?_word_self map_smallLetter_itemTag]
    simp [split?]
  split
  · rw [tagAt?_cons_spellings, ht]
    rfl
  · rfl

/-- What the spellings of items find in a text that begins with a plain item tag. -/
theorem tagAt?_item (f : Features) (rest : List Char) :
    tagAt? (active f) (itemTag.toList ++ rest) =
      if f.iconBullets = true ∨ itemForm f rest ≠ .plain then
        some (settle (itemForm f rest).finder (itemForm f rest).found)
      else none := by
  rw [tagAt?_itemTag, itemSpellings, tagAt?_append_spellings, tagAt?_cons_spellings,
    tagAt?_append_spellings, tagAt?_markedItems, tagAt?_plainItem]
  rcases paragraph_or_noParagraph rest with ⟨gap, p, s, hg, rfl⟩ | hr
  · have hn : (split? [.word "".toList] s).map Prod.fst = some [] := rfl
    rw [tagAt?_paragraphTasks f hg, itemForm_of_paragraph f hg, take?_paragraphItem hg, hn]
    cases taskMarker? f s <;> simp [ItemForm.finder, ItemForm.found, Spelling.paragraphItem]
  · have hn : tagAt? (if f.taskLists then paragraphTasks else []) (itemTag.toList ++ rest) =
        none := by
      split
      · simp only [paragraphTasks, tagAt?_cons_spellings, take?_paragraphItem_eq_none hr]
        rfl
      · rfl
    rw [itemForm_of_no_paragraph f hr, take?_paragraphItem_eq_none hr, hn]
    cases taskMarker? f rest <;> simp [ItemForm.finder, ItemForm.found]

/-! ## What becomes of an item -/

/-- Whether an item of this form is written with a capital where its own text would go on. -/
def ItemForm.isLoose : ItemForm → Bool
  | .marked .capital | .paragraph _ true _ => true
  | _ => false

/-- What an item of this form is taken for. -/
def ItemForm.tag (form : ItemForm) : Tag :=
  match form with
  | .paragraph gap false (some .capital) =>
    ⟨.itemPara, itemTag.toList ++ gap ++ (paragraphTag false).toList⟩
  | _ => ⟨if form.isLoose then .other else form.finder, form.found⟩

theorem small_of_mem_canonical : ∀ sp ∈ vocabulary, ∀ text ∈ sp.canonical,
    text.toList.all (fun c => smallLetter c = c) = true := by decide

/-- An exact text holds no capital. -/
theorem isExact_eq_false {k : Kind} {a : List Char} {c : Char} (hc : c ∈ closeGap a)
    (hs : smallLetter c ≠ c) : isExact k a = false := by
  rw [← Bool.not_eq_true, isExact_iff_exists]
  rintro ⟨sp, hsp, -, text, ht, hg⟩
  rw [closeGap_eq_iff.2 hg] at hc
  have hall := List.all_eq_true.1 (small_of_mem_canonical sp hsp text ht) c hc
  exact hs (of_decide_eq_true hall)

theorem closeGap_paragraph {gap : List Char} (hg : ∀ c ∈ gap, isAsciiBlank c = true)
    (r : List Char) : closeGap (itemTag.toList ++ gap ++ (paragraphTag false).toList ++ r) =
      itemTag.toList ++ "<p>".toList ++ r :=
  closeGap_item gap r (List.all_eq_true.2 hg)

theorem closeGap_capital {gap : List Char} (hg : ∀ c ∈ gap, isAsciiBlank c = true)
    (r : List Char) : closeGap (itemTag.toList ++ gap ++ (paragraphTag true).toList ++ r) =
      itemTag.toList ++ gap ++ (paragraphTag true).toList ++ r := by
  have hd : (gap ++ (paragraphTag true).toList ++ r).dropWhile isAsciiBlank =
      (paragraphTag true).toList ++ r := by
    rw [List.append_assoc, List.dropWhile_append_of_pos hg]
    rfl
  rw [List.append_assoc, List.append_assoc, ← List.append_assoc gap, closeGap,
    leadingItem?_append (by simp)]
  simp only [hd]
  rfl

/-- An item whose paragraph tag has a capital is of no kind. -/
theorem settle_capital {k : Kind} {gap r : List Char} (hg : ∀ c ∈ gap, isAsciiBlank c = true)
    (hr : k.isParagraphTask = true → r.length = markerLength) :
    settle k (itemTag.toList ++ gap ++ (paragraphTag true).toList ++ r) =
      ⟨.other, itemTag.toList ++ gap ++ (paragraphTag true).toList ++ r⟩ := by
  have hx : ∀ k r, isExact k (itemTag.toList ++ gap ++ (paragraphTag true).toList ++ r) = false := by
    intro k r
    have hm : 'P' ∈ (paragraphTag true).toList := by decide
    refine isExact_eq_false (c := 'P') ?_ (by decide)
    rw [closeGap_capital hg]
    exact List.mem_append_left _ (List.mem_append_right _ hm)
  unfold settle
  extract_lets unmarked
  rw [if_neg (by rw [hx]; decide), if_neg]
  rw [Bool.and_eq_true]
  rintro ⟨hk, hu⟩
  have hcut : unmarked = itemTag.toList ++ gap ++ (paragraphTag true).toList ++ [] := by
    rw [List.append_nil]
    simp only [unmarked, ← hr hk, @List.length_append _ _ r, Nat.add_sub_cancel, List.take_left]
  rw [hcut, hx] at hu
  cases hu

/-- Whether a paragraph item is exact does not depend on its gap. -/
theorem isExact_paragraph {gap : List Char} (hg : ∀ c ∈ gap, isAsciiBlank c = true) (k : Kind)
    (r : String) : isExact k (itemTag.toList ++ gap ++ (paragraphTag false).toList ++ r.toList) =
      isExact k (itemTag ++ "<p>" ++ r).toList := by
  have hnil := @closeGap_paragraph [] (by simp) r.toList
  rw [List.append_nil] at hnil
  rw [isExact, closeGap_paragraph hg, isExact, String.toList_append, String.toList_append]
  exact congrArg (fun text => vocabulary.any fun sp =>
    sp.kind = k && sp.canonical.any (·.toList = text)) hnil.symm

/-- A paragraph task item that is not exact is cut back to an exact paragraph item. -/
theorem settle_cut {k : Kind} {a m : List Char} (hk : k.isParagraphTask = true)
    (hm : m.length = markerLength) (ha : isExact k (a ++ m) = false)
    (hp : isExact .itemPara a = true) : settle k (a ++ m) = ⟨.itemPara, a⟩ := by
  have hcut : (a ++ m).take ((a ++ m).length - markerLength) = a := by
    rw [List.length_append, hm, Nat.add_sub_cancel, List.take_left]
  simp only [settle, ha, hk, hcut, hp]
  rfl

/-- An item whose paragraph tag is exact keeps its kind, but for a marker with a capital. -/
theorem settle_paragraph {gap : List Char} (hg : ∀ c ∈ gap, isAsciiBlank c = true)
    (m : Option Marker) : settle (ItemForm.paragraph gap false m).finder
      (ItemForm.paragraph gap false m).found = (ItemForm.paragraph gap false m).tag := by
  have hx := isExact_paragraph hg
  have hp : isExact .itemPara (itemTag.toList ++ gap ++ (paragraphTag false).toList) = true := by
    have := hx .itemPara ""
    rw [show "".toList = [] from rfl, List.append_nil] at this
    rw [this]
    decide
  rcases m with _ | _ | _ | _
  · exact if_pos ((hx .itemPara "").trans (by decide))
  · exact if_pos ((hx .itemParaChecked "[x]").trans (by decide))
  · exact if_pos ((hx .itemParaUnchecked "[ ]").trans (by decide))
  · exact settle_cut rfl rfl ((hx .itemParaChecked "[X]").trans (by decide)) hp

/-- What becomes of what is found of an item. -/
theorem settle_found {form : ItemForm}
    (hg : ∀ gap p m, form = .paragraph gap p m → ∀ c ∈ gap, isAsciiBlank c = true) :
    settle form.finder form.found = form.tag := by
  cases form with
  | plain => decide
  | marked m => cases m <;> decide
  | paragraph gap p m =>
    have hb := hg gap p m rfl
    cases p with
    | false => exact settle_paragraph hb m
    | true =>
      refine settle_capital hb fun hk => ?_
      rcases m with _ | m
      · cases hk
      · cases m <;> rfl

/-- An item of a paragraph form stands before blanks, a paragraph tag and the marker. -/
theorem paragraph_of_itemForm {f : Features} {rest gap : List Char} {p : Bool} {m : Option Marker}
    (h : itemForm f rest = .paragraph gap p m) : (∀ c ∈ gap, isAsciiBlank c = true) ∧
      ∃ s, rest = gap ++ ((paragraphTag p).toList ++ s) ∧ m = taskMarker? f s := by
  rcases paragraph_or_noParagraph rest with ⟨gap', p', s, hg, rfl⟩ | hr
  · rw [itemForm_of_paragraph f hg] at h
    cases h
    exact ⟨hg, s, rfl, rfl⟩
  · rw [itemForm_of_no_paragraph f hr] at h
    cases hm : taskMarker? f rest <;> rw [hm] at h <;> cases h

/-- The tag at a plain item tag is decided by the form of the item. -/
theorem tagAt?_itemForm (f : Features) (rest : List Char) :
    tagAt? (active f) (itemTag.toList ++ rest) =
      if f.iconBullets = true ∨ itemForm f rest ≠ .plain then some (itemForm f rest).tag
      else none := by
  rw [tagAt?_item, settle_found fun _ _ _ h => (paragraph_of_itemForm h).1]

/-! ## What is cut off -/

theorem suffix_of_describes {ps : List Piece} {w a : List Char}
    (hw : ps.getLast? = some (.word w)) (h : Describes ps a) : w <:+ a.map smallLetter := by
  induction ps generalizing a with
  | nil => cases hw
  | cons p ps ih =>
    obtain ⟨b, c, rfl, hb, hc⟩ := h
    rw [List.map_append]
    cases ps with
    | nil =>
      cases hw
      cases hc
      rw [List.map_nil, List.append_nil]
      exact (show b.map smallLetter = w from hb) ▸ List.suffix_rfl
    | cons q ps =>
      rw [List.getLast?_cons_cons] at hw
      exact (ih hw hc).trans (List.suffix_append ..)

theorem paragraphTask_of_mem_vocabulary : ∀ sp ∈ vocabulary, sp.kind.isParagraphTask = true →
    ∃ w ∈ ["[x]", "[ ]"], sp.shape.getLast? = some (.word ("<p>" ++ w).toList) ∧
      ∀ m ∈ [Marker.checked, .unchecked, .capital], m.word = w →
        isExact sp.kind (itemTag ++ "<p>" ++ m.text).toList = false → m = .capital := by decide

/-- A paragraph task item that is not exact, though its item and its paragraph are, has a marker
with a capital. -/
theorem capital_of_describes {sp : Spelling} (hsp : sp ∈ vocabulary)
    (hk : sp.kind.isParagraphTask = true) {gap v : List Char}
    (hg : ∀ c ∈ gap, isAsciiBlank c = true) (hv : v.length = markerLength)
    (h : Describes sp.shape (itemTag.toList ++ gap ++ (paragraphTag false).toList ++ v))
    (hx : isExact sp.kind (itemTag.toList ++ gap ++ (paragraphTag false).toList ++ v) = false) :
    v = Marker.capital.text.toList := by
  obtain ⟨w, hw, hl, hm⟩ := paragraphTask_of_mem_vocabulary sp hsp hk
  have hlen : w.toList.length = (v.map smallLetter).length := by
    rw [List.length_map, hv]
    simp only [List.mem_cons, List.not_mem_nil, or_false] at hw
    rcases hw with rfl | rfl <;> rfl
  -- the marker's word and the small form of `v` end the same text
  have hword := suffix_of_describes hl h
  rw [String.toList_append] at hword
  have hend := List.suffix_of_suffix_length_le ((List.suffix_append ..).trans hword)
    ((List.suffix_append _ v).map smallLetter) (Nat.le_of_eq hlen)
  obtain ⟨m, hmem, hmw, rfl⟩ := wordForms_marker w hw v
    (mem_wordForms.2 (hend.eq_of_length hlen).symm)
  rw [hm m hmem hmw ((isExact_paragraph hg ..).symm.trans hx)]

/-- Of a text that was found, all but a marker with a capital belongs to its tag. -/
theorem text_settle_append {sp : Spelling} (hsp : sp ∈ vocabulary) {a : List Char}
    (h : Describes sp.shape a) :
    ∃ m, a = (settle sp.kind a).text ++ m ∧ (m = [] ∨ m = Marker.capital.text.toList) := by
  unfold settle
  extract_lets unmarked
  split
  · exact ⟨[], (List.append_nil a).symm, .inl rfl⟩
  · rename_i hx
    split
    · rename_i hc
      obtain ⟨hk, hp⟩ := Bool.and_eq_true_iff.1 hc
      obtain ⟨gap, hg, hu⟩ := isExact_itemPara_iff.1 hp
      have ha : a = unmarked ++ a.drop (a.length - markerLength) :=
        (List.take_append_drop ..).symm
      have hv : (a.drop (a.length - markerLength)).length = markerLength := by
        have hpos := congrArg List.length hu
        simp only [unmarked, List.length_take, List.length_append,
          show "<li>".toList.length = 4 from rfl, markerLength] at hpos
        rw [List.length_drop, markerLength]
        omega
      have hu' : unmarked = itemTag.toList ++ gap ++ (paragraphTag false).toList := hu
      refine ⟨_, ha, .inr (capital_of_describes hsp hk hg hv ?_ ?_)⟩
      · rwa [← hu', ← ha]
      · rwa [← hu', ← ha, ← Bool.not_eq_true]
    · exact ⟨[], (List.append_nil a).symm, .inl rfl⟩

end MarkdownPreview.Markup

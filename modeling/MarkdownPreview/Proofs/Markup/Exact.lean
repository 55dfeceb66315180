import MarkdownPreview.Markup.Token

/-!
# Exact texts

What a spelling finds is taken for its tag only if it is written as the converter writes it. Here
that rule is said without the functions that decide it: a text is exact if deleting the blanks
between an item tag at its start and a paragraph tag behind them leaves one of the texts listed for
the spelling.

* `closeGap_eq_iff`: closing the gap of a text deletes exactly those blanks.
* `isExact_iff`: the test for exactness asks for the spelling's own list.
* `isTagOf_settle`: what becomes of a text that a spelling found.
* `isExact_of_tagAt?`, `mem_exactTexts`: a tag that was given a kind has an exact text of that kind,
  and a kind without a gap has no others than those listed for it.
-/
namespace MarkdownPreview.Markup

open Text (isAsciiBlank)

/-! ## The gap of an item -/

/-- The text `a` is an item tag, blanks `w`, a paragraph tag and then `r`. -/
structure HasGap (a : List Char) (item : String) (w r : List Char) : Prop where
  mem : item ∈ [itemTag, taskItemTag]
  blank : ∀ c ∈ w, isAsciiBlank c = true
  eq : a = item.toList ++ w ++ "<p>".toList ++ r

/-- The text `b` is `a` without the blanks between an item tag at its start and a paragraph tag. -/
def GapClosed (a b : List Char) : Prop :=
  (∃ item w r, HasGap a item w r ∧ b = item.toList ++ "<p>".toList ++ r) ∨
    ((∀ item w r, ¬HasGap a item w r) ∧ b = a)

theorem leadingItem?_append {item : String} (h : item ∈ [itemTag, taskItemTag]) (r : List Char) :
    leadingItem? (item.toList ++ r) = some (item.toList, r) := by
  simp only [List.mem_cons, List.not_mem_nil, or_false] at h
  rcases h with rfl | rfl <;> rfl

theorem eq_append_of_leadingItem? {a tag r : List Char} (h : leadingItem? a = some (tag, r)) :
    ∃ item ∈ [itemTag, taskItemTag], tag = item.toList ∧ a = item.toList ++ r := by
  obtain ⟨item, hm, hi⟩ := List.exists_of_findSome?_eq_some h
  split at hi
  · rename_i hp
    cases hi
    obtain ⟨t, rfl⟩ := List.isPrefixOf_iff_prefix.1 hp
    exact ⟨item, hm, rfl, by rw [List.drop_left]⟩
  · cases hi

theorem closeGap_of_hasGap {a w r : List Char} {item : String} (h : HasGap a item w r) :
    closeGap a = item.toList ++ "<p>".toList ++ r := by
  obtain ⟨hm, hw, rfl⟩ := h
  have hd : (w ++ "<p>".toList ++ r).dropWhile isAsciiBlank = "<p>".toList ++ r := by
    rw [List.append_assoc, List.dropWhile_append_of_pos hw]
    rfl
  have hp : "<p>".toList.isPrefixOf ("<p>".toList ++ r) = true :=
    List.isPrefixOf_iff_prefix.2 (List.prefix_append ..)
  rw [closeGap, List.append_assoc, List.append_assoc, ← List.append_assoc w,
    leadingItem?_append hm]
  simp only [hd, hp, if_true]
  exact (List.append_assoc ..).symm

theorem closeGap_of_no_gap {a : List Char} (h : ∀ item w r, ¬HasGap a item w r) :
    closeGap a = a := by
  unfold closeGap
  split
  · rfl
  · rename_i tag rest hl
    obtain ⟨item, hm, rfl, rfl⟩ := eq_append_of_leadingItem? hl
    extract_lets body
    split
    · rename_i hp
      obtain ⟨r, hr⟩ := List.isPrefixOf_iff_prefix.1 hp
      refine absurd ⟨hm, ?_, ?_⟩ (h item (rest.takeWhile isAsciiBlank) r)
      · exact List.all_eq_true.1 List.all_takeWhile
      · rw [List.append_assoc, List.append_assoc, hr, List.takeWhile_append_dropWhile]
    · rfl

/-- Closing the gap deletes the blanks between the two tags, and nothing else. -/
theorem closeGap_eq_iff {a b : List Char} : closeGap a = b ↔ GapClosed a b := by
  constructor
  · rintro rfl
    by_cases h : ∃ item w r, HasGap a item w r
    · obtain ⟨item, w, r, hg⟩ := h
      exact .inl ⟨item, w, r, hg, closeGap_of_hasGap hg⟩
    · simp only [not_exists] at h
      exact .inr ⟨h, closeGap_of_no_gap h⟩
  · rintro (⟨item, w, r, hg, rfl⟩ | ⟨h, rfl⟩)
    · exact closeGap_of_hasGap hg
    · exact closeGap_of_no_gap h

/-! ## The exact texts of a spelling -/

/-- With its gap closed, the text is one of those listed for the spelling. -/
def Spelling.Exact (sp : Spelling) (a : List Char) : Prop :=
  ∃ text ∈ sp.canonical, GapClosed a text.toList

theorem canonical_eq_of_kind_eq : ∀ sp ∈ vocabulary, ∀ other ∈ vocabulary,
    other.kind = sp.kind → other.canonical = sp.canonical := by decide

theorem isExact_iff_exists {k : Kind} {a : List Char} :
    isExact k a = true ↔ ∃ sp ∈ vocabulary, sp.kind = k ∧ sp.Exact a := by
  simp only [isExact, List.any_eq_true, Bool.and_eq_true, decide_eq_true_eq, Spelling.Exact,
    ← closeGap_eq_iff, @eq_comm _ (closeGap a)]

theorem isExact_iff {sp : Spelling} (hsp : sp ∈ vocabulary) {a : List Char} :
    isExact sp.kind a = true ↔ sp.Exact a := by
  rw [isExact_iff_exists]
  constructor
  · rintro ⟨other, ho, hk, text, ht, hg⟩
    exact ⟨text, canonical_eq_of_kind_eq sp hsp other ho hk ▸ ht, hg⟩
  · exact fun h => ⟨sp, hsp, rfl, h⟩

/-! ## What becomes of a text that was found -/

/-- The text is a paragraph task item whose part before the marker is an exact paragraph item. -/
def IsMarkedParagraph (sp : Spelling) (a : List Char) : Prop :=
  (sp.kind = .itemParaChecked ∨ sp.kind = .itemParaUnchecked) ∧
    ∃ w m, (∀ c ∈ w, isAsciiBlank c = true) ∧ m.length = 3 ∧
      a = "<li>".toList ++ w ++ "<p>".toList ++ m

/-- The tag `t` is what becomes of the text `a` that `sp` found. -/
structure IsTagOf (sp : Spelling) (a : List Char) (t : Tag) : Prop where
  whole : (t.kind = sp.kind ∧ t.text = a) ↔ sp.Exact a
  cut : ¬sp.Exact a → IsMarkedParagraph sp a → t = ⟨.itemPara, a.take (a.length - 3)⟩
  other : ¬sp.Exact a → ¬IsMarkedParagraph sp a → t = ⟨.other, a⟩

theorem isExact_itemPara_iff {a : List Char} : isExact .itemPara a = true ↔
    ∃ w, (∀ c ∈ w, isAsciiBlank c = true) ∧ a = "<li>".toList ++ w ++ "<p>".toList := by
  have hm : Spelling.paragraphItem .itemPara itemTag "" ∈ vocabulary := by simp [vocabulary]
  rw [show Kind.itemPara = (Spelling.paragraphItem .itemPara itemTag "").kind from rfl,
    isExact_iff hm]
  constructor
  · rintro ⟨text, ht, hg⟩
    obtain rfl : text = "<li><p>" := by simpa [Spelling.paragraphItem, itemTag] using ht
    rcases hg with ⟨item, w, r, ⟨hi, hw, rfl⟩, he⟩ | ⟨hn, rfl⟩
    · simp only [List.mem_cons, List.not_mem_nil, or_false] at hi
      rcases hi with rfl | rfl
      · cases r with
        | nil => exact ⟨w, hw, by rw [List.append_nil]; rfl⟩
        | cons c r => simp [itemTag] at he
      · simp [taskItemTag] at he
    · exact absurd ⟨by decide, by simp, rfl⟩ (hn itemTag [] [])
  · rintro ⟨w, hw, rfl⟩
    refine ⟨"<li><p>", by decide, .inl ⟨itemTag, w, [], ⟨by decide, hw, ?_⟩, rfl⟩⟩
    rw [List.append_nil]
    rfl

theorem isMarkedParagraph_iff {sp : Spelling} {a : List Char} : IsMarkedParagraph sp a ↔
    (sp.kind.isParagraphTask && isExact .itemPara (a.take (a.length - markerLength))) = true := by
  rw [Bool.and_eq_true, isExact_itemPara_iff]
  refine and_congr (by simp [Kind.isParagraphTask]) ?_
  constructor
  · rintro ⟨w, m, hw, hm, rfl⟩
    refine ⟨w, hw, ?_⟩
    rw [List.length_append, hm, markerLength, Nat.add_sub_cancel, List.take_left]
  · rintro ⟨w, hw, he⟩
    refine ⟨w, a.drop (a.length - markerLength), hw, ?_, ?_⟩
    · have := congrArg List.length he
      simp only [List.length_take, List.length_append, String.length_toList] at this
      simp only [List.length_drop, markerLength] at this ⊢
      have : "<li>".length = 4 := rfl
      omega
    · rw [← he, List.take_append_drop]

theorem kind_ne_other_of_mem_vocabulary : ∀ sp ∈ vocabulary, sp.kind ≠ .other := by decide

/-- What becomes of a text that a spelling found. -/
theorem isTagOf_settle {sp : Spelling} (hsp : sp ∈ vocabulary) (a : List Char) :
    IsTagOf sp a (settle sp.kind a) := by
  unfold settle
  extract_lets unmarked
  have hx : isExact sp.kind a = true ↔ sp.Exact a := isExact_iff hsp
  have hm : IsMarkedParagraph sp a ↔ _ := isMarkedParagraph_iff
  split
  · rename_i he
    exact ⟨⟨fun _ => hx.1 he, fun _ => ⟨rfl, rfl⟩⟩, fun h => absurd (hx.1 he) h,
      fun h => absurd (hx.1 he) h⟩
  · rename_i he
    have hne : ¬sp.Exact a := fun h => he (hx.2 h)
    split
    · rename_i hc
      refine ⟨⟨fun h => ?_, fun h => absurd h hne⟩, fun _ _ => rfl, fun _ h => absurd (hm.2 hc) h⟩
      -- the tag cut short is not the whole text
      have hk : sp.kind.isParagraphTask = true := (Bool.and_eq_true _ _ ▸ hc).1
      have h1 : Kind.itemPara = sp.kind := h.1
      rw [← h1] at hk
      cases hk
    · rename_i hc
      refine ⟨⟨fun h => ?_, fun h => absurd h hne⟩, fun _ h => absurd (hm.1 h) hc, fun _ _ => rfl⟩
      exact absurd h.1.symm (kind_ne_other_of_mem_vocabulary sp hsp)

theorem isExact_settle {k : Kind} {a : List Char} (h : (settle k a).kind ≠ .other) :
    isExact (settle k a).kind (settle k a).text = true := by
  unfold settle at h ⊢
  extract_lets at h ⊢
  split
  · assumption
  · rename_i he
    rw [if_neg he] at h
    split
    · rename_i hc
      exact (Bool.and_eq_true _ _ ▸ hc).2
    · rename_i hc
      rw [if_neg hc] at h
      exact absurd rfl h

/-- A tag that was given a kind has an exact text of that kind. -/
theorem isExact_of_tagAt? {sps : List Spelling} {s : List Char} {t : Tag}
    (h : tagAt? sps s = some t) (hk : t.kind ≠ .other) : isExact t.kind t.text = true := by
  obtain ⟨sp, -, hsp⟩ := List.exists_of_findSome?_eq_some h
  obtain ⟨a, -, rfl⟩ := Option.map_eq_some_iff.1 hsp
  exact isExact_settle hk

/-! ## Tags without a gap -/

/-- Whether the tags of a kind hold an item tag and a paragraph tag. -/
def Kind.hasGap (k : Kind) : Bool :=
  k.isParagraphTask || k = .itemPara || k = .taskItemPara

/-- The exact texts of a kind, with their gap closed. -/
def Kind.exactTexts (k : Kind) : List String :=
  (vocabulary.filter fun sp => sp.kind = k).flatMap (·.canonical)

theorem no_gap_of_mem_vocabulary : ∀ sp ∈ vocabulary, sp.kind.hasGap = false →
    ∀ text ∈ sp.canonical, ∀ item ∈ [itemTag, taskItemTag],
      ¬(item.toList ++ "<p>".toList) <+: text.toList := by decide

/-- A text without a gap is exact only as it is listed. -/
theorem mem_exactTexts {k : Kind} (hk : k.hasGap = false) {a : List Char}
    (h : isExact k a = true) : ∃ text ∈ k.exactTexts, a = text.toList := by
  obtain ⟨sp, hsp, rfl, text, ht, hg⟩ := isExact_iff_exists.1 h
  refine ⟨text, List.mem_flatMap.2 ⟨sp, List.mem_filter.2 ⟨hsp, by simp⟩, ht⟩, ?_⟩
  rcases hg with ⟨item, w, r, hw, he⟩ | ⟨-, he⟩
  · exact absurd ⟨r, he.symm⟩ (no_gap_of_mem_vocabulary sp hsp hk text ht item hw.mem)
  · exact he.symm

end MarkdownPreview.Markup

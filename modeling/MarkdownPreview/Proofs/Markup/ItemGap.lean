import MarkdownPreview.Proofs.Markup.Boundary
import MarkdownPreview.Proofs.Markup.Concatenation

/-!
# The gap of an item

Between an item tag and the paragraph tag that its text starts with, the converter may write blanks
or none. They belong to the item's tag, whatever marker follows, and no replacement depends on them.
What stands before the item has its tokens without it (`not_straddles_of_apart`), and what stands
behind it is read from the same place on.

* `findsAcrossGap_item`, `findsAcrossGap_taskItem`: the kind of the tag and its end behind the
  paragraph tag are the same for all gaps.
* `content_of_findsAcrossGap`: so is what a pass makes of a document.
* `transform_gap`: any blanks may be put in the place of others.
-/
namespace MarkdownPreview.Markup

open Text (isAsciiBlank)

/-! ## A document cut before a tag -/

/-- A token that begins before a tag, other than a paragraph's, ends before it. -/
theorem not_straddles_of_apart {f : Features} {a b : String} (hb : isApart b.toList = true)
    {t : Token} (ht : t ∈ scan f (a ++ b)) : ¬t.Straddles a.length := by
  rintro ⟨hs, he⟩
  rw [← String.length_toList] at hs he
  have hat := mem_scan_iff.1 ht
  rw [String.toList_append, List.drop_append_of_le_length (Nat.le_of_lt hs)] at hat
  obtain ⟨sp, hsp, x, hx, hset⟩ := exists_take?_of_tagAt? hat
  have hv := mem_vocabulary_of_mem_active hsp
  obtain ⟨hp, hd⟩ := (Spelling.take?_eq_some_iff hv).1 hx
  have hne : a.toList.drop t.start ≠ [] := by
    rw [ne_eq, List.drop_eq_nil_iff]
    omega
  have hfits := (prefix_of_apart hv hne hb hd hp).length_le
  have htext : t.text.length ≤ x.length := by
    rw [show t.text = (settle sp.kind x).text from congrArg Tag.text hset]
    exact length_settle_le ..
  have hstop : t.stop = t.start + t.text.length := rfl
  rw [List.length_drop] at hfits
  omega

/-- A pass over a text that is cut before a tag goes on there in the state that the first part
leaves. -/
theorem content_append_of_apart (f : Features) (a : String) {b : String}
    (hb : isApart b.toList = true) : content f (a ++ b).toList =
      content f a.toList ++
        (run f (run f .initial (segments f a.toList)).2 (segments f b.toList)).1 := by
  rw [content, segments_append fun t ht => not_straddles_of_apart hb ht, run_append]
  rfl

/-- The segments of a text that begins with a tag. -/
theorem segments_of_tagAt? {f : Features} {k : Kind} {text r : List Char}
    (h : tagAt? (active f) (text ++ r) = some ⟨k, text⟩) :
    segments f (text ++ r) = .tag ⟨k, text⟩ :: segments f r := by
  have hr : Reads f (.tag ⟨k, text⟩ :: segments f r) := by
    refine ⟨?_, reads_segments f r⟩
    rwa [textOf_segments]
  have := segments_of_reads hr
  rwa [textOf_tag, textOf_segments] at this

/-! ## What is found across a gap -/

/-- The text is made of ASCII blanks. -/
def Blanks (w : String) : Prop :=
  ∀ c ∈ w.toList, isAsciiBlank c = true

instance (w : String) : Decidable (Blanks w) :=
  decidable_of_iff (w.toList.all isAsciiBlank = true) List.all_eq_true

/-- An item tag, a gap, a paragraph tag and then `m` are a tag of kind `k` before `r`, whatever
blanks are in the gap, and a pass replaces it. -/
structure FindsAcrossGap (f : Features) (item : String) (k : Kind) (m r : List Char) : Prop where
  found : ∀ w : String, Blanks w → tagAt? (active f) ((item ++ w ++ "<p>").toList ++ m ++ r) =
    some ⟨k, (item ++ w ++ "<p>").toList ++ m⟩
  replaced : ∀ st : PassState, (st.replacement? f k).isSome = true

/-- The kinds of the tags of paragraph items. -/
def Kind.isParagraphItem (k : Kind) : Bool :=
  k.isParagraphTask || k = .itemPara || k = .taskItemPara

theorem isSome_replacement? {k : Kind} (hk : k.isParagraphItem = true) (f : Features)
    (st : PassState) : (st.replacement? f k).isSome = true := by
  cases k with
  | itemPara =>
    rw [PassState.replacement?]
    split <;> rfl
  | itemParaChecked | itemParaUnchecked | taskItemPara => rfl
  | _ => cases hk

/-- The kind of a paragraph item by the marker behind it, and the part of the marker that belongs to
its tag. -/
def paragraphKind : Option Marker → Kind × String
  | some .checked => (.itemParaChecked, "[x]")
  | some .unchecked => (.itemParaUnchecked, "[ ]")
  | some .capital | none => (.itemPara, "")

theorem isParagraphItem_paragraphKind (m : Option Marker) :
    (paragraphKind m).1.isParagraphItem = true := by
  rcases m with _ | _ | _ | _ <;> rfl

theorem tag_paragraph (gap : List Char) (m : Option Marker) :
    (ItemForm.paragraph gap false m).tag =
      ⟨(paragraphKind m).1,
        itemTag.toList ++ gap ++ "<p>".toList ++ (paragraphKind m).2.toList⟩ := by
  rcases m with _ | _ | _ | _
  · rfl
  · rfl
  · rfl
  · exact congrArg (Tag.mk .itemPara) (List.append_nil _).symm

theorem paragraphKind_prefix (f : Features) (s : List Char) :
    (paragraphKind (taskMarker? f s)).2.toList <+: s := by
  unfold taskMarker?
  split
  · cases hm : markerAt? s with
    | none => exact List.nil_prefix
    | some m =>
      have hp := markerAt?_eq_some_iff.1 hm
      cases m with
      | checked | unchecked => exact hp
      | capital => exact List.nil_prefix
  · exact List.nil_prefix

/-- Behind a plain item tag the marker decides, if tasks are looked for. -/
theorem findsAcrossGap_item (f : Features) (s : List Char) :
    ∃ k m r, s = m ++ r ∧ FindsAcrossGap f itemTag k m r := by
  obtain ⟨r, hr⟩ := paragraphKind_prefix f s
  have hk := isParagraphItem_paragraphKind (taskMarker? f s)
  refine ⟨_, _, r, hr.symm, fun w hw => ?_, isSome_replacement? hk f⟩
  have ht := tagAt?_itemForm f (w.toList ++ ((paragraphTag false).toList ++ s))
  rw [itemForm_of_paragraph f hw, if_pos (.inr nofun), tag_paragraph] at ht
  rwa [List.append_assoc _ _ r, hr, String.toList_append, String.toList_append, List.append_assoc,
    List.append_assoc]

/-- The spelling of a task item whose text starts a paragraph. -/
def paragraphTaskItem : Spelling :=
  .paragraphItem .taskItemPara taskItemTag "" (some .taskLists)

theorem paragraphTaskItem_mem_vocabulary : paragraphTaskItem ∈ vocabulary := by
  simp [vocabulary, paragraphTaskItem]

theorem filter_taskItemTag {f : Features} (hf : f.taskLists = true) :
    (active f).filter (fun sp => !sp.clashes taskItemTag.toList) =
      [paragraphTaskItem, .tag .taskItem taskItemTag (some .taskLists)] := by
  obtain ⟨tasks, bullets⟩ := f
  obtain rfl : tasks = true := hf
  cases bullets <;> rfl

theorem describes_taskItemTag : (Piece.word taskItemTag.toList).Describes taskItemTag.toList := by
  unfold Piece.Describes
  decide

theorem describes_paragraphTag : (Piece.word "<p>".toList).Describes "<p>".toList := by
  unfold Piece.Describes
  decide

/-- While tasks are looked for, the tag of a task item takes the paragraph tag with it. -/
theorem findsAcrossGap_taskItem {f : Features} (hf : f.taskLists = true) (s : List Char) :
    FindsAcrossGap f taskItemTag .taskItemPara [] s where
  found w hw := by
    have hitem : (taskItemTag ++ w ++ "<p>").toList =
        taskItemTag.toList ++ (w.toList ++ "<p>".toList) := by
      rw [String.toList_append, String.toList_append, List.append_assoc]
    have htake : paragraphTaskItem.take? ((taskItemTag ++ w ++ "<p>").toList ++ s) =
        some (taskItemTag ++ w ++ "<p>").toList := by
      refine (Spelling.take?_eq_some_iff paragraphTaskItem_mem_vocabulary).2
        ⟨List.prefix_append .., ?_⟩
      rw [hitem]
      exact ⟨_, _, rfl, describes_taskItemTag, _, _, rfl, hw, _, _, (List.append_nil _).symm,
        describes_paragraphTag, rfl⟩
    have hexact : isExact .taskItemPara (taskItemTag ++ w ++ "<p>").toList = true := by
      have hgap : HasGap (taskItemTag ++ w ++ "<p>").toList taskItemTag w.toList [] :=
        ⟨by simp, hw, by rw [hitem, List.append_nil, List.append_assoc]⟩
      refine (isExact_iff paragraphTaskItem_mem_vocabulary).2
        ⟨taskItemTag ++ "<p>", by decide, .inl ⟨taskItemTag, w.toList, [], hgap, ?_⟩⟩
      rw [String.toList_append, List.append_nil]
    have hp : taskItemTag.toList <+: (taskItemTag ++ w ++ "<p>").toList ++ s := by
      rw [hitem, List.append_assoc]
      exact List.prefix_append ..
    rw [List.append_nil, ← tagAt?_filter_clashes hp, filter_taskItemTag hf, tagAt?_cons_spellings,
      htake]
    exact congrArg some (if_pos hexact)
  replaced := isSome_replacement? rfl f

/-! ## Documents -/

/-- What a pass makes of a document does not depend on the gap. -/
theorem content_of_findsAcrossGap {f : Features} {item : String} {k : Kind} {m r : List Char}
    (h : FindsAcrossGap f item k m r) {a w b out : String} (hw : Blanks w)
    (hb : (item ++ w ++ "<p>" ++ b).toList = (item ++ w ++ "<p>").toList ++ m ++ r)
    (hout : (run f .initial (segments f a.toList)).2.replacement? f k = some out) :
    content f (a ++ (item ++ w ++ "<p>" ++ b)).toList = content f a.toList ++ (out.toList ++
      (run f ((run f .initial (segments f a.toList)).2.next k) (segments f r)).1) := by
  have hat := h.found w hw
  have happ : isApart (item ++ w ++ "<p>" ++ b).toList = true := by
    rw [hb]
    exact isApart_of_tagAt? hat
  generalize (item ++ w ++ "<p>").toList ++ m = text at hat hb
  rw [content_append_of_apart f a happ, hb, segments_of_tagAt? hat]
  simp only [run, PassState.replace, hout, Option.map_some, Option.getD_some]

/-- Behind an item tag, blanks before a paragraph tag do not matter, whatever stands before and
behind them: the tag is found with them, and it is replaced by the same text. The tag of a task item
has to be looked for. -/
theorem transform_gap (f : Features) (a b : String) {item : String}
    (hitem : item = itemTag ∨ f.taskLists = true ∧ item = taskItemTag) :
    (∀ w w' : String, Blanks w → Blanks w' →
      transform f (a ++ item ++ w ++ "<p>" ++ b) = transform f (a ++ item ++ w' ++ "<p>" ++ b)) ∧
    ∀ w : String, Blanks w → ∃ t ∈ scan f (a ++ item ++ w ++ "<p>" ++ b),
      t.start = a.length ∧ (item ++ w ++ "<p>").toList <+: t.text ∧ t.kind ≠ .other := by
  have key : ∃ k m r, b.toList = m ++ r ∧ FindsAcrossGap f item k m r := by
    rcases hitem with rfl | ⟨hf, rfl⟩
    · exact findsAcrossGap_item f b.toList
    · exact ⟨_, [], _, rfl, findsAcrossGap_taskItem hf b.toList⟩
  obtain ⟨k, m, r, hmr, h⟩ := key
  have hassoc : ∀ w, a ++ item ++ w ++ "<p>" ++ b = a ++ (item ++ w ++ "<p>" ++ b) := by
    intro w
    simp only [String.append_assoc]
  have hb : ∀ w : String,
      (item ++ w ++ "<p>" ++ b).toList = (item ++ w ++ "<p>").toList ++ m ++ r := by
    intro w
    rw [String.toList_append, hmr, List.append_assoc]
  refine ⟨fun w w' hw hw' => ?_, fun w hw => ?_⟩
  · obtain ⟨out, hout⟩ := Option.isSome_iff_exists.1
      (h.replaced (run f .initial (segments f a.toList)).2)
    rw [hassoc, hassoc, transform, transform, content_of_findsAcrossGap h hw (hb w) hout,
      content_of_findsAcrossGap h hw' (hb w') hout]
  · refine ⟨⟨⟨k, (item ++ w ++ "<p>").toList ++ m⟩, a.length⟩, mem_scan_iff.2 ?_, rfl,
      List.prefix_append .., ?_⟩
    · have hdrop : (a ++ item ++ w ++ "<p>" ++ b).toList.drop a.length =
          (item ++ w ++ "<p>").toList ++ m ++ r := by
        rw [hassoc, String.toList_append, ← String.length_toList, List.drop_left, hb]
      exact hdrop ▸ h.found w hw
    · rintro rfl
      have hr : (PassState.initial.replacement? f .other).isSome = true := h.replaced .initial
      cases hr

/-- A gap before a marker with a capital, behind an unfinished tag in a list. -/
theorem transform_gap_capital : Blanks "\n \t" ∧ Blanks "" ∧
    transform ⟨true, true⟩ ("<ul><li>a<li" ++ itemTag ++ "\n \t" ++ "<p>" ++ "[X] b</p></ul>") =
      transform ⟨true, true⟩ ("<ul><li>a<li" ++ itemTag ++ "" ++ "<p>" ++ "[X] b</p></ul>") :=
  ⟨by decide, by decide,
    (transform_gap ⟨true, true⟩ "<ul><li>a<li" "[X] b</p></ul>" (.inl rfl)).1 _ _ (by decide)
      (by decide)⟩

end MarkdownPreview.Markup

import MarkdownPreview.Proofs.Markup.Idle
import MarkdownPreview.Proofs.Markup.Items

/-!
# Documents without tasks

To look for tasks changes a document only where it has one. The spellings of tasks find more than
that, since they take capitals too, and they find it before the general spellings do. What they find
is then of no kind, or it is cut back to the paragraph item that the general spelling finds.

* `tagAt?_without_tasks`: where no item begins, in whatever case, tasks make no difference.
* `kind_eq_other`: where an item begins but not with one of the exact item tags, every tag is of no
  kind.
* `live_itemTag`: at an item tag, what is found of a task that is not one comes to the same.
* `transform_of_taskFree`: so a document that holds no task is enhanced to the same with and without
  looking for tasks.
-/
namespace MarkdownPreview.Markup

open Text (isAsciiBlank)

/-! ## Texts of tasks -/

/-- None of the texts that the converter writes for a task is in the text. -/
structure TaskFree (s : List Char) : Prop where
  checked : ¬"<li>[x]".toList <:+: s
  unchecked : ¬"<li>[ ]".toList <:+: s
  item : ¬taskItemTag.toList <:+: s
  paragraph : ∀ gap, (∀ c ∈ gap, isAsciiBlank c = true) → ∀ marker ∈ ["[x]", "[ ]"],
    ¬("<li>".toList ++ gap ++ "<p>".toList ++ marker.toList) <:+: s

/-- A suffix of a text without tasks is one. -/
theorem TaskFree.suffix {s r : List Char} (h : TaskFree s) (hr : r <:+ s) : TaskFree r where
  checked hi := h.checked (hi.trans hr.isInfix)
  unchecked hi := h.unchecked (hi.trans hr.isInfix)
  item hi := h.item (hi.trans hr.isInfix)
  paragraph gap hg marker hm hi := h.paragraph gap hg marker hm (hi.trans hr.isInfix)

/-! ## Where no item tag stands -/

/-- What every item tag begins with. -/
def itemStart : String := "<li"

/-- The text begins like an item tag, in whatever case. -/
def BeginsItem (s : List Char) : Prop :=
  itemStart.toList <+: s.map smallLetter

/-- Whether the first word of a spelling begins like an item tag. -/
def Spelling.beginsItem (sp : Spelling) : Bool :=
  match sp.shape with
  | .word w :: _ => itemStart.toList.isPrefixOf w
  | _ => false

theorem beginsItem_of_need : ∀ sp ∈ vocabulary, sp.need = some .taskLists →
    sp.beginsItem = true := by decide

theorem Spelling.beginsItem_of_take? {sp : Spelling} (hsp : sp.beginsItem = true) {s a : List Char}
    (h : sp.take? s = some a) : BeginsItem s := by
  unfold Spelling.beginsItem at hsp
  split at hsp
  · rename_i w ps hshape
    rw [List.isPrefixOf_iff_prefix, ← Spelling.firstWord_of_take? hshape h] at hsp
    exact hsp.trans ((List.take_prefix ..).map smallLetter)
  · cases hsp

theorem active_without_tasks (bullets : Bool) : active ⟨false, bullets⟩ =
    (active ⟨true, bullets⟩).filter fun sp => sp.need ≠ some .taskLists := by
  cases bullets <;> rfl

/-- Where no item begins, tasks make no difference. -/
theorem tagAt?_without_tasks {s : List Char} (hs : ¬BeginsItem s) (bullets : Bool) :
    tagAt? (active ⟨false, bullets⟩) s = tagAt? (active ⟨true, bullets⟩) s := by
  rw [active_without_tasks]
  refine tagAt?_filter fun sp hsp hneed => ?_
  have hb := beginsItem_of_need sp (mem_vocabulary_of_mem_active hsp) (by simpa using hneed)
  cases ht : sp.take? s with
  | none => rfl
  | some a => exact absurd (Spelling.beginsItem_of_take? hb ht) hs

theorem itemTag_of_itemStart : ∀ sp ∈ vocabulary, ∀ text ∈ sp.canonical,
    ¬text.toList <+: itemStart.toList ∧ (itemStart.toList <+: text.toList →
      itemTag.toList <+: text.toList ∨ taskItemTag.toList <+: text.toList) := by decide

/-- An exact text at a place where an item begins has one of the two item tags. -/
theorem itemTag_of_isExact {k : Kind} {a s : List Char} (h : isExact k a = true) (ha : a <+: s)
    (hs : BeginsItem s) : itemTag.toList <+: a ∨ taskItemTag.toList <+: a := by
  obtain ⟨sp, hsp, -, text, ht, hg⟩ := isExact_iff_exists.1 h
  rcases hg with ⟨item, w, r, ⟨hm, -, rfl⟩, -⟩ | ⟨-, rfl⟩
  · have hp : item.toList <+: item.toList ++ w ++ "<p>".toList ++ r := by
      rw [List.append_assoc, List.append_assoc]
      exact List.prefix_append ..
    simp only [List.mem_cons, List.not_mem_nil, or_false] at hm
    rcases hm with rfl | rfl
    · exact .inl hp
    · exact .inr hp
  · obtain ⟨hlong, htag⟩ := itemTag_of_itemStart sp hsp text ht
    have hsmall := List.all_eq_true.1 (small_of_mem_canonical sp hsp text ht)
    have hp := ha.map smallLetter
    rw [List.map_congr_left fun c hc => of_decide_eq_true (hsmall c hc), List.map_id'] at hp
    exact htag ((List.prefix_or_prefix_of_prefix hs hp).resolve_right hlong)

/-- Where an item begins but neither item tag stands, every tag is of no kind. -/
theorem kind_eq_other {f : Features} {s : List Char} (hs : BeginsItem s)
    (hitem : ¬itemTag.toList <+: s) (htask : ¬taskItemTag.toList <+: s) {t : Tag}
    (h : tagAt? (active f) s = some t) : t.kind = .other := by
  by_contra hk
  have ht : t.text <+: s := ⟨_, tagAt?_append h⟩
  rcases itemTag_of_isExact (isExact_of_tagAt? h hk) ht hs with hp | hp
  · exact hitem (hp.trans ht)
  · exact htask (hp.trans ht)

theorem live_eq_none {f g : Features} {s : List Char}
    (h : ∀ t, tagAt? (active g) s = some t → t.kind = .other) :
    live f (tagAt? (active g) s) = none := by
  cases ht : tagAt? (active g) s with
  | none => rfl
  | some t => simp [live, h t ht, Kind.isIdle]

/-! ## At an item tag -/

/-- The only marker right behind an item tag has a capital. -/
theorem TaskFree.eq_capital {rest : List Char} (h : TaskFree (itemTag.toList ++ rest)) {m : Marker}
    (hm : markerAt? rest = some m) : m = .capital := by
  obtain ⟨s, rfl⟩ := markerAt?_eq_some_iff.1 hm
  have hp : itemTag.toList ++ m.text.toList <+: itemTag.toList ++ (m.text.toList ++ s) :=
    ⟨s, List.append_assoc ..⟩
  cases m with
  | checked => exact absurd hp.isInfix h.checked
  | unchecked => exact absurd hp.isInfix h.unchecked
  | capital => rfl

/-- The only marker behind the paragraph tag of an item has a capital. -/
theorem TaskFree.eq_capital_of_paragraph {gap s : List Char}
    (h : TaskFree (itemTag.toList ++ (gap ++ ((paragraphTag false).toList ++ s))))
    (hg : ∀ c ∈ gap, isAsciiBlank c = true) {m : Marker} (hm : markerAt? s = some m) :
    m = .capital := by
  obtain ⟨s, rfl⟩ := markerAt?_eq_some_iff.1 hm
  have hp : itemTag.toList ++ gap ++ (paragraphTag false).toList ++ m.text.toList <:+:
      itemTag.toList ++ (gap ++ ((paragraphTag false).toList ++ (m.text.toList ++ s))) :=
    List.IsPrefix.isInfix ⟨s, by simp only [List.append_assoc]⟩
  cases m with
  | checked => exact absurd hp (h.paragraph gap hg "[x]" (by simp))
  | unchecked => exact absurd hp (h.paragraph gap hg "[ ]" (by simp))
  | capital => rfl

/-- At an item tag, tasks make no difference to what a pass reacts to, if there are none. -/
theorem live_itemTag {bullets : Bool} {rest : List Char}
    (h : TaskFree (itemTag.toList ++ rest))
    (hcapital : bullets = true → ¬"<li>[X]".toList <+: itemTag.toList ++ rest) :
    live ⟨false, bullets⟩ (tagAt? (active ⟨true, bullets⟩) (itemTag.toList ++ rest)) =
      live ⟨false, bullets⟩ (tagAt? (active ⟨false, bullets⟩) (itemTag.toList ++ rest)) := by
  have hon : ∀ s, taskMarker? ⟨true, bullets⟩ s = markerAt? s := fun _ => rfl
  have hoff : ∀ s, taskMarker? ⟨false, bullets⟩ s = none := fun _ => rfl
  rw [tagAt?_itemForm, tagAt?_itemForm]
  rcases paragraph_or_noParagraph rest with ⟨gap, p, s, hg, rfl⟩ | hr
  · rw [itemForm_of_paragraph _ hg, itemForm_of_paragraph _ hg, if_pos (.inr nofun),
      if_pos (.inr nofun), hon, hoff]
    cases p with
    | true => rfl
    | false =>
      cases hm : markerAt? s with
      | none => rfl
      | some m =>
        obtain rfl := h.eq_capital_of_paragraph hg hm
        simp [ItemForm.tag, ItemForm.isLoose, ItemForm.finder, ItemForm.found]
  · rw [itemForm_of_no_paragraph _ hr, itemForm_of_no_paragraph _ hr, hon, hoff]
    cases hm : markerAt? rest with
    | none => rfl
    | some m =>
      obtain rfl := h.eq_capital hm
      obtain ⟨s, rfl⟩ := markerAt?_eq_some_iff.1 hm
      cases bullets with
      | false => rfl
      | true => exact absurd ⟨s, rfl⟩ (hcapital rfl)

/-! ## Documents -/

/-- A document that holds no task comes out the same whether or not tasks are looked for, however
its items are spelled. With bullets, it must not hold `<li>[X]` either, which takes the bullet from
its item. -/
theorem transform_of_taskFree {html : String} (h : TaskFree html.toList) (bullets : Bool)
    (hcapital : bullets = true → ¬"<li>[X]".toList <:+: html.toList) :
    transform ⟨true, bullets⟩ html = transform ⟨false, bullets⟩ html := by
  have key : content ⟨true, bullets⟩ html.toList = content ⟨false, bullets⟩ html.toList := by
    rw [content, run_congr (f := ⟨true, bullets⟩) (g := ⟨false, bullets⟩) rfl]
    refine run_segments_of_live fun r hr => ?_
    by_cases hitem : itemTag.toList <+: r
    · obtain ⟨rest, rfl⟩ := hitem
      exact live_itemTag (h.suffix hr) fun hb hp => hcapital hb (hp.isInfix.trans hr.isInfix)
    · by_cases hs : BeginsItem r
      · have htask : ¬taskItemTag.toList <+: r := fun hp => (h.suffix hr).item hp.isInfix
        rw [live_eq_none fun t ht => kind_eq_other hs hitem htask ht,
          live_eq_none fun t ht => kind_eq_other hs hitem htask ht]
      · rw [tagAt?_without_tasks hs]
  rw [transform, transform, key]

/-- Items that resemble tasks, each in a way of its own. -/
def looseTasks : String :=
  "<ul><LI>[x]</LI><li><P>[ ]</P><li>\n<p>[X]</p><LI class=\"task-list-item\"></ul>"

/-- None of them is a task. -/
theorem transform_of_taskFree_loose : TaskFree looseTasks.toList ∧
    ¬"<li>[X]".toList <:+: looseTasks.toList ∧
    transform ⟨true, true⟩ looseTasks = transform ⟨false, true⟩ looseTasks := by
  have hp : ∀ marker ∈ ["[x]", "[ ]"],
      ¬("<p>".toList ++ marker.toList) <:+: looseTasks.toList := by decide +kernel
  have h : TaskFree looseTasks.toList :=
    { checked := by decide +kernel
      unchecked := by decide +kernel
      item := by decide +kernel
      paragraph := by
        intro gap _ marker hm hi
        rw [List.append_assoc] at hi
        exact hp marker hm ((List.suffix_append ..).isInfix.trans hi) }
  have hcapital : ¬"<li>[X]".toList <:+: looseTasks.toList := by decide +kernel
  exact ⟨h, hcapital, transform_of_taskFree h true fun _ => hcapital⟩

end MarkdownPreview.Markup

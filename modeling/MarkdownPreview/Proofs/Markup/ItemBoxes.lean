import MarkdownPreview.Proofs.Markup.Enclosing
import MarkdownPreview.Proofs.Markup.Items

/-!
# The check box of an item

While bullets are on, an item of a bulleted list is shown with one check box: its bullet, or the
box of its task. The exception is a loose item (`ItemForm.isLoose`), which the converter does not
write and which is copied as it stands: `<li>[X]` while tasks are looked for, and `<li>` before
`<P>`.

* `isBoxed_of_mem_emissions`: what is emitted for an item, by its form.
* `one_box_of_item`: every item of a bulleted list that is not loose gets exactly one box, and
  looking for tasks takes the bullet from no item but tasks and `<li>[X]`.
* `not_everyItemBoxed`: loose items get none.
-/
namespace MarkdownPreview.Markup

open Text (isAsciiBlank)

/-! ## Boxes in a text -/

/-- How often `w` begins in a text. -/
def occurrences (w : List Char) : List Char → Nat
  | [] => 0
  | c :: r => (if w.isPrefixOf (c :: r) then 1 else 0) + occurrences w r

/-- What every check box begins with. -/
def boxStart : String := "<input type=\"checkbox\""

theorem occurrences_append_of_not_mem {d : Char} {w a : List Char} (ha : d ∉ a) (b : List Char) :
    occurrences (d :: w) (a ++ b) = occurrences (d :: w) b := by
  induction a with
  | nil => rfl
  | cons c a ih =>
    rw [List.mem_cons, not_or] at ha
    obtain ⟨hc, ha⟩ := ha
    have hp : ¬(d :: w).isPrefixOf (c :: (a ++ b)) = true := by
      simp [List.isPrefixOf, hc]
    rw [List.cons_append, occurrences, if_neg hp, Nat.zero_add, ih ha]

theorem bracket_not_mem_gap {gap : List Char} (hg : ∀ c ∈ gap, isAsciiBlank c = true) :
    '<' ∉ gap :=
  fun h => absurd (hg _ h) (by decide)

/-- A text that ends in a box holds one. -/
theorem occurrences_pos_of_suffix {w b s : List Char} (hw : w <+: b) (hb : b ≠ [])
    (h : b <:+ s) : 0 < occurrences w s := by
  induction s with
  | nil => exact absurd (List.suffix_nil.1 h) hb
  | cons c r ih =>
    rw [occurrences]
    rcases List.suffix_cons_iff.1 h with rfl | hr
    · rw [if_pos (List.isPrefixOf_iff_prefix.2 hw)]
      omega
    · have := ih hr
      omega

/-- No box is in the text of an item. -/
theorem occurrences_found {form : ItemForm}
    (hg : ∀ gap p m, form = .paragraph gap p m → ∀ c ∈ gap, isAsciiBlank c = true) :
    occurrences boxStart.toList form.found = 0 := by
  cases form with
  | plain => decide
  | marked m => cases m <;> decide
  | paragraph gap p m =>
    have hn := bracket_not_mem_gap (hg gap p m rfl)
    have hitem : ∀ s, occurrences boxStart.toList (itemTag.toList ++ s) =
        occurrences boxStart.toList s := fun s => by
      simp [boxStart, itemTag, occurrences, List.isPrefixOf]
    rw [ItemForm.found, List.append_assoc, List.append_assoc, hitem,
      show boxStart.toList = '<' :: boxStart.toList.tail from rfl,
      occurrences_append_of_not_mem hn]
    rcases m with _ | _ | _ | _ <;> cases p <;> decide

/-! ## What is emitted for an item -/

/-- The box of an item of a bulleted list, unless the item is loose. -/
def ItemForm.box? : ItemForm → Option String
  | .plain | .paragraph _ false none | .paragraph _ false (some .capital) => some bulletBox
  | .marked .checked | .paragraph _ false (some .checked) => some checkedBox
  | .marked .unchecked | .paragraph _ false (some .unchecked) => some uncheckedBox
  | .marked .capital | .paragraph _ true _ => none

/-- Whether an item of this form is a task. -/
def ItemForm.isTask : ItemForm → Bool
  | .marked m | .paragraph _ false (some m) => m != .capital
  | _ => false

/-- What is neither a task nor loose gets a bullet. -/
theorem box?_of_not_isTask {form : ItemForm} (ht : form.isTask = false)
    (hl : form.isLoose = false) : form.box? = some bulletBox := by
  rcases form with _ | (_ | _ | _) | ⟨gap, _ | _, _ | _ | _ | _⟩ <;>
    simp_all [ItemForm.box?, ItemForm.isTask, ItemForm.isLoose]

theorem box?_eq_none_iff {form : ItemForm} : form.box? = none ↔ form.isLoose = true := by
  rcases form with _ | (_ | _ | _) | ⟨gap, _ | _, _ | _ | _ | _⟩ <;>
    simp [ItemForm.box?, ItemForm.isLoose]

/-- An item is emitted with its box at the end and no other box, or as it stands and with none. -/
def IsBoxed (form : ItemForm) (out : List Char) : Prop :=
  match form.box? with
  | some box => occurrences boxStart.toList out = 1 ∧ box.toList <:+ out
  | none => occurrences boxStart.toList out = 0 ∧ out = form.found

/-- The tags that an item is emitted with. -/
def ItemForm.tags : ItemForm → String
  | .plain => itemOf "bullet"
  | .marked _ => itemOf "task"
  | .paragraph _ _ none | .paragraph _ _ (some .capital) => paragraphItemOf "bulletp"
  | .paragraph _ _ (some _) => paragraphItemOf "taskp"

theorem replace_of_replacement? {f : Features} {st : PassState} {t : Tag} {text : String}
    (h : st.replacement? f t.kind = some text) : (st.replace f t).1 = text.toList := by
  rw [PassState.replace, h]
  rfl

/-- In a bulleted list, an item that is not loose is emitted with its tags and its box. -/
theorem replace_item {f : Features} {st : PassState} {form : ItemForm} {box : String}
    (hbox : form.box? = some box) (hbullet : form.tag.kind.isPlainItem = true →
      (st.replace f form.tag).1 = (bulletMarkup form.tag.kind).toList) :
    (st.replace f form.tag).1 = (form.tags ++ box).toList := by
  cases hk : form.tag.kind.isPlainItem with
  | true =>
    rw [hbullet hk]
    rcases form with _ | (_ | _ | _) | ⟨gap, _ | _, _ | _ | _ | _⟩ <;> cases hbox <;> cases hk <;>
      rfl
  | false =>
    refine replace_of_replacement? ?_
    rcases form with _ | (_ | _ | _) | ⟨gap, _ | _, _ | _ | _ | _⟩ <;> cases hbox <;> cases hk <;>
      rfl

theorem occurrences_tags {form : ItemForm} {box : String} (h : form.box? = some box) :
    occurrences boxStart.toList (form.tags ++ box).toList = 1 := by
  have key : ∀ p ∈ [(itemOf "bullet", bulletBox), (itemOf "task", checkedBox),
      (itemOf "task", uncheckedBox), (paragraphItemOf "bulletp", bulletBox),
      (paragraphItemOf "taskp", checkedBox), (paragraphItemOf "taskp", uncheckedBox)],
      occurrences boxStart.toList (p.1.toList ++ p.2.toList) = 1 := by decide +kernel
  rw [String.toList_append]
  refine key (form.tags, box) ?_
  rcases form with _ | (_ | _ | _) | ⟨gap, _ | _, _ | _ | _ | _⟩ <;> cases h <;>
    simp [ItemForm.tags]

theorem tag_of_isLoose {form : ItemForm} (h : form.isLoose = true) :
    form.tag = ⟨.other, form.found⟩ := by
  cases form with
  | plain => cases h
  | marked m =>
    cases m with
    | capital => rfl
    | checked => cases h
    | unchecked => cases h
  | paragraph gap p m =>
    cases p with
    | true => rfl
    | false => cases h

/-! ## Items of bulleted lists -/

/-- No opening list tag has attributes. -/
def BareLists (s : List Char) : Prop :=
  ∀ i k, listTagAt? (s.drop i) ≠ some (.opens k false)

theorem bareLists_iff {s : List Char} : BareLists s ↔
    ∀ i, i < s.length → ∀ k ∈ [ListKind.ordered, .unordered],
      listTagAt? (s.drop i) ≠ some (.opens k false) := by
  refine ⟨fun h i _ k _ => h i k, fun h i k => ?_⟩
  rcases Nat.lt_or_ge i s.length with hlt | hge
  · exact h i hlt k (by cases k <;> simp)
  · rw [List.drop_of_length_le hge]
    cases k <;> decide

instance (s : List Char) : Decidable (BareLists s) :=
  decidable_of_iff _ bareLists_iff.symm

/-- An item tag stands at place `i`, before `rest`, and the innermost list around it is a bulleted
one. -/
structure BulletedItem (s : List Char) (i : Nat) (rest : List Char) : Prop where
  stands : s.drop i = itemTag.toList ++ rest
  enclosing : enclosing? s i = some .unordered

theorem BulletedItem.lt_length {s rest : List Char} {i : Nat} (h : BulletedItem s i rest) :
    i < s.length := by
  have hl := congrArg List.length h.stands
  have hpos : itemTag.toList.length = 4 := by decide
  rw [List.length_drop, List.length_append] at hl
  omega

theorem BulletedItem.head?_stackAt {s rest : List Char} {i : Nat} (h : BulletedItem s i rest)
    (hn : WellNested s) (hb : BareLists s) : (stackAt s i).head? = some .unordered := by
  have hi := Nat.le_of_lt h.lt_length
  rw [hn.stackAt_eq hi]
  refine (recordsEnclosing_of_bare fun c hc => ?_).2 h.enclosing
  exact bare_of_nestAt hb (hn.nestAt_eq hi) c (List.mem_of_mem_head? hc)

/-- While bullets are on, a token begins at every item, and its form decides which one. -/
theorem BulletedItem.tagAt?_eq {s rest : List Char} {i : Nat} (h : BulletedItem s i rest)
    {f : Features} (hf : f.iconBullets = true) :
    tagAt? (active f) (s.drop i) = some (itemForm f rest).tag := by
  rw [h.stands, tagAt?_itemForm, if_pos (.inl hf)]

/-- What is emitted for an item of a bulleted list. -/
theorem isBoxed_of_mem_emissions {f : Features} (hf : f.iconBullets = true) {html : String}
    (hn : WellNested html.toList) (hb : BareLists html.toList) {t : Token} {out rest : List Char}
    (hi : BulletedItem html.toList t.start rest) (h : (t, out) ∈ emissions f html) :
    IsBoxed (itemForm f rest) out := by
  have ht : t.toTag = (itemForm f rest).tag := by
    have hat := mem_scan_iff.1 (mem_scan_of_mem_emissions h)
    rw [hi.tagAt?_eq hf] at hat
    exact (Option.some.inj hat).symm
  have hgap : ∀ gap p m, itemForm f rest = .paragraph gap p m →
      ∀ c ∈ gap, isAsciiBlank c = true := fun _ _ _ h => (paragraph_of_itemForm h).1
  have hbullet : t.kind.isPlainItem = true → out = (bulletMarkup t.kind).toList := by
    intro hk
    have hfit := hn.fitsTo (Nat.le_of_lt hi.lt_length)
    exact (bullet_iff_head?_stackAt hf h hk hfit).1.1 (hi.head?_stackAt hn hb)
  obtain ⟨before, after, -, -, hout⟩ := mem_emissions_iff.1 h
  generalize itemForm f rest = form at ht hgap
  rw [ht] at hbullet hout
  unfold IsBoxed
  cases hbox : form.box? with
  | none =>
    rw [tag_of_isLoose (box?_eq_none_iff.1 hbox)] at hout
    rw [hout]
    exact ⟨occurrences_found hgap, rfl⟩
  | some box =>
    have hemit : out = (form.tags ++ box).toList :=
      hout.trans (replace_item hbox fun hk => hout ▸ hbullet hk)
    rw [hemit]
    refine ⟨occurrences_tags hbox, ?_⟩
    rw [String.toList_append]
    exact List.suffix_append ..

theorem BulletedItem.exists_mem_emissions {f : Features} (hf : f.iconBullets = true)
    {html : String} {i : Nat} {rest : List Char} (hi : BulletedItem html.toList i rest) :
    ∃ t out, (t, out) ∈ emissions f html ∧ t.start = i := by
  have hm : ⟨(itemForm f rest).tag, i⟩ ∈ scan f html := mem_scan_iff.2 (hi.tagAt?_eq hf)
  obtain ⟨out, h⟩ := Markup.exists_mem_emissions hm
  exact ⟨_, out, h, rfl⟩

/-- Whether a paragraph tag has a capital does not depend on the features. -/
theorem isLoose_of_capital {f f' : Features} {rest gap : List Char} {m : Option Marker}
    (h : itemForm f rest = .paragraph gap true m) : (itemForm f' rest).isLoose = true := by
  obtain ⟨hg, s, rfl, -⟩ := paragraph_of_itemForm h
  rw [itemForm_of_paragraph f' hg]
  rfl

/-- A loose item other than `<li>[X]` is loose whatever is looked for. -/
theorem isLoose_of_isLoose {f f' : Features} {rest : List Char}
    (h : (itemForm f rest).isLoose = true) (hm : itemForm f rest ≠ .marked .capital) :
    (itemForm f' rest).isLoose = true := by
  cases hform : itemForm f rest with
  | plain =>
    rw [hform] at h
    cases h
  | marked m =>
    rw [hform] at h hm
    cases m with
    | checked => cases h
    | unchecked => cases h
    | capital => exact absurd rfl hm
  | paragraph gap p m =>
    cases p with
    | true => exact isLoose_of_capital hform
    | false =>
      rw [hform] at h
      cases h

/-- Every item of a bulleted list has a token, which is emitted with exactly one box, unless the
item is loose. Looking for tasks leaves its bullet to every item but tasks and `<li>[X]`. -/
theorem one_box_of_item {html : String} (hn : WellNested html.toList)
    (hb : BareLists html.toList) {i : Nat} {rest : List Char}
    (hi : BulletedItem html.toList i rest) :
    (∀ tasks : Bool, (∃ t out, (t, out) ∈ emissions ⟨tasks, true⟩ html ∧ t.start = i) ∧
      ∀ t out, (t, out) ∈ emissions ⟨tasks, true⟩ html → t.start = i →
        IsBoxed (itemForm ⟨tasks, true⟩ rest) out) ∧
    ((itemForm ⟨true, true⟩ rest).isTask = false →
      itemForm ⟨true, true⟩ rest ≠ .marked .capital →
      ∀ t out t' out', (t, out) ∈ emissions ⟨false, true⟩ html → t.start = i →
        (t', out') ∈ emissions ⟨true, true⟩ html → t'.start = i →
        bulletBox.toList <:+ out → bulletBox.toList <:+ out') := by
  have key : ∀ tasks t out, (t, out) ∈ emissions ⟨tasks, true⟩ html → t.start = i →
      IsBoxed (itemForm ⟨tasks, true⟩ rest) out := by
    rintro tasks t out h rfl
    exact isBoxed_of_mem_emissions rfl hn hb hi h
  refine ⟨fun tasks => ⟨hi.exists_mem_emissions rfl, key tasks⟩, ?_⟩
  intro htask hcapital t out t' out' h hs h' hs' hbullet
  have hout := key false t out h hs
  have hout' := key true t' out' h' hs'
  unfold IsBoxed at hout hout'
  cases hl : (itemForm ⟨true, true⟩ rest).isLoose with
  | false =>
    rw [box?_of_not_isTask htask hl] at hout'
    exact hout'.2
  | true =>
    -- it was loose and had no bullet before
    rw [box?_eq_none_iff.2 (isLoose_of_isLoose hl hcapital)] at hout
    have hpos := occurrences_pos_of_suffix (w := boxStart.toList) (by decide) (by decide) hbullet
    omega

/-- A task beside an item whose marker has a capital: each has its box. -/
theorem one_box_of_item_task :
    WellNested "<ul><li>[x] a</li><li>\n<p>[X] b</p></li></ul>".toList ∧
    BareLists "<ul><li>[x] a</li><li>\n<p>[X] b</p></li></ul>".toList ∧
    (∃ t out, (t, out) ∈ emissions ⟨true, true⟩
        "<ul><li>[x] a</li><li>\n<p>[X] b</p></li></ul>" ∧
      t.start = 4 ∧ occurrences boxStart.toList out = 1 ∧ checkedBox.toList <:+ out) ∧
    ∃ t out, (t, out) ∈ emissions ⟨true, true⟩
        "<ul><li>[x] a</li><li>\n<p>[X] b</p></li></ul>" ∧
      t.start = 18 ∧ occurrences boxStart.toList out = 1 ∧ bulletBox.toList <:+ out := by
  have hn : WellNested "<ul><li>[x] a</li><li>\n<p>[X] b</p></li></ul>".toList :=
    ⟨by decide +kernel, by decide +kernel⟩
  have hb : BareLists "<ul><li>[x] a</li><li>\n<p>[X] b</p></li></ul>".toList := by decide +kernel
  have hi : BulletedItem "<ul><li>[x] a</li><li>\n<p>[X] b</p></li></ul>".toList 4
      "[x] a</li><li>\n<p>[X] b</p></li></ul>".toList := ⟨by decide +kernel, by decide +kernel⟩
  have hi' : BulletedItem "<ul><li>[x] a</li><li>\n<p>[X] b</p></li></ul>".toList 18
      "\n<p>[X] b</p></li></ul>".toList := ⟨by decide +kernel, by decide +kernel⟩
  obtain ⟨⟨t, out, hm, hs⟩, hbox⟩ := (one_box_of_item hn hb hi).1 true
  obtain ⟨⟨t', out', hm', hs'⟩, hbox'⟩ := (one_box_of_item hn hb hi').1 true
  exact ⟨hn, hb, ⟨t, out, hm, hs, hbox t out hm hs⟩, t', out', hm', hs', hbox' t' out' hm' hs'⟩

/-- Every item of a bulleted list gets exactly one box. -/
def EveryItemBoxed (f : Features) (html : String) : Prop :=
  ∀ t out rest, (t, out) ∈ emissions f html → BulletedItem html.toList t.start rest →
    occurrences boxStart.toList out = 1

/-- A marker with a capital right behind an item tag leaves the item without a box once tasks are
looked for, and so does a paragraph tag with a capital whatever is looked for. -/
theorem not_everyItemBoxed :
    (WellNested "<ul><li>[X] a</li></ul>".toList ∧ BareLists "<ul><li>[X] a</li></ul>".toList ∧
      (⟨⟨.itemOpen, itemTag.toList⟩, 4⟩, (itemOf "bullet" ++ bulletBox).toList) ∈
        emissions ⟨false, true⟩ "<ul><li>[X] a</li></ul>" ∧
      ¬EveryItemBoxed ⟨true, true⟩ "<ul><li>[X] a</li></ul>") ∧
    WellNested "<ul><li><P>a</li></ul>".toList ∧ BareLists "<ul><li><P>a</li></ul>".toList ∧
      ¬EveryItemBoxed ⟨false, true⟩ "<ul><li><P>a</li></ul>" := by
  have hn : WellNested "<ul><li>[X] a</li></ul>".toList := ⟨by decide +kernel, by decide +kernel⟩
  have hn' : WellNested "<ul><li><P>a</li></ul>".toList := ⟨by decide +kernel, by decide +kernel⟩
  refine ⟨⟨hn, by decide +kernel, by decide +kernel, fun h => ?_⟩, hn', by decide +kernel,
    fun h => ?_⟩
  · have hi : BulletedItem "<ul><li>[X] a</li></ul>".toList 4 "[X] a</li></ul>".toList :=
      ⟨by decide +kernel, by decide +kernel⟩
    have hm : (⟨⟨.other, "<li>[X]".toList⟩, 4⟩, "<li>[X]".toList) ∈
        emissions ⟨true, true⟩ "<ul><li>[X] a</li></ul>" := by decide +kernel
    exact absurd (h _ _ _ hm hi) (by decide +kernel)
  · have hi : BulletedItem "<ul><li><P>a</li></ul>".toList 4 "<P>a</li></ul>".toList :=
      ⟨by decide +kernel, by decide +kernel⟩
    have hm : (⟨⟨.other, "<li><P>".toList⟩, 4⟩, "<li><P>".toList) ∈
        emissions ⟨false, true⟩ "<ul><li><P>a</li></ul>" := by decide +kernel
    exact absurd (h _ _ _ hm hi) (by decide +kernel)

end MarkdownPreview.Markup

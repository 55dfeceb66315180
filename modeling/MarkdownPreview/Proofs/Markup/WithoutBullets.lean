import MarkdownPreview.Proofs.Markup.Bullets
import MarkdownPreview.Proofs.Markup.Idle
import MarkdownPreview.Proofs.Markup.Partition

/-!
# Documents with and without bullets

Bullets make list tags and plain items known to the scanner, and they change what a pass emits for
plain items. Without them a pass may just as well go through the tokens that are found with them,
since it would not react to the additional ones. Both passes then cut a document at the same places,
and can be compared token by token.

* `live_with_bullets`: the additional tokens are idle in a pass without bullets.
* `replace_without_bullets`: the two passes differ in plain items only, and there by the bullet.
* `differByBullets`: so the previews are the same but for bullets, and without a bulleted list they
  are the same.
-/
namespace MarkdownPreview.Markup

variable {tasks : Bool}

/-! ## Tokens that are found for bullets -/

/-- The spellings that bullets need. -/
def bulletSpellings : List Spelling :=
  vocabulary.filter fun sp => sp.need = some .iconBullets

theorem active_with_bullets (tasks : Bool) :
    active ⟨tasks, true⟩ = active ⟨tasks, false⟩ ++ bulletSpellings := by
  cases tasks <;> rfl

theorem isIdle_of_mem_bulletSpellings : ∀ sp ∈ bulletSpellings,
    sp.kind.isParagraphTask = false ∧ ∀ tasks, sp.kind.isIdle ⟨tasks, false⟩ = true := by decide

/-- But for paragraph tasks, a text that was found keeps the kind of its spelling or is of none. -/
theorem kind_settle {k : Kind} (hk : k.isParagraphTask = false) (a : List Char) :
    (settle k a).kind = k ∨ (settle k a).kind = .other := by
  unfold settle
  extract_lets unmarked
  split
  · exact .inl rfl
  · rw [hk, if_neg (by simp)]
    exact .inr rfl

theorem isIdle_of_bulletSpellings {s : List Char} {t : Tag} (h : tagAt? bulletSpellings s = some t) :
    t.kind.isIdle ⟨tasks, false⟩ = true := by
  obtain ⟨sp, hsp, ht⟩ := List.exists_of_findSome?_eq_some h
  obtain ⟨a, -, rfl⟩ := Option.map_eq_some_iff.1 ht
  obtain ⟨hp, hidle⟩ := isIdle_of_mem_bulletSpellings sp hsp
  rcases kind_settle hp a with hk | hk
  · rw [hk]
    exact hidle tasks
  · rw [hk]
    rfl

/-- A pass without bullets does not react to what is found for them. -/
theorem live_with_bullets (s : List Char) :
    live ⟨tasks, false⟩ (tagAt? (active ⟨tasks, true⟩) s) =
      live ⟨tasks, false⟩ (tagAt? (active ⟨tasks, false⟩) s) := by
  rw [active_with_bullets, tagAt?_append_spellings]
  cases tagAt? (active ⟨tasks, false⟩) s with
  | some t => rfl
  | none =>
    cases h : tagAt? bulletSpellings s with
    | none => rfl
    | some t => simp [live, isIdle_of_bulletSpellings h]

/-! ## The two passes over the same tokens -/

theorem transform_without_bullets (tasks : Bool) (html : String) :
    transform ⟨tasks, false⟩ html = wrapBody (String.ofList
      (interleave (gapsFrom html.toList 0 (scan ⟨tasks, true⟩ html))
        (outputsFor ⟨tasks, false⟩ ⟨tasks, true⟩ html))) := by
  rw [transform, ← run_segments_of_live fun r _ => live_with_bullets r, run_eq_interleave]

theorem replacement?_of_not_plainItem {k : Kind} (hk : k.isPlainItem = false) (f g : Features)
    (st : PassState) : st.replacement? f k = st.replacement? g k := by
  cases k <;> first | rfl | cases hk

/-- For a token the two passes emit the same text, or it is a plain item without and with its
bullet. -/
theorem replace_without_bullets {s : List Char} {t : Tag}
    (h : tagAt? (active ⟨tasks, true⟩) s = some t) (st : PassState) :
    (st.replace ⟨tasks, false⟩ t).1 = (st.replace ⟨tasks, true⟩ t).1 ∨
      (t.kind.isPlainItem = true ∧
        (st.replace ⟨tasks, false⟩ t).1 = (plainMarkup t.kind).toList ∧
        (st.replace ⟨tasks, true⟩ t).1 = (bulletMarkup t.kind).toList) := by
  cases hk : t.kind.isPlainItem with
  | false =>
    left
    rw [PassState.replace, PassState.replace, replacement?_of_not_plainItem hk ⟨tasks, true⟩]
  | true =>
    rw [replace_plainItem hk h, replace_plainItem hk h]
    cases hw : st.wantsBullet ⟨tasks, true⟩ with
    | false => exact .inl rfl
    | true => exact .inr ⟨rfl, rfl, rfl⟩

/-! ## Documents without bulleted lists -/

theorem not_mem_openLists_next {st : PassState} {k : Kind} (hk : k ≠ .unorderedOpen)
    (h : .unordered ∉ st.lists.openLists) : .unordered ∉ (st.next k).lists.openLists := by
  have hdrop : ListKind.unordered ∉ st.lists.openLists.dropLast :=
    fun hm => h (List.dropLast_subset _ hm)
  cases k with
  | unorderedOpen => exact absurd rfl hk
  | orderedOpen =>
    change ListKind.unordered ∉ (st.lists.push .ordered).openLists
    rcases Nat.lt_or_ge st.lists.count st.lists.capacity with hlt | hge
    · rw [ListNesting.openLists_push_of_lt _ _ hlt]
      simp [h]
    · rw [ListNesting.openLists_push_of_eq _ _ (Nat.le_antisymm st.lists.count_le hge)]
      simp [hdrop]
  | orderedClose | unorderedClose =>
    change ListKind.unordered ∉ st.lists.pop.openLists
    rwa [ListNesting.openLists_pop]
  | _ => exact h

/-- Without an opening tag of one, no bulleted list is recorded. -/
theorem not_mem_openLists_after {l : List Tag} (hl : ∀ t ∈ l, t.kind ≠ .unorderedOpen)
    {st : PassState} (h : .unordered ∉ st.lists.openLists) :
    .unordered ∉ (st.after l).lists.openLists := by
  induction l generalizing st with
  | nil => exact h
  | cons t l ih =>
    rw [List.forall_mem_cons] at hl
    exact ih hl.2 (not_mem_openLists_next hl.1 h)

theorem exactTexts_unorderedOpen : Kind.unorderedOpen.exactTexts = ["<ul>"] := by decide

/-- A token that opens a bulleted list is written in one way only. -/
theorem infix_of_unorderedOpen {f : Features} {html : String} {t : Token} (h : t ∈ scan f html)
    (hk : t.kind = .unorderedOpen) : "<ul>".toList <:+: html.toList := by
  have hat := mem_scan_iff.1 h
  have hx := isExact_of_tagAt? hat (by rw [hk]; decide)
  rw [hk] at hx
  obtain ⟨text, hm, ht⟩ := mem_exactTexts rfl hx
  rw [exactTexts_unorderedOpen, List.mem_singleton] at hm
  have hp : t.text <+: html.toList.drop t.start := ⟨_, tagAt?_append hat⟩
  rw [ht, hm] at hp
  exact hp.isInfix.trans (List.drop_suffix ..).isInfix

theorem wantsBullet_eq_false {f : Features} {st : PassState}
    (h : .unordered ∉ st.lists.openLists) : st.wantsBullet f = false := by
  rw [PassState.wantsBullet, ListNesting.inUnordered, ListNesting.innermost?_eq]
  have : st.lists.openLists.getLast? ≠ some .unordered := fun hl => h (List.mem_of_getLast? hl)
  simp [this]

/-- Where no bulleted list opens, the two passes emit the same texts. -/
theorem outputsFor_without_lists {html : String} (h : ¬"<ul>".toList <:+: html.toList) :
    outputsFor ⟨tasks, false⟩ ⟨tasks, true⟩ html = outputs ⟨tasks, true⟩ html := by
  refine List.ext_getElem? fun i => ?_
  rw [outputs_eq_outputsFor, getElem?_outputsFor, getElem?_outputsFor]
  have hst : .unordered ∉ (stateBefore ⟨tasks, true⟩ html i).lists.openLists := by
    refine not_mem_openLists_after (fun t ht hk => ?_) (by decide)
    obtain ⟨u, hu, rfl⟩ := List.mem_map.1 (List.mem_of_mem_take ht)
    exact h (infix_of_unorderedOpen hu hk)
  refine congrFun (congrArg Option.map (funext fun t => ?_)) _
  rw [PassState.replace, PassState.replace, replacement?_congr rfl
    ((wantsBullet_eq_false hst).trans (wantsBullet_eq_false hst).symm)]

/-! ## Documents -/

/-- With bullets and without, a preview is made of the same number of pieces, which are the gaps
around the tokens that are found with bullets, and the texts emitted for them. -/
structure DifferByBullets (tasks : Bool) (html : String) (gaps offs ons : List (List Char)) :
    Prop where
  off : transform ⟨tasks, false⟩ html = wrapBody (String.ofList (interleave gaps offs))
  on : transform ⟨tasks, true⟩ html = wrapBody (String.ofList (interleave gaps ons))
  gaps_length : gaps.length = (scan ⟨tasks, true⟩ html).length + 1
  offs_length : offs.length = (scan ⟨tasks, true⟩ html).length
  ons_length : ons.length = (scan ⟨tasks, true⟩ html).length
  /-- The two texts for a token are the same, or those of a plain item. -/
  differ : ∀ (i : Nat) (t : Token), (scan ⟨tasks, true⟩ html)[i]? = some t → offs[i]? = ons[i]? ∨
    (t.kind = .itemOpen ∧ offs[i]? = some itemTag.toList ∧
      ons[i]? = some (itemOf "bullet" ++ bulletBox).toList) ∨
    (t.kind = .itemPara ∧ offs[i]? = some (paragraphItemOf "p").toList ∧
      ons[i]? = some (paragraphItemOf "bulletp" ++ bulletBox).toList)
  same : ¬"<ul>".toList <:+: html.toList →
    transform ⟨tasks, true⟩ html = transform ⟨tasks, false⟩ html

/-- Bullets touch nothing but plain items. -/
theorem differByBullets (tasks : Bool) (html : String) : DifferByBullets tasks html
    (gapsFrom html.toList 0 (scan ⟨tasks, true⟩ html))
    (outputsFor ⟨tasks, false⟩ ⟨tasks, true⟩ html) (outputs ⟨tasks, true⟩ html) where
  off := transform_without_bullets tasks html
  on := transform_eq_interleave _ html
  gaps_length := length_gapsFrom ..
  offs_length := length_outputsFor ..
  ons_length := length_outputsFor ..
  differ i t h := by
    rw [outputs_eq_outputsFor, getElem?_outputsFor, getElem?_outputsFor, h]
    have hat := mem_scan_iff.1 (List.mem_of_getElem? h)
    rcases replace_without_bullets hat (stateBefore ⟨tasks, true⟩ html i) with he | ⟨hk, hoff, hon⟩
    · exact .inl (congrArg some he)
    · right
      simp only [Option.map_some, hoff, hon]
      simp only [Kind.isPlainItem, Bool.or_eq_true, decide_eq_true_eq] at hk
      rcases hk with hk | hk
      · exact .inl ⟨hk, by rw [hk]; rfl, by rw [hk]; rfl⟩
      · exact .inr ⟨hk, by rw [hk]; rfl, by rw [hk]; rfl⟩
  same h := by
    rw [transform_without_bullets, outputsFor_without_lists h, transform_eq_interleave]

/-- The item of a bulleted list gets its bullet, and in capitals there is no such list. -/
theorem differByBullets_item :
    (outputsFor ⟨false, false⟩ ⟨false, true⟩ "<ul><li>a</ul>")[1]? = some itemTag.toList ∧
    (outputs ⟨false, true⟩ "<ul><li>a</ul>")[1]? = some (itemOf "bullet" ++ bulletBox).toList ∧
    ¬"<ul>".toList <:+: "<UL><li>a</UL>".toList ∧
    transform ⟨false, true⟩ "<UL><li>a</UL>" = transform ⟨false, false⟩ "<UL><li>a</UL>" := by
  have hitem : (scan ⟨false, true⟩ "<ul><li>a</ul>")[1]? =
      some ⟨⟨.itemOpen, "<li>".toList⟩, 4⟩ := by decide +kernel
  have hne : (outputsFor ⟨false, false⟩ ⟨false, true⟩ "<ul><li>a</ul>")[1]? ≠
      (outputs ⟨false, true⟩ "<ul><li>a</ul>")[1]? := by decide +kernel
  have hul : ¬"<ul>".toList <:+: "<UL><li>a</UL>".toList := by decide +kernel
  rcases (differByBullets false "<ul><li>a</ul>").differ 1 _ hitem with he | ⟨-, hoff, hon⟩ | ⟨hk, -⟩
  · exact absurd he hne
  · exact ⟨hoff, hon, hul, (differByBullets false "<UL><li>a</UL>").same hul⟩
  · cases hk

end MarkdownPreview.Markup

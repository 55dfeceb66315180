import MarkdownPreview.Proofs.Markup.Emission
import MarkdownPreview.Proofs.Markup.ListEvents
import MarkdownPreview.Proofs.Markup.Walk

/-!
# Bullets follow the open lists

A pass decides on the bullet of an item by its record of open lists. As long as no more lists have
been open than the record has slots, it holds exactly the lists that `stackAt` reads off the text,
whatever tags are missing their counterpart.

* `openLists_run`: the record agrees with the text wherever a pass has come.
* `bullets_follow_stack`: a plain item gets its bullet exactly if the innermost list that is open in
  the text is a bulleted one.
-/
namespace MarkdownPreview.Markup

/-! ## The record on the way through a text -/

/-- At no place up to `i` have more lists been open than a document's record has slots. -/
def FitsTo (s : List Char) (i : Nat) : Prop :=
  ∀ j, j ≤ i → (stackAt s j).length ≤ ListNesting.documentDepth

theorem FitsTo.mono {s : List Char} {i j : Nat} (h : FitsTo s i) (hj : j ≤ i) : FitsTo s j :=
  fun k hk => h k (Nat.le_trans hk hj)

/-- Wherever a pass has come, its record holds the lists that are open in the text there. -/
theorem openLists_run {f : Features} (hf : f.iconBullets = true) {s : List Char}
    {before after : List Segment} (h : segments f s = before ++ after)
    (hfit : FitsTo s (textOf before).length) :
    (run f .initial before).2.lists.openLists.reverse = stackAt s (textOf before).length := by
  have key := run_invariant (f := f) (s := s) (P := fun st i => FitsTo s i →
    st.lists.capacity = ListNesting.documentDepth ∧ st.lists.openLists.reverse = stackAt s i)
    (fun _ => ⟨rfl, rfl⟩) ?_ ?_ h
  · exact (key hfit).2
  · intro st i hn hst hi
    rw [stackAt, listEvent?_of_no_tag hf hn]
    exact hst (hi.mono (Nat.le_succ i))
  · intro st i t ht hst hi
    obtain ⟨hcap, hlists⟩ := hst (hi.mono (Nat.le_succ i))
    have hle := hi (i + 1) (Nat.le_refl _)
    rw [stackAt, listEvent?_of_tagAt? hf ht] at hle ⊢
    rw [lists_next, capacity_after]
    exact ⟨hcap, openLists_after hlists (hcap ▸ hle)⟩

/-! ## The bullet of an item -/

/-- Whether tags of this kind are items without a marker, which may get a bullet. -/
def Kind.isPlainItem (k : Kind) : Bool :=
  k = .itemOpen || k = .itemPara

/-- What is emitted for a plain item with a bullet. -/
def bulletMarkup : Kind → String
  | .itemPara => paragraphItemOf "bulletp" ++ bulletBox
  | _ => itemOf "bullet" ++ bulletBox

/-- What is emitted for a plain item without a bullet. -/
def plainMarkup : Kind → String
  | .itemPara => paragraphItemOf "p"
  | _ => itemTag

theorem exactTexts_itemOpen : Kind.itemOpen.exactTexts = [itemTag] := by decide

/-- A plain item is emitted with a bullet or without one. -/
theorem replace_plainItem {g : Features} {s : List Char} {t : Tag} (hk : t.kind.isPlainItem = true)
    (h : tagAt? (active g) s = some t) (f : Features) (st : PassState) : (st.replace f t).1 =
      (if st.wantsBullet f then bulletMarkup t.kind else plainMarkup t.kind).toList := by
  obtain ⟨k, text⟩ := t
  simp only [Kind.isPlainItem, Bool.or_eq_true, decide_eq_true_eq] at hk
  rcases hk with rfl | rfl
  · obtain ⟨item, hm, rfl⟩ := mem_exactTexts rfl (isExact_of_tagAt? h (by simp))
    rw [exactTexts_itemOpen, List.mem_singleton] at hm
    rw [hm, PassState.replace, PassState.replacement?]
    split <;> simp only [Option.map_some, Option.map_none, Option.getD_some, Option.getD_none,
      bulletMarkup, plainMarkup]
  · rw [PassState.replace, PassState.replacement?]
    split <;> simp only [Option.map_some, Option.getD_some, bulletMarkup, plainMarkup]

theorem wantsBullet_iff {f : Features} (hf : f.iconBullets = true) (st : PassState) :
    st.wantsBullet f = true ↔ st.lists.openLists.reverse.head? = some .unordered := by
  rw [PassState.wantsBullet, hf, Bool.true_and, ListNesting.inUnordered, decide_eq_true_iff,
    ListNesting.innermost?_eq, List.head?_reverse]

theorem bulletMarkup_ne_plainMarkup (k : Kind) : bulletMarkup k ≠ plainMarkup k := by
  unfold bulletMarkup plainMarkup
  split <;> decide

/-- A plain item is emitted with its bullet exactly if the innermost open list is a bulleted one. -/
theorem bullet_iff_head?_stackAt {f : Features} (hf : f.iconBullets = true) {html : String}
    {t : Token} {out : List Char} (h : (t, out) ∈ emissions f html)
    (hk : t.kind.isPlainItem = true) (hfit : FitsTo html.toList t.start) :
    ((stackAt html.toList t.start).head? = some .unordered ↔
      out = (bulletMarkup t.kind).toList) ∧
    ((stackAt html.toList t.start).head? ≠ some .unordered →
      out = (plainMarkup t.kind).toList) := by
  have hat := mem_scan_iff.1 (mem_scan_of_mem_emissions h)
  obtain ⟨before, after, hl, hs, rfl⟩ := mem_emissions_iff.1 h
  rw [hs] at hfit
  rw [hs, ← openLists_run hf hl hfit, ne_eq, ← wantsBullet_iff hf, replace_plainItem hk hat]
  split
  · rename_i hw
    exact ⟨⟨fun _ => rfl, fun _ => hw⟩, fun hn => absurd hw hn⟩
  · rename_i hw
    refine ⟨⟨fun hp => absurd hp hw, fun he => ?_⟩, fun _ => rfl⟩
    exact absurd (String.toList_inj.1 he).symm (bulletMarkup_ne_plainMarkup t.kind)

/-- Every item without a marker is emitted with its bullet exactly if the innermost open list is a
bulleted one, where the open lists are read off the text, whatever tags are missing their
counterpart. -/
theorem bullets_follow_stack {f : Features} (hf : f.iconBullets = true) (html : String) :
    transform f html = wrapBody (String.ofList (weave html.toList 0 (emissions f html))) ∧
    (emissions f html).map Prod.fst = scan f html ∧
    ∀ t out, (t, out) ∈ emissions f html → t.kind.isPlainItem = true →
      FitsTo html.toList t.start →
      ((stackAt html.toList t.start).head? = some .unordered ↔
        out = (bulletMarkup t.kind).toList) ∧
      ((stackAt html.toList t.start).head? ≠ some .unordered →
        out = (plainMarkup t.kind).toList) :=
  ⟨transform_eq_weave f html, map_fst_emissions f html,
    fun _ _ h hk hfit => bullet_iff_head?_stackAt hf h hk hfit⟩

/-- An item of a bulleted list behind a stray closing tag. -/
theorem bullets_follow_stack_stray : ∃ t out,
    (t, out) ∈ emissions ⟨false, true⟩ "</ol><ul><li>a</ul>" ∧ t.kind.isPlainItem = true ∧
      FitsTo "</ol><ul><li>a</ul>".toList t.start ∧ out = (bulletMarkup t.kind).toList := by
  have h := (bullets_follow_stack (f := ⟨false, true⟩) rfl "</ol><ul><li>a</ul>").2.2
  have hmem : (⟨⟨.itemOpen, "<li>".toList⟩, 9⟩, (bulletMarkup .itemOpen).toList) ∈
      emissions ⟨false, true⟩ "</ol><ul><li>a</ul>" := by decide +kernel
  have hfit : FitsTo "</ol><ul><li>a</ul>".toList 9 := by
    unfold FitsTo
    decide +kernel
  exact ⟨_, _, hmem, rfl, hfit, (h _ _ hmem rfl hfit).1.1 (by decide +kernel)⟩

end MarkdownPreview.Markup

import Mathlib.Tactic.Linarith
import MarkdownPreview.Proofs.Markup.ItemBoxes
import MarkdownPreview.Proofs.Markup.ItemGap
import MarkdownPreview.Proofs.Markup.Partition
import MarkdownPreview.Proofs.Markup.Replacements

/-!
# How much longer a document gets

A pass copies what stands between the tokens and puts one text in the place of each token. The
length of the result is therefore the length of the gaps and that of the emitted texts, and a bound
for one token is a bound for the document. A token is at least as long as the shortest text that is
exact for its kind, however many blanks it has besides, and the longest text that takes the place
of one is the bullet of a plain item: 75 characters for the four of `<li>`.

* `length_replace_le`: the bound for one token, in any state.
* `length_content_and_source`: the lengths of a document and of its content, part by part.
* `growth_bounded`: four times the length of the content is at most 75 times that of the document.
* `factor_of_bound`: no smaller factor will do.
-/
namespace MarkdownPreview.Markup

/-! ## One token -/

/-- Closing a gap makes no text longer. -/
theorem GapClosed.length_le {a b : List Char} (h : GapClosed a b) : b.length ≤ a.length := by
  rcases h with ⟨item, w, r, hg, rfl⟩ | ⟨-, rfl⟩
  · rw [hg.eq]
    simp only [List.length_append]
    omega
  · exact Nat.le_refl _

/-- The length of the shortest text that is exact for a kind, if tags of the kind are replaced. -/
def Kind.shortest : Kind → Nat
  | .rowOpen | .itemOpen => 4
  | .rule | .delOpen => 5
  | .delClose => 6
  | .itemPara | .itemChecked | .itemUnchecked => 7
  | .itemParaChecked | .itemParaUnchecked => 10
  | .taskItem => 27
  | .taskItemPara => 30
  | _ => 0

theorem shortest_le_of_canonical : ∀ sp ∈ vocabulary, ∀ text ∈ sp.canonical,
    sp.kind.shortest ≤ text.length := by
  decide +kernel

/-- No tag of a kind is shorter. -/
theorem shortest_le {sps : List Spelling} {s : List Char} {t : Tag}
    (h : tagAt? sps s = some t) (hk : t.kind ≠ .other) : t.kind.shortest ≤ t.text.length := by
  obtain ⟨sp, hsp, hkind, text, ht, hg⟩ := isExact_iff_exists.1 (isExact_of_tagAt? h hk)
  have hle := hg.length_le
  rw [String.length_toList] at hle
  exact hkind ▸ Nat.le_trans (shortest_le_of_canonical sp hsp text ht) hle

theorem length_itemOf (cls : String) : (itemOf cls).length = 13 + cls.length := by
  have hopen : "<li class=\"".length = 11 := by decide +kernel
  have hclose : "\">".length = 2 := by decide +kernel
  rw [itemOf, String.length_append, String.length_append, hopen, hclose]
  omega

theorem length_paragraphItemOf (cls : String) :
    (paragraphItemOf cls).length = 26 + cls.length := by
  have hpara : "<p class=\"p\">".length = 13 := by decide +kernel
  rw [paragraphItemOf, String.length_append, length_itemOf, hpara]
  omega

theorem length_boxes :
    bulletBox.length = 56 ∧ checkedBox.length = 93 ∧ uncheckedBox.length = 75 := by
  decide +kernel

/-- A text that can take the place of a tag is at most 75/4 times as long as the shortest such
tag. -/
theorem length_replacements_le {k : Kind} {w : String} (h : w ∈ k.replacements) :
    4 * w.length ≤ 75 * k.shortest := by
  obtain ⟨hbullet, hchecked, hunchecked⟩ := length_boxes
  cases k with
  | rowOpen | rule | delOpen | delClose =>
    revert w
    decide +kernel
  | itemPara =>
    simp only [Kind.replacements, List.mem_cons, List.not_mem_nil, or_false] at h
    rcases h with rfl | rfl
    · rw [String.length_append, length_paragraphItemOf, hbullet]
      decide +kernel
    · rw [length_paragraphItemOf]
      decide +kernel
  | itemOpen | itemChecked | itemUnchecked | taskItem | itemParaChecked | itemParaUnchecked
  | taskItemPara =>
    rw [List.mem_singleton.1 h]
    simp only [String.length_append, length_paragraphItemOf, length_itemOf, hbullet, hchecked,
      hunchecked]
    decide +kernel
  | _ => cases h

/-- What is emitted for a tag is at most 75/4 times as long. -/
theorem length_replace_le {g : Features} {s : List Char} {t : Tag}
    (h : tagAt? (active g) s = some t) (f : Features) (st : PassState) :
    4 * (st.replace f t).1.length ≤ 75 * t.text.length := by
  rcases text_replace f st t with hout | ⟨w, hw, hout⟩
  · rw [hout]
    omega
  · -- a tag that is replaced is of a kind, and so its text is exact
    have hk : t.kind ≠ .other := by
      intro he
      rw [he] at hw
      cases hw
    have hbound := length_replacements_le hw
    have hle := shortest_le h hk
    rw [hout, String.length_toList]
    omega

/-! ## The whole document -/

theorem length_interleave {gaps texts : List (List Char)} (h : texts.length ≤ gaps.length) :
    (interleave gaps texts).length = gaps.flatten.length + texts.flatten.length := by
  induction gaps generalizing texts with
  | nil =>
    obtain rfl := List.eq_nil_of_length_eq_zero (Nat.le_zero.1 h)
    rfl
  | cons g gaps ih =>
    cases texts with
    | nil => exact (Nat.add_zero _).symm
    | cons x texts =>
      have hrest := ih (Nat.le_of_succ_le_succ h)
      simp only [interleave, List.length_append, List.flatten_cons, hrest]
      omega

theorem map_snd_emissions (f : Features) (html : String) :
    (emissions f html).map Prod.snd = outputs f html := by
  refine List.map_snd_zip ?_
  rw [List.length_map, length_steps]
  exact Nat.le_of_eq (List.length_map ..)

/-- What stands between the tokens of a document, all together. -/
def gapText (f : Features) (html : String) : List Char :=
  (gapsFrom html.toList 0 (scan f html)).flatten

/-- A document is made of its gaps and its tokens, and its content of the same gaps and the emitted
texts. -/
theorem length_content_and_source (f : Features) (html : String) :
    html.length = (gapText f html).length + ((emissions f html).map fun x => x.1.text.length).sum ∧
    (content f html.toList).length =
      (gapText f html).length + ((emissions f html).map fun x => x.2.length).sum := by
  have hgaps := length_gapsFrom html.toList 0 (scan f html)
  constructor
  · have htexts : ((scan f html).map fun t => t.text).flatten.length =
        ((emissions f html).map fun x => x.1.text.length).sum := by
      rw [← map_fst_emissions, List.length_flatten, List.map_map, List.map_map]
      rfl
    have hsource := congrArg List.length (interleave_texts (standFrom_scan f html))
    rw [length_interleave (by rw [hgaps, List.length_map]; omega), htexts, List.drop_zero,
      String.length_toList] at hsource
    exact hsource.symm
  · have houts : (outputs f html).flatten.length =
        ((emissions f html).map fun x => x.2.length).sum := by
      rw [← map_snd_emissions, List.length_flatten, List.map_map]
      rfl
    have hlength := length_outputsFor f f html
    rw [content, run_eq_interleave, length_interleave (by omega), ← outputs_eq_outputsFor, houts]
    rfl

/-- A bound for each emitted text is one for all of them. -/
theorem sum_lengths_le {l : List (Token × List Char)}
    (h : ∀ x ∈ l, 4 * x.2.length ≤ 75 * x.1.text.length) :
    4 * (l.map fun x => x.2.length).sum ≤ 75 * (l.map fun x => x.1.text.length).sum := by
  induction l with
  | nil => exact Nat.le_refl _
  | cons x l ih =>
    obtain ⟨hx, hl⟩ := List.forall_mem_cons.1 h
    have := ih hl
    simp only [List.map_cons, List.sum_cons]
    omega

/-- A document's content is at most 75/4 times as long as the document, and why. -/
structure GrowthBounded (f : Features) (html content : String) : Prop where
  result : transform f html = wrapBody content
  /-- What stands between the tokens is copied once. -/
  source_length : html.length =
    (gapText f html).length + ((emissions f html).map fun x => x.1.text.length).sum
  content_length : content.length =
    (gapText f html).length + ((emissions f html).map fun x => x.2.length).sum
  emitted : ∀ t out, (t, out) ∈ emissions f html → 4 * out.length ≤ 75 * t.text.length
  bound : 4 * content.length ≤ 75 * html.length

/-- Whatever a document holds, its preview's content is at most 75/4 times as long. -/
theorem growth_bounded (f : Features) (html : String) :
    ∃ content, GrowthBounded f html content := by
  obtain ⟨hsource, hcontent⟩ := length_content_and_source f html
  have hemitted : ∀ x ∈ emissions f html, 4 * x.2.length ≤ 75 * x.1.text.length := by
    rintro ⟨t, out⟩ hx
    have hat := mem_scan_iff.1 (mem_scan_of_mem_emissions hx)
    obtain ⟨before, after, -, -, rfl⟩ := mem_emissions_iff.1 hx
    exact length_replace_le hat f _
  have hsum := sum_lengths_le hemitted
  refine ⟨String.ofList (content f html.toList), rfl, hsource, ?_, fun t out => hemitted (t, out),
    ?_⟩
  · rw [String.length_ofList]
    exact hcontent
  · rw [String.length_ofList]
    omega

/-! ## The bound is sharp -/

/-- Items of a list without any text, one behind the other. -/
def emptyItems (n : Nat) : List Char :=
  (List.replicate n itemTag.toList).flatten

theorem emptyItems_succ (n : Nat) : emptyItems (n + 1) = itemTag.toList ++ emptyItems n := by
  rw [emptyItems, List.replicate_succ, List.flatten_cons, emptyItems]

theorem length_emptyItems (n : Nat) : (emptyItems n).length = 4 * n := by
  induction n with
  | zero => rfl
  | succ n ih =>
    have htag : itemTag.toList.length = 4 := rfl
    rw [emptyItems_succ, List.length_append, ih, htag]
    omega

section
variable {tasks : Bool}

theorem segments_emptyItems (n : Nat) : segments ⟨tasks, true⟩ (emptyItems n) =
    List.replicate n (.tag ⟨.itemOpen, itemTag.toList⟩) := by
  induction n with
  | zero => rfl
  | succ n ih =>
    have hat : tagAt? (active ⟨tasks, true⟩) (itemTag.toList ++ emptyItems n) =
        some ⟨.itemOpen, itemTag.toList⟩ := by
      cases n with
      | zero => cases tasks <;> rfl
      | succ n =>
        rw [emptyItems_succ]
        cases tasks <;> rfl
    rw [emptyItems_succ, segments_of_tagAt? hat, ih, List.replicate_succ]

theorem length_run_items {st : PassState} (h : st.lists.inUnordered = true) (n : Nat) :
    (run ⟨tasks, true⟩ st (List.replicate n (.tag ⟨.itemOpen, itemTag.toList⟩))).1.length =
      75 * n := by
  induction n with
  | zero => rfl
  | succ n ih =>
    have hw : st.replacement? ⟨tasks, true⟩ .itemOpen = some (itemOf "bullet" ++ bulletBox) := by
      rw [PassState.replacement?, PassState.wantsBullet, h]
      rfl
    have hout : (st.replace ⟨tasks, true⟩ ⟨.itemOpen, itemTag.toList⟩).1.length = 75 := by
      rw [replace_of_replacement? (t := ⟨.itemOpen, itemTag.toList⟩) hw, String.length_toList,
        String.length_append, length_itemOf, length_boxes.1]
      decide +kernel
    have hnext : (st.replace ⟨tasks, true⟩ ⟨.itemOpen, itemTag.toList⟩).2 = st := rfl
    rw [List.replicate_succ, run]
    simp only [List.length_append, hout, hnext, ih]
    omega

/-- In a bulleted list, items without a text grow by the whole factor. -/
theorem length_content_items (n : Nat) :
    (content ⟨tasks, true⟩ ("<ul>".toList ++ emptyItems n)).length = 4 + 75 * n := by
  have hat : tagAt? (active ⟨tasks, true⟩) ("<ul>".toList ++ emptyItems n) =
      some ⟨.unorderedOpen, "<ul>".toList⟩ := tagAt?_of_mem_listTags rfl (by simp [listTags]) _
  rw [content, segments_of_tagAt? hat, segments_emptyItems]
  have hbulleted : (PassState.initial.next .unorderedOpen).lists.inUnordered = true := rfl
  simp only [run, List.length_append]
  exact congrArg (4 + ·) (length_run_items hbulleted n)

/-- So no smaller factor is a bound. -/
theorem factor_of_bound {c d : Nat}
    (h : ∀ html, d * (content ⟨tasks, true⟩ html).length ≤ c * html.length) : 75 * d ≤ 4 * c := by
  refine Nat.le_of_not_lt fun hlt => ?_
  have hopen : "<ul>".toList.length = 4 := rfl
  have hn := h ("<ul>".toList ++ emptyItems (4 * c + 1))
  rw [length_content_items, List.length_append, hopen, length_emptyItems] at hn
  -- with this many items, what the factor lacks outgrows the four characters of the list's tag
  have hlack := Nat.mul_le_mul_right (4 * c + 1) (Nat.succ_le_of_lt hlt)
  nlinarith

end

end MarkdownPreview.Markup

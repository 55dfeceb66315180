import MarkdownPreview.Proofs.Markup.Partition

/-!
# Documents that are only wrapped

A pass leaves a document as it is, but for the body around it, exactly if it replaces none of its
tokens: where a replacement begins, it differs from the text of its token at a place that both have
(`differs`), so that nothing behind it can make up for it.

* `differs_replacement?`: no replacement and no tag that it may replace begin alike.
* `run_eq_textOf_iff`: a pass over segments gives their text exactly if it replaces no tag.
* `transform_eq_wrapBody_iff`: the same by the kinds of the tokens and the open lists, and by the
  bare text: a document without the seven texts that begin what is replaced is only wrapped.
-/
namespace MarkdownPreview.Markup

/-! ## Texts that differ at a common place -/

/-- Whether two texts differ at a place that both have. -/
def differs : List Char → List Char → Bool
  | c :: a, d :: b => c != d || differs a b
  | _, _ => false

theorem append_ne_of_differs {a b : List Char} (h : differs a b = true) (x y : List Char) :
    a ++ x ≠ b ++ y := by
  induction a generalizing b with
  | nil => cases h
  | cons c a ih =>
    cases b with
    | nil => cases h
    | cons d b =>
      rw [differs, Bool.or_eq_true, bne_iff_ne] at h
      intro he
      obtain ⟨hc, hrest⟩ := List.cons.inj he
      rcases h with h | h
      · exact h hc
      · exact ih h hrest

theorem differs_append {a b : List Char} (h : differs a b = true) (y : List Char) :
    differs a (b ++ y) = true := by
  induction a generalizing b with
  | nil => cases h
  | cons c a ih =>
    cases b with
    | nil => cases h
    | cons d b =>
      rw [differs, Bool.or_eq_true] at h
      rw [List.cons_append, differs, Bool.or_eq_true]
      exact h.imp_right ih

/-! ## How replaced tags begin -/

/-- The texts one of which begins every tag of a kind that a pass may replace. -/
def Kind.starts : Kind → List String
  | .rowOpen => ["<tr>"]
  | .rule => ["<hr/>", "<hr />"]
  | .delOpen => ["<del>"]
  | .delClose => ["</del>"]
  | .itemOpen | .itemChecked | .itemUnchecked | .itemPara | .itemParaChecked
  | .itemParaUnchecked => [itemTag]
  | .taskItem | .taskItemPara => [taskItemTag]
  | _ => []

theorem starts_of_mem_vocabulary : ∀ sp ∈ vocabulary, ∀ text ∈ sp.canonical,
    (sp.kind.starts ≠ [] → ∃ start ∈ sp.kind.starts, start.toList <+: text.toList) ∧
    ∀ item ∈ [itemTag, taskItemTag], (item.toList ++ "<p>".toList) <+: text.toList →
      item ∈ sp.kind.starts := by decide

/-- A tag of such a kind begins with one of the texts. -/
theorem exists_start_of_tagAt? {sps : List Spelling} {s : List Char} {t : Tag}
    (h : tagAt? sps s = some t) (hk : t.kind.starts ≠ []) :
    ∃ start ∈ t.kind.starts, start.toList <+: t.text := by
  have hne : t.kind ≠ .other := by
    intro he
    rw [he] at hk
    exact hk rfl
  obtain ⟨sp, hsp, hkind, text, ht, hg⟩ := isExact_iff_exists.1 (isExact_of_tagAt? h hne)
  rw [← hkind] at hk ⊢
  obtain ⟨hstart, hitem⟩ := starts_of_mem_vocabulary sp hsp text ht
  rcases hg with ⟨item, w, r, ⟨hm, -, he⟩, htext⟩ | ⟨-, htext⟩
  · refine ⟨item, hitem item hm (htext ▸ List.prefix_append ..), ?_⟩
    rw [he, List.append_assoc, List.append_assoc]
    exact List.prefix_append ..
  · exact htext ▸ hstart hk

/-! ## Replacements begin otherwise -/

theorem differs_itemOf (cls rest : String) :
    differs itemTag.toList (itemOf cls ++ rest).toList = true := by
  have hstart : differs itemTag.toList "<li class=\"".toList = true := by decide
  rw [itemOf, String.append_assoc, String.append_assoc, String.toList_append]
  exact differs_append hstart _

theorem paragraphItemOf_append (cls rest : String) :
    paragraphItemOf cls ++ rest = itemOf cls ++ ("<p class=\"p\">" ++ rest) :=
  String.append_assoc ..

/-- The tag of an item is replaced by one with a class. -/
theorem differs_replacement?_item {f : Features} {st : PassState} {k : Kind} {w : String}
    (hk : k.starts = [itemTag]) (h : st.replacement? f k = some w) :
    differs itemTag.toList w.toList = true := by
  cases k with
  | itemOpen =>
    obtain ⟨-, he⟩ := Option.ite_none_right_eq_some.1 h
    cases he
    exact differs_itemOf ..
  | itemPara =>
    simp only [PassState.replacement?] at h
    split at h <;> cases h
    · rw [paragraphItemOf_append]
      exact differs_itemOf ..
    · exact differs_itemOf ..
  | itemChecked | itemUnchecked =>
    cases h
    exact differs_itemOf ..
  | itemParaChecked | itemParaUnchecked =>
    cases h
    rw [paragraphItemOf_append]
    exact differs_itemOf ..
  | _ => exact absurd hk (by decide)

/-- No replacement begins like a tag that it may take the place of. -/
theorem differs_replacement? {f : Features} {st : PassState} {k : Kind} {w start : String}
    (h : st.replacement? f k = some w) (hs : start ∈ k.starts) :
    differs start.toList w.toList = true := by
  cases k with
  | rowOpen =>
    cases h
    cases List.mem_singleton.1 hs
    have hrow : differs "<tr>".toList "<tr class=\"".toList = true := by decide
    rw [String.append_assoc, String.toList_append]
    exact differs_append hrow _
  | rule | delOpen | delClose | taskItem | taskItemPara =>
    cases h
    revert start
    decide
  | itemOpen | itemChecked | itemUnchecked | itemPara | itemParaChecked | itemParaUnchecked =>
    cases List.mem_singleton.1 hs
    exact differs_replacement?_item rfl h
  | _ => cases hs

/-- What is replaced has a kind whose tags begin with fixed texts. -/
theorem starts_ne_nil_of_replacement? {f : Features} {st : PassState} {k : Kind} {w : String}
    (h : st.replacement? f k = some w) : k.starts ≠ [] := by
  cases k <;> first | exact List.cons_ne_nil _ _ | cases h

/-- A tag and its replacement never make the same text, whatever follows them. -/
theorem replacement?_append_ne {f g : Features} {st : PassState} {s : List Char} {t : Tag}
    {w : String} (ht : tagAt? (active g) s = some t) (h : st.replacement? f t.kind = some w)
    (x y : List Char) : w.toList ++ x ≠ t.text ++ y := by
  obtain ⟨start, hs, r, hr⟩ := exists_start_of_tagAt? ht (starts_ne_nil_of_replacement? h)
  rw [← hr, List.append_assoc]
  exact (append_ne_of_differs (differs_replacement? h hs) (r ++ y) x).symm

/-! ## A pass that replaces nothing -/

/-- A pass over segments gives their text exactly if it replaces no tag. -/
theorem run_eq_textOf_iff {f : Features} {l : List Segment} (hl : Reads f l) (st : PassState) :
    (run f st l).1 = textOf l ↔ ∀ i t, (tagsOf l)[i]? = some t →
      (st.after ((tagsOf l).take i)).replacement? f t.kind = none := by
  induction l generalizing st with
  | nil => simp [run]
  | cons x l ih =>
    cases x with
    | plain c =>
      rw [tagsOf_plain, ← ih hl.2 st]
      exact List.cons_inj_right c
    | tag t =>
      have hrun : (run f st (.tag t :: l)).1 =
          (((st.replacement? f t.kind).map String.toList).getD t.text) ++
            (run f (st.next t.kind) l).1 := rfl
      rw [tagsOf_tag, textOf_tag, hrun]
      cases hw : st.replacement? f t.kind with
      | some w =>
        refine iff_of_false (replacement?_append_ne hl.1 hw _ _) fun h => ?_
        have := h 0 t rfl
        rw [List.take_zero] at this
        exact Option.some_ne_none w (hw.symm.trans this)
      | none =>
        rw [Option.map_none, Option.getD_none, List.append_cancel_left_eq, ih hl.2]
        constructor
        · intro h i u hu
          cases i with
          | zero =>
            cases hu
            exact hw
          | succ i => exact h i u hu
        · exact fun h i u hu => h (i + 1) u hu

/-! ## Documents -/

/-- The kinds of the tags that a pass replaces wherever it meets them. -/
def replacedKinds : List Kind :=
  [.rowOpen, .rule, .delOpen, .delClose, .itemPara, .itemParaChecked, .itemParaUnchecked, .taskItem,
    .taskItemPara, .itemChecked, .itemUnchecked]

/-- While bullets are on, a tag is copied exactly if it is of no such kind, and no plain item in a
bulleted list. -/
theorem replacement?_eq_none_iff {f : Features} {st : PassState} {k : Kind}
    (hk : k = .itemOpen → f.iconBullets = true) : st.replacement? f k = none ↔
      k ∉ replacedKinds ∧ ¬(k = .itemOpen ∧ st.lists.innermost? = some .unordered) := by
  cases k with
  | itemOpen =>
    rw [PassState.replacement?, PassState.wantsBullet, hk rfl, ListNesting.inUnordered]
    simp [replacedKinds]
  | itemPara =>
    rw [PassState.replacement?]
    split <;> simp [replacedKinds]
  | _ => simp [PassState.replacement?, replacedKinds]

theorem kind_of_settle_itemOpen {k : Kind} {a : List Char} (h : (settle k a).kind = .itemOpen) :
    k = .itemOpen := by
  unfold settle at h
  extract_lets unmarked at h
  split at h
  · exact h
  · split at h <;> cases h

theorem need_of_itemOpen : ∀ sp ∈ vocabulary, sp.kind = .itemOpen →
    sp.need = some .iconBullets := by decide

/-- Plain items are looked for only while bullets are on. -/
theorem iconBullets_of_itemOpen {f : Features} {s : List Char} {t : Tag}
    (h : tagAt? (active f) s = some t) (hk : t.kind = .itemOpen) : f.iconBullets = true := by
  obtain ⟨sp, hsp, a, -, rfl⟩ := exists_take?_of_tagAt? h
  have hneed := need_of_itemOpen sp (mem_vocabulary_of_mem_active hsp) (kind_of_settle_itemOpen hk)
  have hallow := (List.mem_filter.1 hsp).2
  rwa [hneed] at hallow

/-- The texts that begin the tags which a pass may replace. -/
def replacedStarts : List String :=
  ["<tr>", "<hr/>", "<hr />", "<del>", "</del>", "<li>", "<li class=\"task-list-item\">"]

theorem starts_subset : ∀ k ∈ Kind.all, ∀ start ∈ k.starts, start ∈ replacedStarts := by
  decide

theorem starts_ne_nil : ∀ k ∈ Kind.itemOpen :: replacedKinds, k.starts ≠ [] := by decide

/-- A token that a pass may replace begins with one of these texts. -/
theorem exists_replacedStart {f : Features} {html : String} {t : Token} (h : t ∈ scan f html)
    (hk : t.kind ∈ Kind.itemOpen :: replacedKinds) :
    ∃ start ∈ replacedStarts, start.toList <:+: html.toList := by
  have hat := mem_scan_iff.1 h
  obtain ⟨start, hs, hp⟩ := exists_start_of_tagAt? hat (starts_ne_nil _ hk)
  have hdrop : t.text <+: html.toList.drop t.start := ⟨_, tagAt?_append hat⟩
  exact ⟨start, starts_subset _ t.kind.mem_all _ hs,
    (hp.trans hdrop).isInfix.trans (List.drop_suffix ..).isInfix⟩

theorem wrapBody_injective {a b : String} (h : wrapBody a = wrapBody b) : a = b := by
  have hl := congrArg String.toList h
  simp only [wrapBody, String.toList_append] at hl
  exact String.toList_inj.1 (List.append_cancel_left (List.append_cancel_right hl))

/-- A document is only wrapped exactly if a pass replaces none of its tokens. -/
theorem only_wrapped_iff_copied (f : Features) (html : String) :
    transform f html = wrapBody html ↔ ∀ i t, (scan f html)[i]? = some t →
      (stateBefore f html i).replacement? f t.kind = none := by
  have hrun := run_eq_textOf_iff (reads_segments f html.toList) .initial
  rw [textOf_segments] at hrun
  have htags : ∀ i, (tagsOf (segments f html.toList))[i]? = (scan f html)[i]?.map Token.toTag :=
    fun i => List.getElem?_map
  constructor
  · intro h i t ht
    have hcontent := congrArg String.toList (wrapBody_injective h)
    rw [String.toList_ofList] at hcontent
    exact hrun.1 hcontent i t.toTag (by rw [htags, ht]; rfl)
  · intro h
    have hcontent : content f html.toList = html.toList := by
      refine hrun.2 fun i u hu => ?_
      rw [htags] at hu
      obtain ⟨t, ht, rfl⟩ := Option.map_eq_some_iff.1 hu
      exact h i t ht
    rw [transform, hcontent, String.ofList_toList]

/-- A document is only wrapped exactly if it has no token of a kind that is always replaced, and no
plain item where the innermost open list is a bulleted one. Without the texts that begin such tokens
it has none. -/
theorem transform_eq_wrapBody_iff (f : Features) (html : String) :
    (transform f html = wrapBody html ↔ ∀ i t, (scan f html)[i]? = some t →
      t.kind ∉ replacedKinds ∧
        ¬(t.kind = .itemOpen ∧
          (stateBefore f html i).lists.innermost? = some .unordered)) ∧
    ((∀ start ∈ replacedStarts, ¬start.toList <:+: html.toList) →
      transform f html = wrapBody html) := by
  have hiff : transform f html = wrapBody html ↔ ∀ i t, (scan f html)[i]? = some t →
      t.kind ∉ replacedKinds ∧ ¬(t.kind = .itemOpen ∧
        (stateBefore f html i).lists.innermost? = some .unordered) := by
    rw [only_wrapped_iff_copied]
    refine forall_congr' fun i => forall_congr' fun t => forall_congr' fun ht => ?_
    exact replacement?_eq_none_iff
      (iconBullets_of_itemOpen (mem_scan_iff.1 (List.mem_of_getElem? ht)))
  refine ⟨hiff, fun h => hiff.2 fun i t ht => ?_⟩
  have hkind : t.kind ∉ Kind.itemOpen :: replacedKinds := by
    intro hk
    obtain ⟨start, hs, hi⟩ := exists_replacedStart (List.mem_of_getElem? ht) hk
    exact h start hs hi
  rw [List.mem_cons, not_or] at hkind
  exact ⟨hkind.2, fun hn => hkind.1 hn.1⟩

/-- Tags with capitals and attributes, and a list without items. -/
theorem transform_eq_wrapBody_capitals :
    (∀ start ∈ replacedStarts,
      ¬start.toList <:+: "<TR><hr class=\"a\"/><ul><LI>a</LI></ul>".toList) ∧
    transform ⟨true, true⟩ "<TR><hr class=\"a\"/><ul><LI>a</LI></ul>" =
      wrapBody "<TR><hr class=\"a\"/><ul><LI>a</LI></ul>" := by
  have h : ∀ start ∈ replacedStarts,
      ¬start.toList <:+: "<TR><hr class=\"a\"/><ul><LI>a</LI></ul>".toList := by decide +kernel
  exact ⟨h, (transform_eq_wrapBody_iff ..).2 h⟩

end MarkdownPreview.Markup

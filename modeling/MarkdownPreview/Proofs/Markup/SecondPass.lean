import MarkdownPreview.Proofs.Markup.Boundary
import MarkdownPreview.Proofs.Markup.ListEvents
import MarkdownPreview.Proofs.Markup.Walk

/-!
# A pass over the result of a pass

The texts that a pass puts in the place of tags hold no tags themselves, and each of them stands
apart from its neighbours: what is copied before it cannot reach into it, and it cannot grow into a
tag with what is copied behind it. A second pass therefore finds the tags that the first one copied
(`echo`), and no others. It goes through the same open lists, since no list tag is ever replaced,
and so it copies what the first pass copied.

* `replacement?_of_parts`: what a replacement is made of.
* `standsApart_of_replacement?`: no replacement holds a tag or takes part in one.
* `reads_echo`: what the second pass reads.
* `run_echo`: the second pass copies all of it.
* `transform_transform`: a second pass only adds another body.
-/
namespace MarkdownPreview.Markup

/-! ## Replacements stand apart -/

/-- Whether a text opens a tag that is no paragraph, and holds none of the vocabulary. -/
def standsApart : List Char → Bool
  | '<' :: c :: r => smallLetter c != 'p' && isInert ('<' :: c :: r)
  | _ => false

theorem isInert_of_standsApart {a : List Char} (h : standsApart a = true) : isInert a = true := by
  unfold standsApart at h
  split at h
  · exact (Bool.and_eq_true _ _ ▸ h).2
  · cases h

theorem isApart_of_standsApart {a : List Char} (h : standsApart a = true) (s : List Char) :
    isApart (a ++ s) = true := by
  unfold standsApart at h
  split at h
  · simp only [Bool.and_eq_true, bne_iff_ne] at h
    exact isApart_iff.2 ⟨[], _, rfl, by simp, .inr ⟨_, _, rfl, h.1⟩⟩
  · cases h

theorem standsApart_append {a b : List Char} (ha : standsApart a = true) (hb : isInert b = true) :
    standsApart (a ++ b) = true := by
  have hab := isInert_append (isInert_of_standsApart ha) hb
  unfold standsApart at ha
  split at ha
  · simp only [Bool.and_eq_true] at ha
    exact Bool.and_eq_true_iff.2 ⟨ha.1, hab⟩
  · cases ha

theorem isInert_boxes : ∀ box ∈ [bulletBox, checkedBox, uncheckedBox],
    isInert box.toList = true := by
  unfold bulletBox checkedBox uncheckedBox
  decide

theorem isInert_body : ∀ text ∈ [bodyOpen, bodyClose], isInert text.toList = true := by
  unfold bodyOpen bodyClose
  decide

/-- The classes that a pass gives to items. -/
def itemClasses : List String :=
  ["bullet", "bulletp", "p", "task", "taskp"]

theorem standsApart_itemOf : ∀ cls ∈ itemClasses, standsApart (itemOf cls).toList = true := by
  unfold itemClasses itemOf
  decide

/-- The classes that a pass gives to rows. -/
def rowClasses : List String :=
  ["first-child", "odd-child", "even-child"]

theorem rowClass_mem_rowClasses (n : Nat) : rowClass n ∈ rowClasses := by
  unfold rowClass rowClasses
  split
  · simp
  · split <;> simp

/-- The text that takes the place of a tag is made of few parts: a property that holds of the parts,
and that more of them at the end do not harm, holds of all but struck text. -/
theorem replacement?_of_parts {P Q : List Char → Prop}
    (append : ∀ a b, P a → Q b → P (a ++ b))
    (item : ∀ cls ∈ itemClasses, P (itemOf cls).toList)
    (para : Q "<p class=\"p\">".toList)
    (box : ∀ b ∈ [bulletBox, checkedBox, uncheckedBox], Q b.toList)
    (row : ∀ cls ∈ rowClasses, P ("<tr class=\"" ++ cls ++ "\">").toList)
    (rule : P ruleBox.toList) {f : Features} {st : PassState} {k : Kind} {w : String}
    (ho : k ≠ .delOpen) (hc : k ≠ .delClose) (h : st.replacement? f k = some w) :
    P w.toList := by
  have item' : ∀ cls ∈ itemClasses, P (paragraphItemOf cls).toList := by
    intro cls hcls
    rw [paragraphItemOf, String.toList_append]
    exact append _ _ (item cls hcls) para
  have boxed : ∀ tags, P tags.toList → ∀ b ∈ [bulletBox, checkedBox, uncheckedBox],
      P (tags ++ b).toList := by
    intro tags ht b hb
    rw [String.toList_append]
    exact append _ _ ht (box b hb)
  cases k with
  | rowOpen => cases h; exact row _ (rowClass_mem_rowClasses _)
  | rule => cases h; exact rule
  | delOpen => exact absurd rfl ho
  | delClose => exact absurd rfl hc
  | itemOpen =>
    obtain ⟨-, he⟩ := Option.ite_none_right_eq_some.1 h
    cases he
    exact boxed _ (item _ (by simp [itemClasses])) _ (by simp)
  | itemChecked => cases h; exact boxed _ (item _ (by simp [itemClasses])) _ (by simp)
  | itemUnchecked => cases h; exact boxed _ (item _ (by simp [itemClasses])) _ (by simp)
  | taskItem => cases h; exact item _ (by simp [itemClasses])
  | itemPara =>
    simp only [PassState.replacement?] at h
    split at h <;> cases h
    · exact boxed _ (item' _ (by simp [itemClasses])) _ (by simp)
    · exact item' _ (by simp [itemClasses])
  | itemParaChecked => cases h; exact boxed _ (item' _ (by simp [itemClasses])) _ (by simp)
  | itemParaUnchecked => cases h; exact boxed _ (item' _ (by simp [itemClasses])) _ (by simp)
  | taskItemPara => cases h; exact item' _ (by simp [itemClasses])
  | _ => cases h

theorem standsApart_rowTag : ∀ cls ∈ rowClasses,
    standsApart ("<tr class=\"" ++ cls ++ "\">").toList = true := by
  unfold rowClasses
  decide

theorem standsApart_fixed : ∀ text ∈ [ruleBox, "<span class=\"del\">", "</span>"],
    standsApart text.toList = true := by
  unfold ruleBox
  decide

/-- A text that takes the place of a tag holds no tag and takes part in none. -/
theorem standsApart_of_replacement? {f : Features} {st : PassState} {k : Kind} {w : String}
    (h : st.replacement? f k = some w) : standsApart w.toList = true := by
  by_cases ho : k = .delOpen
  · subst ho
    cases h
    exact standsApart_fixed _ (by simp)
  · by_cases hc : k = .delClose
    · subst hc
      cases h
      exact standsApart_fixed _ (by simp)
    · have hp : isInert "<p class=\"p\">".toList = true := by decide
      have hrule := standsApart_fixed ruleBox (by simp)
      exact replacement?_of_parts (P := fun a => standsApart a = true)
        (Q := fun a => isInert a = true) (fun _ _ => standsApart_append) standsApart_itemOf hp
        isInert_boxes standsApart_rowTag hrule ho hc h

/-! ## What a second pass reads -/

/-- The segments of what a pass makes of segments: what it copies stays as it is, and what it puts
in the place of a tag is plain text. -/
def echo (f : Features) : PassState → List Segment → List Segment
  | _, [] => []
  | st, .plain c :: r => .plain c :: echo f st r
  | st, .tag t :: r =>
    match st.replacement? f t.kind with
    | none => .tag t :: echo f (st.next t.kind) r
    | some w => w.toList.map .plain ++ echo f (st.next t.kind) r

theorem textOf_echo (f : Features) (st : PassState) (l : List Segment) :
    textOf (echo f st l) = (run f st l).1 := by
  induction l generalizing st with
  | nil => rfl
  | cons x l ih =>
    cases x with
    | plain c => exact congrArg (c :: ·) (ih st)
    | tag t =>
      rw [echo]
      cases hw : st.replacement? f t.kind with
      | none => simp [run, PassState.replace, hw, ih]
      | some w => simp [run, PassState.replace, hw, ih]

theorem isApart_bodyClose : isApart bodyClose.toList = true := by
  rw [bodyClose]
  decide

/-- The content of a body and the body's end. -/
def echoToClose (f : Features) (st : PassState) (l : List Segment) : List Segment :=
  echo f st l ++ bodyClose.toList.map .plain

/-- What follows a place looks to a tag there as it did before the pass. -/
theorem alike_echo {f : Features} {l : List Segment} (h : Reads f l) (st : PassState) :
    Alike (textOf l) (textOf (echoToClose f st l)) := by
  induction l generalizing st with
  | nil =>
    refine .of_apart rfl ?_
    rw [echoToClose, echo, List.nil_append, textOf_map_plain]
    exact isApart_bodyClose
  | cons x l ih =>
    cases x with
    | plain c => exact (ih h.2 st).append [c]
    | tag t =>
      rw [echoToClose, echo]
      cases hw : st.replacement? f t.kind with
      | none => exact (ih h.2 _).append t.text
      | some w =>
        refine .of_apart (isApart_of_tagAt? h.1) ?_
        simp only [List.append_assoc, textOf_append, textOf_map_plain]
        exact isApart_of_standsApart (standsApart_of_replacement? hw) _

/-- A second pass reads the tags that the first one copied, and no others. -/
theorem reads_echo {f : Features} {l : List Segment} (h : Reads f l) (st : PassState) :
    Reads f (echoToClose f st l) := by
  induction l generalizing st with
  | nil =>
    have hr : Reads f (bodyClose.toList.map .plain ++ []) :=
      reads_inert (isInert_body _ (by simp)) trivial
    rwa [List.append_nil] at hr
  | cons x l ih =>
    cases x with
    | plain c =>
      refine ⟨?_, ih h.2 st⟩
      have ht := tagAt?_of_alike (f := f) (List.cons_ne_nil c []) (alike_echo h.2 st)
      exact ht.symm.trans h.1
    | tag t =>
      rw [echoToClose, echo]
      cases hw : st.replacement? f t.kind with
      | none =>
        refine ⟨?_, ih h.2 _⟩
        have ht := tagAt?_of_alike (f := f) (tagAt?_text_ne_nil h.1)
          (alike_echo h.2 (st.next t.kind))
        exact ht.symm.trans h.1
      | some w =>
        rw [List.append_assoc]
        exact reads_inert (isInert_of_standsApart (standsApart_of_replacement? hw)) (ih h.2 _)

/-! ## What a second pass copies -/

/-- Whether tags of this kind open or close a list. -/
def Kind.isListTag (k : Kind) : Bool :=
  k.listEvent?.isSome

theorem replacement?_of_isListTag {k : Kind} (hk : k.isListTag = true) (f : Features)
    (st : PassState) : st.replacement? f k = none := by
  cases k <;> first | rfl | cases hk

/-- No list tag is replaced, so that a replaced tag leaves the open lists alone. -/
theorem not_isListTag_of_replacement? {f : Features} {st : PassState} {k : Kind} {w : String}
    (h : st.replacement? f k = some w) : k.isListTag = false := by
  cases hk : k.isListTag with
  | false => rfl
  | true =>
    rw [replacement?_of_isListTag hk] at h
    cases h

theorem lists_next_of_replacement? {f : Features} {st : PassState} {k : Kind} {w : String}
    (h : st.replacement? f k = some w) : (st.next k).lists = st.lists := by
  have hk : k.listEvent? = none := by
    simpa [Kind.isListTag] using not_isListTag_of_replacement? h
  rw [lists_next, hk]
  rfl

/-- The open lists after a tag depend on those before it only. -/
theorem lists_next_congr {st st' : PassState} (h : st.lists = st'.lists) (k : Kind) :
    (st.next k).lists = (st'.next k).lists := by
  rw [lists_next, lists_next, h]

/-- Whether a tag is copied depends on the open lists only. -/
theorem replacement?_eq_none_congr {f : Features} {st st' : PassState} (h : st.lists = st'.lists)
    {k : Kind} (hk : st.replacement? f k = none) : st'.replacement? f k = none := by
  have hw : st'.wantsBullet f = st.wantsBullet f := by
    unfold PassState.wantsBullet
    rw [h]
  cases k with
  | itemOpen => rwa [PassState.replacement?, hw]
  | itemPara =>
    rw [PassState.replacement?] at hk
    split at hk <;> cases hk
  | _ => first | rfl | cases hk

/-- The tags that a pass copies. -/
def copied (f : Features) : PassState → List Tag → List Tag
  | _, [] => []
  | st, t :: r =>
    match st.replacement? f t.kind with
    | none => t :: copied f (st.next t.kind) r
    | some _ => copied f (st.next t.kind) r

theorem tagsOf_echoToClose (f : Features) (st : PassState) (l : List Segment) :
    tagsOf (echoToClose f st l) = copied f st (tagsOf l) := by
  unfold echoToClose
  induction l generalizing st with
  | nil =>
    have := tagsOf_map_plain_append bodyClose.toList []
    rwa [List.append_nil] at this
  | cons x l ih =>
    cases x with
    | plain c => rw [echo, List.cons_append, tagsOf_plain, tagsOf_plain, ih]
    | tag t =>
      rw [echo, tagsOf_tag, copied]
      cases st.replacement? f t.kind with
      | none => exact (tagsOf_tag t _).trans (congrArg (t :: ·) (ih _))
      | some w =>
        simp only [List.append_assoc, tagsOf_map_plain_append]
        exact ih _

/-- No list tag is lost in a pass. -/
theorem filter_isListTag_copied (f : Features) (st : PassState) (l : List Tag) :
    (copied f st l).filter (·.kind.isListTag) = l.filter (·.kind.isListTag) := by
  induction l generalizing st with
  | nil => rfl
  | cons t r ih =>
    rw [copied]
    cases hw : st.replacement? f t.kind with
    | none => simp only [List.filter_cons, ih]
    | some w =>
      simp only [List.filter_cons, not_isListTag_of_replacement? hw, ih]
      rfl

/-- What was copied once is copied again, whatever the number of rows by then. -/
theorem copied_copied {f : Features} {st st' : PassState} (h : st.lists = st'.lists)
    (l : List Tag) : copied f st' (copied f st l) = copied f st l := by
  induction l generalizing st st' with
  | nil => rfl
  | cons t r ih =>
    rw [copied]
    cases hw : st.replacement? f t.kind with
    | none =>
      simp only [copied, replacement?_eq_none_congr h hw]
      rw [ih (lists_next_congr h t.kind)]
    | some w => exact ih ((lists_next_of_replacement? hw).trans h)

/-- The second pass copies all that it reads. -/
theorem run_echo {f : Features} {st st' : PassState} (h : st.lists = st'.lists)
    (l : List Segment) : (run f st' (echoToClose f st l)).1 = textOf (echoToClose f st l) := by
  unfold echoToClose
  induction l generalizing st st' with
  | nil =>
    have := run_map_plain_append f st' bodyClose.toList []
    rw [List.append_nil] at this
    rw [echo, List.nil_append, this, textOf_map_plain]
    exact List.append_nil _
  | cons x l ih =>
    cases x with
    | plain c => exact congrArg (c :: ·) (ih h)
    | tag t =>
      rw [echo]
      cases hw : st.replacement? f t.kind with
      | none =>
        have hc := replacement?_eq_none_congr h hw
        simp only [List.cons_append, run, PassState.replace, hc, textOf_tag]
        exact congrArg (t.text ++ ·) (ih (lists_next_congr h t.kind))
      | some w =>
        rw [List.append_assoc, run_map_plain_append, textOf_append, textOf_map_plain]
        exact congrArg (w.toList ++ ·) (ih ((lists_next_of_replacement? hw).trans h))

/-! ## The two passes -/

theorem toList_transform (f : Features) (html : String) : (transform f html).toList =
    bodyOpen.toList ++ textOf (echoToClose f .initial (segments f html.toList)) := by
  simp only [transform, wrapBody, content, echoToClose, String.toList_append,
    String.toList_ofList, textOf_append, textOf_echo, textOf_map_plain, List.append_assoc]

/-- The segments of what a pass made. -/
theorem segments_transform (f : Features) (html : String) :
    segments f (transform f html).toList =
      bodyOpen.toList.map .plain ++ echoToClose f .initial (segments f html.toList) := by
  have h := reads_inert (isInert_body bodyOpen (by simp))
    (reads_echo (reads_segments f html.toList) .initial)
  have := segments_of_reads h
  rwa [textOf_append, textOf_map_plain, ← toList_transform] at this

/-- A second pass only adds another body. It reads the tags that the first pass copied where they
were copied, list tags all in their order among them, and nothing in what the first pass put in, and
it copies each of them. -/
theorem transform_transform (f : Features) (html : String) :
    transform f (transform f html) = wrapBody (transform f html) ∧
    segments f (transform f html).toList =
      bodyOpen.toList.map .plain ++ echo f .initial (segments f html.toList) ++
        bodyClose.toList.map .plain ∧
    (tagsOf (segments f (transform f html).toList)).filter (·.kind.isListTag) =
      (tagsOf (segments f html.toList)).filter (·.kind.isListTag) ∧
    copied f .initial (tagsOf (segments f (transform f html).toList)) =
      tagsOf (segments f (transform f html).toList) := by
  have ht : tagsOf (segments f (transform f html).toList) =
      copied f .initial (tagsOf (segments f html.toList)) := by
    rw [segments_transform, tagsOf_map_plain_append, tagsOf_echoToClose]
  refine ⟨?_, ?_, ?_, ?_⟩
  · have hc : content f (transform f html).toList = (transform f html).toList := by
      rw [content, segments_transform, run_map_plain_append, run_echo rfl, toList_transform]
    rw [transform, hc, String.ofList_toList]
  · rw [segments_transform, List.append_assoc]
    rfl
  · rw [ht, filter_isListTag_copied]
  · rw [ht, copied_copied rfl]

end MarkdownPreview.Markup

import MarkdownPreview.Proofs.Markup.ListEvents
import MarkdownPreview.Proofs.Markup.Walk

/-!
# Idle tags

Some of the tags that a pass meets are idle: it copies them and goes on as if they were not there.
Paragraph ends and tags of no kind always are, and list tags and plain items are while bullets are
off. A pass may therefore go through the segments that were found under other features, as long as
those differ in idle tags only.

* `run_dissolve`: idle tags can be taken for plain characters.
* `ReadsBy.unique`: segments are determined by their text and by the tags that are looked for.
* `run_segments_of_live`: where the tags that are not idle agree, a pass makes the same of a text.
-/
namespace MarkdownPreview.Markup

/-! ## What a pass does not react to -/

/-- Whether a pass under `f` copies tags of this kind and goes on as if they were not there. -/
def Kind.isIdle (f : Features) : Kind → Bool
  | .theadOpen | .tbodyOpen | .paraClose | .other => true
  | .orderedOpen | .orderedClose | .unorderedOpen | .unorderedClose | .itemOpen => !f.iconBullets
  | _ => false

/-- Two states that a pass under `f` cannot tell apart: it looks at the open lists only for
bullets. -/
structure PassState.SameFor (f : Features) (st st' : PassState) : Prop where
  rows : st.rows = st'.rows
  lists : f.iconBullets = true → st.lists = st'.lists

theorem replacement?_of_isIdle {f : Features} {k : Kind} (h : k.isIdle f = true)
    (st : PassState) : st.replacement? f k = none := by
  cases k with
  | itemOpen =>
    have hb : f.iconBullets = false := by simpa [Kind.isIdle] using h
    simp [PassState.replacement?, PassState.wantsBullet, hb]
  | _ => first | rfl | cases h

/-- A pass reacts to a tag by its rows and by whether it wants a bullet. -/
theorem replacement?_congr {f g : Features} {st st' : PassState} (hrows : st.rows = st'.rows)
    (hw : st.wantsBullet f = st'.wantsBullet g) (k : Kind) :
    st.replacement? f k = st'.replacement? g k := by
  cases k <;> simp only [PassState.replacement?, hw, hrows]

/-- Whatever is looked for, a pass over the same segments needs only to know of bullets. -/
theorem run_congr {f g : Features} (h : f.iconBullets = g.iconBullets) (st : PassState)
    (l : List Segment) : run f st l = run g st l := by
  induction l generalizing st with
  | nil => rfl
  | cons x l ih =>
    cases x with
    | plain c => simp only [run, ih]
    | tag t =>
      have hw : st.wantsBullet f = st.wantsBullet g := by
        rw [PassState.wantsBullet, PassState.wantsBullet, h]
      simp only [run, PassState.replace, replacement?_congr rfl hw, ih]

namespace PassState.SameFor
variable {f : Features} {st st' : PassState}

theorem refl (f : Features) (st : PassState) : SameFor f st st :=
  ⟨rfl, fun _ => rfl⟩

theorem replacement? (h : SameFor f st st') (k : Kind) :
    st.replacement? f k = st'.replacement? f k := by
  have hw : st.wantsBullet f = st'.wantsBullet f := by
    unfold PassState.wantsBullet
    cases hb : f.iconBullets with
    | false => rfl
    | true => rw [h.lists hb]
  exact replacement?_congr h.rows hw k

theorem next (h : SameFor f st st') (k : Kind) : SameFor f (st.next k) (st'.next k) where
  rows := by rw [rows_next, rows_next, h.rows]
  lists hb := by rw [lists_next, lists_next, h.lists hb]

/-- An idle tag makes no difference that the pass could see. -/
theorem next_idle (h : SameFor f st st') {k : Kind} (hk : k.isIdle f = true) :
    SameFor f (st.next k) st' where
  rows := by
    rw [rows_next, h.rows, if_neg, if_neg, Nat.add_zero] <;>
      · rintro rfl
        cases hk
  lists hb := by
    have he : k.listEvent? = none := by
      cases k <;> first | rfl | simp [Kind.isIdle, hb] at hk
    rw [lists_next, he]
    exact h.lists hb

end PassState.SameFor

/-! ## Idle tags as plain characters -/

/-- The segments with the idle tags among them taken for plain characters. -/
def dissolve (f : Features) : List Segment → List Segment
  | [] => []
  | .plain c :: l => .plain c :: dissolve f l
  | .tag t :: l => (if t.kind.isIdle f then t.text.map .plain else [.tag t]) ++ dissolve f l

theorem textOf_dissolve (f : Features) (l : List Segment) : textOf (dissolve f l) = textOf l := by
  induction l with
  | nil => rfl
  | cons x l ih =>
    cases x with
    | plain c => rw [dissolve, textOf_plain, textOf_plain, ih]
    | tag t =>
      rw [dissolve, textOf_append, ih]
      split <;> simp

/-- A pass makes the same of segments whose idle tags are taken for plain characters. -/
theorem run_dissolve {f : Features} {st st' : PassState} (h : st.SameFor f st')
    (l : List Segment) : (run f st l).1 = (run f st' (dissolve f l)).1 := by
  induction l generalizing st st' with
  | nil => rfl
  | cons x l ih =>
    cases x with
    | plain c => exact congrArg (c :: ·) (ih h)
    | tag t =>
      rw [dissolve]
      split
      · rename_i hk
        rw [run_map_plain_append, ← ih (h.next_idle hk)]
        simp only [run, PassState.replace, replacement?_of_isIdle hk]
        rfl
      · simp only [List.singleton_append, run, PassState.replace, h.replacement?,
          ih (h.next t.kind)]

/-! ## Segments by the tags that are looked for -/

section
variable {look look' : List Char → Option Tag}

/-- Each tag is what is looked for at its place, and at a plain character nothing is. -/
def ReadsBy (look : List Char → Option Tag) : List Segment → Prop
  | [] => True
  | .plain c :: l => look (c :: textOf l) = none ∧ ReadsBy look l
  | .tag t :: l => look (t.text ++ textOf l) = some t ∧ ReadsBy look l

theorem readsBy_map_plain_append {a : List Char} {l : List Segment}
    (ha : ∀ k, k < a.length → look ((a ++ textOf l).drop k) = none) (h : ReadsBy look l) :
    ReadsBy look (a.map .plain ++ l) := by
  induction a with
  | nil => exact h
  | cons c a ih =>
    have hc : look (c :: (a ++ textOf l)) = none := ha 0 (Nat.zero_lt_succ _)
    refine ⟨?_, ih fun k hk => ha (k + 1) (Nat.succ_lt_succ hk)⟩
    rwa [← textOf_map_plain a, ← textOf_append] at hc

theorem ReadsBy.congr {l : List Segment} (h : ReadsBy look l)
    (hlook : ∀ s, s <:+ textOf l → look s = look' s) : ReadsBy look' l := by
  induction l with
  | nil => trivial
  | cons x l ih =>
    have hx := hlook (textOf (x :: l)) List.suffix_rfl
    have hl : ReadsBy look l → ReadsBy look' l := by
      intro hr
      exact ih hr fun s hs => hlook s (hs.trans (List.suffix_append x.text (textOf l)))
    cases x with
    | plain c => exact ⟨hx ▸ h.1, hl h.2⟩
    | tag t => exact ⟨hx ▸ h.1, hl h.2⟩

/-- Segments of the same text for which the same tags are looked for are the same. -/
theorem ReadsBy.unique (hne : ∀ s t, look s = some t → t.text ≠ []) {l l' : List Segment}
    (h : ReadsBy look l) (h' : ReadsBy look l') (ht : textOf l = textOf l') : l = l' := by
  induction l generalizing l' with
  | nil =>
    cases l' with
    | nil => rfl
    | cons y l' =>
      cases y with
      | plain d => cases ht
      | tag u => exact absurd (List.append_eq_nil_iff.1 ht.symm).1 (hne _ u h'.1)
  | cons x l ih =>
    cases x with
    | plain c =>
      cases l' with
      | nil => cases ht
      | cons y l' =>
        cases y with
        | plain d =>
          obtain ⟨rfl, hl⟩ := List.cons.inj ht
          rw [ih h.2 h'.2 hl]
        | tag u =>
          have := h'.1
          rw [← textOf_tag, ← ht, textOf_plain, h.1] at this
          cases this
    | tag t =>
      have hat := h.1
      rw [← textOf_tag, ht] at hat
      cases l' with
      | nil =>
        exact absurd (List.append_eq_nil_iff.1 ht).1 (hne _ t h.1)
      | cons y l' =>
        cases y with
        | plain d =>
          rw [textOf_plain, h'.1] at hat
          cases hat
        | tag u =>
          rw [textOf_tag, h'.1] at hat
          cases hat
          rw [ih h.2 h'.2 (List.append_cancel_left ht)]

end

/-! ## Live tags -/

/-- A tag that is not idle. -/
def live (f : Features) (t : Option Tag) : Option Tag :=
  t.filter fun t => !t.kind.isIdle f

/-- With its idle tags taken for plain characters, a text reads by its live tags. -/
theorem readsBy_dissolve {f g : Features} {l : List Segment} (h : Reads g l) :
    ReadsBy (fun s => live f (tagAt? (active g) s)) (dissolve f l) := by
  induction l with
  | nil => trivial
  | cons x l ih =>
    cases x with
    | plain c =>
      refine ⟨?_, ih h.2⟩
      simp only [textOf_dissolve, h.1]
      rfl
    | tag t =>
      rw [dissolve]
      split
      · rename_i hk
        refine readsBy_map_plain_append (fun k hkl => ?_) (ih h.2)
        simp only [textOf_dissolve]
        rcases Nat.eq_zero_or_pos k with rfl | hpos
        · rw [List.drop_zero, h.1]
          simp [live, hk]
        · rw [tagAt?_inside h.1 hpos hkl]
          rfl
      · rename_i hk
        refine ⟨?_, ih h.2⟩
        change live f (tagAt? (active g) (t.text ++ textOf (dissolve f l))) = some t
        rw [textOf_dissolve, h.1]
        simp [live, hk]

/-- Where the live tags are the same, a pass may go through the segments found under other
features. -/
theorem run_segments_of_live {f g : Features} {s : List Char}
    (h : ∀ r, r <:+ s → live f (tagAt? (active g) r) = live f (tagAt? (active f) r)) :
    (run f .initial (segments g s)).1 = content f s := by
  have hg : ReadsBy (fun r => live f (tagAt? (active f) r)) (dissolve f (segments g s)) := by
    refine (readsBy_dissolve (reads_segments g s)).congr fun r hr => h r ?_
    rwa [textOf_dissolve, textOf_segments] at hr
  have hf := readsBy_dissolve (f := f) (reads_segments f s)
  have hne : ∀ r t, live f (tagAt? (active f) r) = some t → t.text ≠ [] := by
    intro r t ht
    exact tagAt?_text_ne_nil (Option.eq_some_of_filter_eq_some ht)
  have heq : dissolve f (segments g s) = dissolve f (segments f s) := by
    refine hg.unique hne hf ?_
    rw [textOf_dissolve, textOf_dissolve, textOf_segments, textOf_segments]
  rw [run_dissolve (.refl f _), heq, ← run_dissolve (.refl f _)]
  rfl

end MarkdownPreview.Markup

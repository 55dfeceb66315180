import MarkdownPreview.Proofs.Markup.Partition

/-!
# A document in two parts

A document may be cut in two wherever no token lies across the cut, and its parts be scanned and
rewritten one after the other. The cut may go through what the scanner found, though: the marker
with a capital behind a paragraph item belongs to no token, and each part of it is plain text.

* `tagAt?_append_of_fits`: a tag that ends before the cut is found without the second part.
* `scan_append_iff`: the tokens of the whole are those of the parts exactly if no token lies across
  the cut.
* `transform_append`: the second part is rewritten in the state that the first part left.
-/
namespace MarkdownPreview.Markup

open Text (isAsciiBlank)

/-! ## A tag before the cut -/

/-- What is found in a text is found however the text goes on. -/
theorem take?_append_right {sp : Spelling} (hsp : sp ∈ vocabulary) {u a : List Char}
    (h : sp.take? u = some a) (b : List Char) : sp.take? (u ++ b) = some a := by
  obtain ⟨hp, hd⟩ := (Spelling.take?_eq_some_iff hsp).1 h
  exact (Spelling.take?_eq_some_iff hsp).2 ⟨hp.trans (List.prefix_append u b), hd⟩

theorem take?_eq_none_of_append {sp : Spelling} (hsp : sp ∈ vocabulary) {u b : List Char}
    (h : sp.take? (u ++ b) = none) : sp.take? u = none := by
  cases ha : sp.take? u with
  | none => rfl
  | some a =>
    rw [take?_append_right hsp ha] at h
    cases h

theorem taskMarker?_eq_none_of_short {f : Features} {v : List Char} (h : v.length < markerLength) :
    taskMarker? f v = none := by
  unfold taskMarker?
  split
  · cases hm : markerAt? v with
    | none => rfl
    | some m =>
      have hle := (markerAt?_eq_some_iff.1 hm).length_le
      have hl : m.text.toList.length = markerLength := by cases m <;> decide
      omega
  · rfl

/-- A paragraph item is found before a part of a marker. -/
theorem tagAt?_paragraph_of_short (f : Features) {gap v : List Char}
    (hg : ∀ c ∈ gap, isAsciiBlank c = true) (hv : v.length < markerLength) :
    tagAt? (active f) ("<li>".toList ++ gap ++ "<p>".toList ++ v) =
      some ⟨.itemPara, "<li>".toList ++ gap ++ "<p>".toList⟩ := by
  have hform : itemForm f (gap ++ ((paragraphTag false).toList ++ v)) =
      .paragraph gap false none := by
    rw [itemForm_of_paragraph f hg, taskMarker?_eq_none_of_short hv]
  have ht := tagAt?_itemForm f (gap ++ ((paragraphTag false).toList ++ v))
  rw [hform, if_pos (.inr (by simp))] at ht
  rw [List.append_assoc, List.append_assoc, show "<li>" = itemTag from rfl,
    show "<p>" = paragraphTag false from rfl, ht]
  simp [ItemForm.tag, ItemForm.isLoose, ItemForm.finder, ItemForm.found]

/-- A tag that ends before a cut does not depend on what stands behind the cut. -/
theorem tagAt?_append_of_fits {f : Features} {u b : List Char}
    (hfit : ∀ t, tagAt? (active f) (u ++ b) = some t → t.text.length ≤ u.length) :
    tagAt? (active f) (u ++ b) = tagAt? (active f) u := by
  cases h : tagAt? (active f) (u ++ b) with
  | none =>
    refine (tagAt?_eq_none_iff.2 fun sp hsp => ?_).symm
    exact take?_eq_none_of_append (mem_vocabulary_of_mem_active hsp) (tagAt?_eq_none_iff.1 h sp hsp)
  | some t =>
    have hle := hfit t h
    obtain ⟨before, sp, after, x, he, hb, hx, rfl⟩ := tagAt?_eq_some_iff.1 h
    have hv : ∀ other ∈ active f, other ∈ vocabulary := fun _ => mem_vocabulary_of_mem_active
    rw [he] at hv
    have hsp : sp ∈ vocabulary := hv sp (by simp)
    obtain ⟨hpre, hd⟩ := (Spelling.take?_eq_some_iff hsp).1 hx
    rcases Nat.lt_or_ge u.length x.length with hlt | hge
    · -- the cut goes through the marker that the tag leaves out
      have htag := isTagOf_settle hsp x
      have hne : ¬sp.Exact x := by
        intro hex
        have := (htag.whole.2 hex).2
        rw [this] at hle
        omega
      by_cases hm : IsMarkedParagraph sp x
      · have ht := htag.cut hne hm
        obtain ⟨-, gap, m, hg, hml, rfl⟩ := hm
        rw [List.length_append, hml, Nat.add_sub_cancel, List.take_left] at ht
        rw [ht] at hle ⊢
        simp only at hle
        have hp : "<li>".toList ++ gap ++ "<p>".toList <+: u :=
          List.prefix_of_prefix_length_le ((List.prefix_append _ m).trans hpre)
            (List.prefix_append u b) hle
        obtain ⟨v, rfl⟩ := hp
        have hlv : v.length < m.length := by
          simp only [List.length_append] at hlt
          omega
        exact (tagAt?_paragraph_of_short f hg (Nat.lt_of_lt_of_eq hlv hml)).symm
      · rw [htag.other hne hm] at hle
        simp only at hle
        omega
    · have hxu : x <+: u := List.prefix_of_prefix_length_le hpre (List.prefix_append u b) hge
      refine (tagAt?_eq_some_iff.2 ⟨before, sp, after, x, he, fun other ho => ?_, ?_, rfl⟩).symm
      · exact take?_eq_none_of_append (hv other (by simp [ho])) (hb other ho)
      · exact (Spelling.take?_eq_some_iff hsp).2 ⟨hxu, hd⟩

/-! ## Segments -/

/-- Segments read as such before others if no tag goes on into those. -/
theorem reads_append_of_fits {f : Features} {l m : List Segment} (hl : Reads f l)
    (hm : Reads f m) (hfit : ∀ i t, i < (textOf l).length →
      tagAt? (active f) ((textOf l ++ textOf m).drop i) = some t →
      i + t.text.length ≤ (textOf l).length) : Reads f (l ++ m) := by
  induction l with
  | nil => exact hm
  | cons x l ih =>
    have hne : x.text ≠ [] := by
      cases x with
      | plain c => exact List.cons_ne_nil c []
      | tag t => exact tagAt?_text_ne_nil hl.1
    have hpos := List.length_pos_iff.2 hne
    have htext : textOf (x :: l) = x.text ++ textOf l := rfl
    have hlen : (textOf (x :: l)).length = x.text.length + (textOf l).length := by
      rw [htext, List.length_append]
    have hhead : tagAt? (active f) (textOf (x :: l) ++ textOf m) =
        tagAt? (active f) (textOf (x :: l)) := by
      refine tagAt?_append_of_fits fun t ht => ?_
      have := hfit 0 t (by omega) ht
      omega
    have hrest : Reads f l → Reads f (l ++ m) := by
      refine fun hr => ih hr fun i t hi ht => ?_
      have := hfit (x.text.length + i) t (by omega) (by
        rw [htext, List.append_assoc, ← List.drop_drop, List.drop_left]
        exact ht)
      omega
    have htail : textOf (x :: (l ++ m)) = textOf (x :: l) ++ textOf m :=
      textOf_append (x :: l) m
    cases x with
    | plain c => exact ⟨(congrArg _ htail).trans (hhead.trans hl.1), hrest hl.2⟩
    | tag t => exact ⟨(congrArg _ htail).trans (hhead.trans hl.1), hrest hl.2⟩

/-! ## Tokens -/

/-- The token `n` places further on. -/
def Token.shift (n : Nat) (t : Token) : Token :=
  { t with start := n + t.start }

/-- The token lies across place `n`. -/
def Token.Straddles (t : Token) (n : Nat) : Prop :=
  t.start < n ∧ n < t.stop

instance (t : Token) (n : Nat) : Decidable (t.Straddles n) :=
  inferInstanceAs (Decidable (_ ∧ _))

theorem tokensFrom_add (n pos : Nat) (l : List Segment) :
    tokensFrom (n + pos) l = (tokensFrom pos l).map (Token.shift n) := by
  induction l generalizing pos with
  | nil => rfl
  | cons x l ih =>
    cases x with
    | plain c => exact ih (pos + 1)
    | tag t =>
      rw [tokensFrom, tokensFrom, Nat.add_assoc, ih (pos + t.text.length)]
      rfl

theorem tokensFrom_append (pos : Nat) (l m : List Segment) :
    tokensFrom pos (l ++ m) = tokensFrom pos l ++ tokensFrom (pos + (textOf l).length) m := by
  induction l generalizing pos with
  | nil => rfl
  | cons x l ih =>
    cases x with
    | plain c =>
      rw [List.cons_append, tokensFrom, ih, tokensFrom, textOf_plain, List.length_cons,
        Nat.add_assoc, Nat.add_comm 1]
    | tag t =>
      rw [List.cons_append, tokensFrom, ih, tokensFrom, textOf_tag, List.length_append,
        Nat.add_assoc, List.cons_append]

theorem segments_append {f : Features} {a b : String}
    (h : ∀ t ∈ scan f (a ++ b), ¬t.Straddles a.length) :
    segments f (a ++ b).toList = segments f a.toList ++ segments f b.toList := by
  have hr : Reads f (segments f a.toList ++ segments f b.toList) := by
    refine reads_append_of_fits (reads_segments f _) (reads_segments f _) fun i t hi ht => ?_
    rw [textOf_segments] at hi ⊢
    rw [textOf_segments, textOf_segments, ← String.toList_append] at ht
    have hn := h ⟨t, i⟩ (mem_scan_iff.2 ht)
    rw [← String.length_toList, Token.Straddles, Token.stop] at hn
    simp only at hn
    omega
  have := segments_of_reads hr
  rwa [textOf_append, textOf_segments, textOf_segments, ← String.toList_append] at this

theorem scan_append {f : Features} {a b : String}
    (h : ∀ t ∈ scan f (a ++ b), ¬t.Straddles a.length) :
    scan f (a ++ b) = scan f a ++ (scan f b).map (Token.shift a.length) := by
  rw [scan, segments_append h, tokensFrom_append, textOf_segments, Nat.zero_add,
    ← Nat.add_zero a.toList.length, tokensFrom_add, String.length_toList]
  rfl

/-- The tokens of a text are those of its parts exactly if none lies across the cut. -/
theorem scan_append_iff {f : Features} {a b : String} :
    scan f (a ++ b) = scan f a ++ (scan f b).map (Token.shift a.length) ↔
      ∀ t ∈ scan f (a ++ b), ¬t.Straddles a.length := by
  refine ⟨fun h t ht => ?_, scan_append⟩
  rintro ⟨hs, he⟩
  rw [h, List.mem_append, List.mem_map] at ht
  rcases ht with ht | ⟨u, -, rfl⟩
  · have := stop_le_of_mem_scan ht
    omega
  · exact absurd hs (Nat.not_lt.2 (Nat.le_add_right ..))

/-! ## Rewriting -/

/-- Where no token lies across the cut, the tokens of a text are those of its parts, and a pass over
the text goes on in the second part in the state that the first part leaves. -/
theorem transform_append {f : Features} {a b : String}
    (h : ∀ t ∈ scan f (a ++ b), ¬t.Straddles a.length) :
    scan f (a ++ b) = scan f a ++ (scan f b).map (Token.shift a.length) ∧
    ∃ out st out' st',
      run f .initial (segments f a.toList) = (out, st) ∧
      run f st (segments f b.toList) = (out', st') ∧
      run f .initial (segments f (a ++ b).toList) = (out ++ out', st') ∧
      transform f a = wrapBody (String.ofList out) ∧
      transform f (a ++ b) = wrapBody (String.ofList (out ++ out')) := by
  have hrun : run f .initial (segments f (a ++ b).toList) =
      ((run f .initial (segments f a.toList)).1 ++
        (run f (run f .initial (segments f a.toList)).2 (segments f b.toList)).1,
        (run f (run f .initial (segments f a.toList)).2 (segments f b.toList)).2) := by
    rw [segments_append h, run_append]
  refine ⟨scan_append h, _, _, _, _, rfl, rfl, hrun, rfl, ?_⟩
  rw [transform, content, hrun]

/-- The cut goes through the marker of a paragraph item, and no token lies across it. -/
theorem transform_append_marker :
    (∀ t ∈ scan ⟨true, true⟩ ("<ul><li><p>[" ++ "X]</p></li></ul>"),
      ¬t.Straddles "<ul><li><p>[".length) ∧
    ∃ out st out' st',
      run ⟨true, true⟩ .initial (segments ⟨true, true⟩ "<ul><li><p>[".toList) = (out, st) ∧
      run ⟨true, true⟩ st (segments ⟨true, true⟩ "X]</p></li></ul>".toList) = (out', st') ∧
      transform ⟨true, true⟩ ("<ul><li><p>[" ++ "X]</p></li></ul>") =
        wrapBody (String.ofList (out ++ out')) := by
  have h : ∀ t ∈ scan ⟨true, true⟩ ("<ul><li><p>[" ++ "X]</p></li></ul>"),
      ¬t.Straddles "<ul><li><p>[".length := by decide +kernel
  obtain ⟨-, out, st, out', st', ha, hb, -, -, ht⟩ := transform_append h
  exact ⟨h, out, st, out', st', ha, hb, ht⟩

end MarkdownPreview.Markup

import MarkdownPreview.Proofs.Markup.Exact
import MarkdownPreview.Proofs.Markup.Grammar

/-!
# Where the tokens of a text are

A walk over a text looks for a tag only where the tag before it has ended. Since nothing is found
inside a tag, that hides nothing: the tokens are found place by place, as if every place were looked
at by itself.

* `reads_segments`, `segments_of_reads`: a list of segments is the one of its text exactly if it
  reads as such at each of its places.
* `mem_scan_iff`: a token is where its tag is found, whatever stands before it.
* `scan_finds_longest`: tokens begin exactly where some spelling finds a text, the first spelling
  finds the longest one, and the token is what the grammar says of it.
-/
namespace MarkdownPreview.Markup

/-! ## The tag at a place -/

theorem tagAt?_eq_some_iff {sps : List Spelling} {s : List Char} {t : Tag} :
    tagAt? sps s = some t ↔ ∃ before sp after a, sps = before ++ sp :: after ∧
      (∀ other ∈ before, other.take? s = none) ∧ sp.take? s = some a ∧ t = settle sp.kind a := by
  simp only [tagAt?, List.findSome?_eq_some_iff, Option.map_eq_some_iff, Option.map_eq_none_iff]
  constructor
  · rintro ⟨before, sp, after, he, ⟨a, ha, rfl⟩, hb⟩
    exact ⟨before, sp, after, a, he, hb, ha, rfl⟩
  · rintro ⟨before, sp, after, a, he, hb, ha, rfl⟩
    exact ⟨before, sp, after, he, ⟨a, ha, rfl⟩, hb⟩

theorem tagAt?_eq_none_iff {sps : List Spelling} {s : List Char} :
    tagAt? sps s = none ↔ ∀ sp ∈ sps, sp.take? s = none := by
  simp [tagAt?]

/-- A tag is what becomes of a text that some active spelling takes. -/
theorem exists_take?_of_tagAt? {f : Features} {s : List Char} {t : Tag}
    (h : tagAt? (active f) s = some t) :
    ∃ sp ∈ active f, ∃ a, sp.take? s = some a ∧ t = settle sp.kind a := by
  obtain ⟨before, sp, after, a, he, -, ha, ht⟩ := tagAt?_eq_some_iff.1 h
  have hsp : sp ∈ active f := by rw [he]; simp
  exact ⟨sp, hsp, a, ha, ht⟩

/-- Spellings that find nothing in a text do not matter there. -/
theorem tagAt?_filter {sps : List Spelling} {p : Spelling → Bool} {s : List Char}
    (h : ∀ sp ∈ sps, p sp = false → sp.take? s = none) :
    tagAt? (sps.filter p) s = tagAt? sps s := by
  induction sps with
  | nil => rfl
  | cons sp sps ih =>
    rw [List.forall_mem_cons] at h
    have hsps := ih h.2
    simp only [tagAt?] at hsps ⊢
    rw [List.filter_cons, List.findSome?_cons]
    cases hp : p sp with
    | true => rw [if_pos rfl, List.findSome?_cons, hsps]
    | false =>
      rw [h.1 hp]
      exact hsps

/-- Spellings that clash with the start of a text do not matter there. -/
theorem tagAt?_filter_clashes {sps : List Spelling} {u s : List Char} (hu : u <+: s) :
    tagAt? (sps.filter fun sp => !sp.clashes u) s = tagAt? sps s :=
  tagAt?_filter fun _ _ hc => Spelling.take?_of_clash (by simpa using hc) hu

theorem length_settle_le (k : Kind) (a : List Char) : (settle k a).text.length ≤ a.length := by
  have := congrArg List.length (settle_append k a)
  simp only [List.length_append] at this
  omega

/-- No tag begins inside a text that a spelling found. -/
theorem tagAt?_inside_found {f : Features} {sp : Spelling} (hsp : sp ∈ active f)
    {s a : List Char} (h : sp.take? s = some a) {k : Nat} (hk : 0 < k) (hl : k < a.length) :
    tagAt? (active f) (s.drop k) = none :=
  tagAt?_eq_none_iff.2 fun _ ho =>
    Spelling.take?_inside (mem_vocabulary_of_mem_active hsp) (mem_vocabulary_of_mem_active ho)
      h hk hl

/-- No tag begins inside another one. -/
theorem tagAt?_inside {f : Features} {s : List Char} {t : Tag} (h : tagAt? (active f) s = some t)
    {k : Nat} (hk : 0 < k) (hl : k < t.text.length) : tagAt? (active f) (s.drop k) = none := by
  obtain ⟨sp, hsp, a, ha, rfl⟩ := exists_take?_of_tagAt? h
  exact tagAt?_inside_found hsp ha hk (Nat.lt_of_lt_of_le hl (length_settle_le ..))

theorem tagAt?_nil (f : Features) : tagAt? (active f) [] = none := by
  cases ht : tagAt? (active f) [] with
  | none => rfl
  | some u =>
    have := tagAt?_append ht
    rw [List.drop_nil, List.append_nil] at this
    exact absurd this (tagAt?_text_ne_nil ht)

/-! ## Segments that read as such -/

def textOf (l : List Segment) : List Char :=
  l.flatMap Segment.text

@[simp] theorem textOf_nil : textOf [] = [] := rfl

@[simp] theorem textOf_plain (c : Char) (l : List Segment) :
    textOf (.plain c :: l) = c :: textOf l := rfl

@[simp] theorem textOf_tag (t : Tag) (l : List Segment) :
    textOf (.tag t :: l) = t.text ++ textOf l := rfl

@[simp] theorem textOf_append (l m : List Segment) : textOf (l ++ m) = textOf l ++ textOf m :=
  List.flatMap_append

@[simp] theorem textOf_map_plain (a : List Char) : textOf (a.map .plain) = a := by
  induction a with
  | nil => rfl
  | cons c r ih => rw [List.map_cons, textOf_plain, ih]

@[simp] theorem textOf_segments (f : Features) (s : List Char) : textOf (segments f s) = s :=
  flatMap_text_segments f s

/-- Each tag is found at its place, and none is found at a plain character. -/
def Reads (f : Features) : List Segment → Prop
  | [] => True
  | .plain c :: l => tagAt? (active f) (c :: textOf l) = none ∧ Reads f l
  | .tag t :: l => tagAt? (active f) (t.text ++ textOf l) = some t ∧ Reads f l

theorem reads_segmentsFrom (f : Features) (n : Nat) (s : List Char) :
    Reads f (segmentsFrom (active f) n s) := by
  induction s generalizing n with
  | nil => cases n <;> trivial
  | cons c r ih =>
    cases n with
    | succ n => exact ih n
    | zero =>
      unfold segmentsFrom
      split
      · rename_i t ht
        refine ⟨?_, ih _⟩
        have hs := tagAt?_append ht
        cases hx : t.text with
        | nil => exact absurd hx (tagAt?_text_ne_nil ht)
        | cons d u =>
          rw [hx] at hs
          simp only [List.length_cons, Nat.add_sub_cancel, textOf, flatMap_text_segmentsFrom]
          rw [show d :: u ++ r.drop u.length = c :: r from hs]
          exact ht
      · rename_i ht
        refine ⟨?_, ih _⟩
        simpa only [textOf, flatMap_text_segmentsFrom, List.drop_zero] using ht

theorem reads_segments (f : Features) (s : List Char) : Reads f (segments f s) :=
  reads_segmentsFrom f 0 s

theorem segments_of_reads {f : Features} {l : List Segment} (h : Reads f l) :
    segments f (textOf l) = l := by
  induction l with
  | nil => rfl
  | cons x l ih =>
    cases x with
    | plain c =>
      obtain ⟨hc, hl⟩ := h
      rw [textOf_plain, segments, segmentsFrom, hc]
      exact congrArg _ (ih hl)
    | tag t =>
      obtain ⟨ht, hl⟩ := h
      rw [textOf_tag]
      cases hx : t.text with
      | nil => exact absurd hx (tagAt?_text_ne_nil ht)
      | cons d u =>
        rw [hx, List.cons_append] at ht
        rw [List.cons_append, segments, segmentsFrom, ht]
        simp only [hx, List.length_cons, Nat.add_sub_cancel]
        rw [segmentsFrom_eq_drop, List.drop_left]
        exact congrArg _ (ih hl)

theorem reads_append {f : Features} {l m : List Segment} (h : Reads f (l ++ m)) : Reads f m := by
  induction l with
  | nil => exact h
  | cons x l ih => cases x <;> exact ih h.2

/-! ## Tokens and places -/

theorem mem_tokensFrom_iff {f : Features} {l : List Segment} (h : Reads f l) {pos : Nat}
    {t : Token} : t ∈ tokensFrom pos l ↔
      ∃ i, t.start = pos + i ∧ tagAt? (active f) ((textOf l).drop i) = some t.toTag := by
  induction l generalizing pos with
  | nil => simp [tokensFrom, tagAt?_nil]
  | cons x l ih =>
    cases x with
    | plain c =>
      rw [tokensFrom, ih h.2, textOf_plain]
      constructor
      · rintro ⟨i, hi, ht⟩
        exact ⟨i + 1, by omega, ht⟩
      · rintro ⟨i, hi, ht⟩
        cases i with
        | zero => rw [List.drop_zero, h.1] at ht; cases ht
        | succ i => exact ⟨i, by omega, ht⟩
    | tag u =>
      rw [tokensFrom, List.mem_cons, ih h.2, textOf_tag]
      constructor
      · rintro (rfl | ⟨i, hi, ht⟩)
        · exact ⟨0, rfl, h.1⟩
        · refine ⟨u.text.length + i, by omega, ?_⟩
          rwa [← List.drop_drop, List.drop_left]
      · rintro ⟨i, hi, ht⟩
        -- at the tag's start it is the tag itself, inside the tag nothing is found
        rcases Nat.eq_zero_or_pos i with rfl | hpos
        · left
          rw [List.drop_zero, h.1] at ht
          cases t
          cases ht
          cases hi
          rfl
        · right
          rcases Nat.lt_or_ge i u.text.length with hlt | hge
          · rw [tagAt?_inside h.1 hpos hlt] at ht
            cases ht
          · refine ⟨i - u.text.length, by omega, ?_⟩
            rwa [List.drop_append, List.drop_of_length_le hge, List.nil_append] at ht

def tagsOf (l : List Segment) : List Tag :=
  (tokensFrom 0 l).map Token.toTag

theorem map_toTag_tokensFrom (l : List Segment) (pos : Nat) :
    (tokensFrom pos l).map Token.toTag = tagsOf l := by
  unfold tagsOf
  induction l generalizing pos with
  | nil => rfl
  | cons x l ih =>
    cases x with
    | plain c => exact (ih (pos + 1)).trans (ih 1).symm
    | tag t => exact congrArg (t :: ·) ((ih _).trans (ih _).symm)

@[simp] theorem tagsOf_nil : tagsOf [] = [] := rfl

@[simp] theorem tagsOf_plain (c : Char) (l : List Segment) : tagsOf (.plain c :: l) = tagsOf l :=
  map_toTag_tokensFrom l 1

@[simp] theorem tagsOf_tag (t : Tag) (l : List Segment) :
    tagsOf (.tag t :: l) = t :: tagsOf l :=
  congrArg (t :: ·) (map_toTag_tokensFrom l _)

@[simp] theorem tagsOf_map_plain_append (a : List Char) (l : List Segment) :
    tagsOf (a.map .plain ++ l) = tagsOf l := by
  induction a with
  | nil => rfl
  | cons c r ih => rw [List.map_cons, List.cons_append, tagsOf_plain, ih]

/-- A token is where its tag is found, whatever stands before it. -/
theorem mem_scan_iff {f : Features} {html : String} {t : Token} :
    t ∈ scan f html ↔ tagAt? (active f) (html.toList.drop t.start) = some t.toTag := by
  rw [scan, mem_tokensFrom_iff (reads_segments f html.toList), textOf_segments]
  constructor
  · rintro ⟨i, hi, ht⟩
    rwa [hi, Nat.zero_add]
  · exact fun h => ⟨t.start, (Nat.zero_add _).symm, h⟩

theorem start_lt_of_mem_scan {f : Features} {html : String} {t : Token} (h : t ∈ scan f html) :
    t.start < html.toList.length := by
  rcases Nat.lt_or_ge t.start html.toList.length with hlt | hge
  · exact hlt
  · have := mem_scan_iff.1 h
    rw [List.drop_of_length_le hge, tagAt?_nil] at this
    cases this

/-! ## The scan against the grammar -/

/-- The text `a` stands at place `i` and has the shape of the spelling. -/
structure Spelling.FindsAt (sp : Spelling) (s : List Char) (i : Nat) (a : List Char) : Prop where
  stands : a <+: s.drop i
  shape : Describes sp.shape a

/-- The spelling `sp` finds `a` at place `i`, and no active spelling before it finds anything. -/
structure FirstAt (f : Features) (s : List Char) (i : Nat) (sp : Spelling) (a : List Char) :
    Prop where
  finds : sp.FindsAt s i a
  first : ∃ before after, active f = before ++ sp :: after ∧
    ∀ other ∈ before, ∀ b, ¬other.FindsAt s i b

theorem findsAt_iff {sp : Spelling} (hsp : sp ∈ vocabulary) {s a : List Char} {i : Nat} :
    sp.FindsAt s i a ↔ sp.take? (s.drop i) = some a := by
  rw [Spelling.take?_eq_some_iff hsp]
  exact ⟨fun h => ⟨h.stands, h.shape⟩, fun h => ⟨h.1, h.2⟩⟩

theorem take?_eq_none_iff {sp : Spelling} (hsp : sp ∈ vocabulary) {s : List Char} {i : Nat} :
    sp.take? (s.drop i) = none ↔ ∀ a, ¬sp.FindsAt s i a := by
  simp only [findsAt_iff hsp, Option.eq_none_iff_forall_ne_some, ne_eq]

theorem tagAt?_iff_firstAt {f : Features} {s : List Char} {i : Nat} {t : Tag} :
    tagAt? (active f) (s.drop i) = some t ↔
      ∃ sp a, FirstAt f s i sp a ∧ t = settle sp.kind a := by
  rw [tagAt?_eq_some_iff]
  constructor
  · rintro ⟨before, sp, after, a, he, hb, ha, rfl⟩
    have hv : ∀ other ∈ active f, other ∈ vocabulary := fun _ => mem_vocabulary_of_mem_active
    rw [he] at hv
    refine ⟨sp, a, ⟨(findsAt_iff (hv sp (by simp))).2 ha, before, after, he, ?_⟩, rfl⟩
    exact fun other ho => (take?_eq_none_iff (hv other (by simp [ho]))).1 (hb other ho)
  · rintro ⟨sp, a, ⟨ha, before, after, he, hb⟩, rfl⟩
    have hv : ∀ other ∈ active f, other ∈ vocabulary := fun _ => mem_vocabulary_of_mem_active
    rw [he] at hv
    refine ⟨before, sp, after, a, he, ?_, (findsAt_iff (hv sp (by simp))).1 ha, rfl⟩
    exact fun other ho => (take?_eq_none_iff (hv other (by simp [ho]))).2 (hb other ho)

theorem FirstAt.mem_active {f : Features} {s a : List Char} {i : Nat} {sp : Spelling}
    (h : FirstAt f s i sp a) : sp ∈ active f := by
  obtain ⟨before, after, he, -⟩ := h.first
  rw [he]
  simp

/-- The first spelling that finds a text finds the longest one. -/
theorem FirstAt.longest {f : Features} {s a : List Char} {i : Nat} {sp : Spelling}
    (h : FirstAt f s i sp a) {other : Spelling} (ho : other ∈ active f) {b : List Char}
    (hb : other.FindsAt s i b) : b.length ≤ a.length := by
  have ha := (findsAt_iff (mem_vocabulary_of_mem_active h.mem_active)).1 h.finds
  have hb' := (findsAt_iff (mem_vocabulary_of_mem_active ho)).1 hb
  obtain ⟨before, after, he, hn⟩ := h.first
  have hm := ho
  rw [he, List.mem_append, List.mem_cons] at hm
  rcases hm with hm | rfl | hm
  · exact absurd hb (hn other hm b)
  · rw [ha] at hb'
    cases hb'
    exact Nat.le_refl _
  · exact length_le_of_before he hm ha hb'

/-- A token begins exactly where an active spelling finds a text, so that no occurrence is hidden by
an earlier one. It is what becomes of the text that the first spelling in order of priority finds,
and that text is the longest one. -/
theorem scan_finds_longest (f : Features) (html : String) (i : Nat) :
    ((∃ t ∈ scan f html, t.start = i) ↔
      ∃ sp ∈ active f, ∃ a, sp.FindsAt html.toList i a) ∧
    (∀ t ∈ scan f html, t.start = i →
      ∃ sp a, FirstAt f html.toList i sp a ∧ IsTagOf sp a t.toTag) ∧
    ∀ sp a, FirstAt f html.toList i sp a →
      ∀ other ∈ active f, ∀ b, other.FindsAt html.toList i b → b.length ≤ a.length := by
  refine ⟨⟨?_, ?_⟩, ?_, fun sp a h other ho b hb => h.longest ho hb⟩
  · rintro ⟨t, ht, rfl⟩
    obtain ⟨sp, a, h, -⟩ := tagAt?_iff_firstAt.1 (mem_scan_iff.1 ht)
    exact ⟨sp, h.mem_active, a, h.finds⟩
  · rintro ⟨sp, hsp, a, ha⟩
    cases ht : tagAt? (active f) (html.toList.drop i) with
    | none =>
      have := tagAt?_eq_none_iff.1 ht sp hsp
      exact absurd ha ((take?_eq_none_iff (mem_vocabulary_of_mem_active hsp)).1 this a)
    | some t => exact ⟨⟨t, i⟩, mem_scan_iff.2 ht, rfl⟩
  · rintro t ht rfl
    obtain ⟨sp, a, h, he⟩ := tagAt?_iff_firstAt.1 (mem_scan_iff.1 ht)
    exact ⟨sp, a, h, he ▸ isTagOf_settle (mem_vocabulary_of_mem_active h.mem_active) a⟩

/-- A paragraph task item with a capital marker, found whole and cut back to its paragraph. -/
theorem scan_finds_longest_marked : ∃ t ∈ scan ⟨true, false⟩ "<li> <p>[X]",
    t.start = 0 ∧ t.text = "<li> <p>".toList ∧ ∃ sp a,
      FirstAt ⟨true, false⟩ "<li> <p>[X]".toList 0 sp a ∧ IsTagOf sp a t.toTag := by
  have hm : ⟨⟨.itemPara, "<li> <p>".toList⟩, 0⟩ ∈ scan ⟨true, false⟩ "<li> <p>[X]" := by
    decide +kernel
  exact ⟨_, hm, rfl, rfl, (scan_finds_longest _ _ 0).2.1 _ hm rfl⟩

end MarkdownPreview.Markup

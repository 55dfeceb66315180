import MarkdownPreview.Proofs.Markup.Bullets

/-!
# Bullets and the list around an item

In HTML an item belongs to the innermost list element around it, and the opening tag of a list may
carry attributes, as in `<ol start="3">`. A pass sees an opening tag only without attributes but a
closing tag always, so that a list with attributes is missing from the record while it is open, and
takes another list away when it closes. `framesAt` reads the elements off a text, with what that
does to the record.

* `stackAt_eq_recorded`: what is left in the record of the elements around a place.
* `followsEnclosing_iff`: in a well-nested document the bullets follow the innermost elements
  exactly if at each item the record still agrees with them, and they do if no list has attributes.
* `not_followsEnclosing`: a numbered list with a start value inside a bulleted list.
-/
namespace MarkdownPreview.Markup

open Text (isAsciiBlank)

/-! ## List elements -/

/-- A list tag as HTML has it. An opening one is bare if it has no attributes. -/
inductive ListTag where
  | opens (k : ListKind) (bare : Bool)
  | closes (k : ListKind)
  deriving DecidableEq, Repr

/-- Whether a tag whose name has been read is bare, if it ends at all. -/
def isBare? : List Char → Option Bool
  | [] => none
  | c :: r =>
    if c = '>' then some true
    else if isAsciiBlank c && (r.dropWhile fun d => d != '<' && d != '>').head? = some '>' then
      some false
    else none

/-- The list tag at the start of a text. -/
def listTagAt? (s : List Char) : Option ListTag :=
  if "<ul".toList.isPrefixOf s then (isBare? (s.drop 3)).map (.opens .unordered)
  else if "<ol".toList.isPrefixOf s then (isBare? (s.drop 3)).map (.opens .ordered)
  else if "</ul>".toList.isPrefixOf s then some (.closes .unordered)
  else if "</ol>".toList.isPrefixOf s then some (.closes .ordered)
  else none

/-- What a list tag does to the record of a pass. -/
def ListTag.event? : ListTag → Option ListEvent
  | .opens k bare => if bare then some (.opens k) else none
  | .closes _ => some .closes

theorem bind_event?_isBare? (k : ListKind) (r : List Char) :
    ((isBare? r).map (.opens k)).bind ListTag.event? =
      if r.head? = some '>' then some (.opens k) else none := by
  cases r with
  | nil => rfl
  | cons c r =>
    by_cases hc : c = '>'
    · subst hc
      rfl
    · have hne : ¬(c :: r).head? = some '>' := by simpa using hc
      rw [isBare?, if_neg hc, if_neg hne]
      split <;> rfl

theorem listEvent?_opening {k : ListKind} {name : String}
    (h : (k, name) ∈ [(.unordered, "<ul"), (.ordered, "<ol")]) (r : List Char) :
    listEvent? (name.toList ++ r) = if r.head? = some '>' then some (.opens k) else none := by
  cases r with
  | nil =>
    simp only [List.mem_cons, Prod.mk.injEq, List.not_mem_nil, or_false] at h
    rcases h with ⟨rfl, rfl⟩ | ⟨rfl, rfl⟩ <;> rfl
  | cons c r =>
    simp only [List.mem_cons, Prod.mk.injEq, List.not_mem_nil, or_false] at h
    by_cases hc : c = '>'
    · subst hc
      rcases h with ⟨rfl, rfl⟩ | ⟨rfl, rfl⟩ <;> rfl
    · rcases h with ⟨rfl, rfl⟩ | ⟨rfl, rfl⟩ <;>
        simp [listEvent?, List.isPrefixOf, hc, Ne.symm hc]

/-- A pass sees the bare opening tags and all closing tags. -/
theorem listEvent?_eq_bind (s : List Char) :
    listEvent? s = (listTagAt? s).bind ListTag.event? := by
  unfold listTagAt?
  split
  · obtain ⟨r, rfl⟩ := List.isPrefixOf_iff_prefix.1 ‹_›
    rw [listEvent?_opening (k := .unordered) (by simp)]
    exact (bind_event?_isBare? .unordered r).symm
  · split
    · obtain ⟨r, rfl⟩ := List.isPrefixOf_iff_prefix.1 ‹_›
      rw [listEvent?_opening (k := .ordered) (by simp)]
      exact (bind_event?_isBare? .ordered r).symm
    · rename_i hul hol
      -- an opening tag without attributes would begin with its name
      have hul' : ¬"<ul>".toList.isPrefixOf s = true := by
        rw [List.isPrefixOf_iff_prefix] at hul ⊢
        exact fun h => hul (List.IsPrefix.trans ⟨['>'], rfl⟩ h)
      have hol' : ¬"<ol>".toList.isPrefixOf s = true := by
        rw [List.isPrefixOf_iff_prefix] at hol ⊢
        exact fun h => hol (List.IsPrefix.trans ⟨['>'], rfl⟩ h)
      rw [listEvent?, if_neg hul', if_neg hol']
      cases "</ul>".toList.isPrefixOf s <;> cases "</ol>".toList.isPrefixOf s <;> rfl

/-! ## Nesting -/

/-- A list element that is open at some place. -/
structure Frame where
  kind : ListKind
  /-- Whether its opening tag has no attributes. -/
  bare : Bool
  /-- The lists with attributes that have opened and closed inside it. -/
  gone : Nat
  deriving DecidableEq, Repr

/-- The elements around a place behind the element `c` that closes there. -/
def closeInto (c : Frame) : List Frame → List Frame
  | [] => []
  | p :: rest => { p with gone := p.gone + c.gone + if c.bare then 0 else 1 } :: rest

/-- The open elements behind a list tag, innermost first, unless it closes another element than the
innermost one. -/
def nest : ListTag → List Frame → Option (List Frame)
  | .opens k bare, frames => some (⟨k, bare, 0⟩ :: frames)
  | .closes k, c :: rest => if c.kind = k then some (closeInto c rest) else none
  | .closes _, [] => none

/-- The open elements before place `i` of a text, innermost first, if all closing tags up to there
match. -/
def nestAt (s : List Char) : (i : Nat) → Option (List Frame)
  | 0 => some []
  | i + 1 =>
    match listTagAt? (s.drop i) with
    | none => nestAt s i
    | some t => (nestAt s i).bind (nest t)

/-- The open elements before place `i` of a well-nested text, innermost first. -/
def framesAt (s : List Char) (i : Nat) : List Frame :=
  (nestAt s i).getD []

/-- The kind of the innermost list element around a place. -/
def enclosing? (s : List Char) (i : Nat) : Option ListKind :=
  (framesAt s i).head?.map Frame.kind

/-- The list tags of a text match, and nowhere are there more elements open than a document's record
has slots. -/
structure WellNested (s : List Char) : Prop where
  closed : nestAt s s.length = some []
  depth : ∀ i, i ≤ s.length → (framesAt s i).length ≤ ListNesting.documentDepth

theorem nestAt_isSome_of_le {s : List Char} {i j : Nat} (hij : i ≤ j)
    (h : (nestAt s j).isSome = true) : (nestAt s i).isSome = true := by
  induction j with
  | zero => rwa [Nat.le_zero.1 hij]
  | succ j ih =>
    rcases Nat.lt_or_eq_of_le hij with hlt | rfl
    · refine ih (Nat.le_of_lt_succ hlt) ?_
      rw [nestAt] at h
      split at h
      · exact h
      · exact Option.isSome_of_isSome_bind h
    · exact h

theorem WellNested.nestAt_eq {s : List Char} (h : WellNested s) {i : Nat} (hi : i ≤ s.length) :
    nestAt s i = some (framesAt s i) := by
  have hs := nestAt_isSome_of_le hi (by rw [h.closed]; rfl)
  obtain ⟨frames, hf⟩ := Option.isSome_iff_exists.1 hs
  rw [framesAt, hf]
  rfl

/-! ## What is left in the record -/

/-- The lists in the record while the given elements are open: only those with a bare tag were
entered, and each list with attributes has taken one away when it closed. -/
def recorded : List Frame → List ListKind
  | [] => []
  | c :: rest => ((if c.bare then [c.kind] else []) ++ recorded rest).drop c.gone

theorem length_recorded_le (frames : List Frame) : (recorded frames).length ≤ frames.length := by
  induction frames with
  | nil => exact Nat.le_refl _
  | cons c rest ih =>
    rw [recorded, List.length_drop, List.length_append, List.length_cons]
    split <;> simp only [List.length_cons, List.length_nil] <;> omega

/-- When an element closes, its own entry goes, or that of another list if it has none. -/
theorem recorded_closeInto (c : Frame) (rest : List Frame) :
    recorded (closeInto c rest) = (recorded (c :: rest)).tail := by
  have hc : (recorded (c :: rest)).tail =
      (recorded rest).drop (c.gone + if c.bare then 0 else 1) := by
    rw [recorded, List.tail_drop]
    cases c.bare <;> rfl
  rw [hc]
  cases rest with
  | nil => exact (List.drop_nil ..).symm
  | cons p rest =>
    rw [closeInto, recorded, recorded, List.drop_drop, Nat.add_assoc]

/-- The lists in the record of a pass are what is left of the elements around the place. -/
theorem stackAt_eq_recorded {s : List Char} {i : Nat} {frames : List Frame}
    (h : nestAt s i = some frames) : stackAt s i = recorded frames := by
  induction i generalizing frames with
  | zero => cases h; rfl
  | succ i ih =>
    rw [nestAt] at h
    rw [stackAt, listEvent?_eq_bind]
    cases ht : listTagAt? (s.drop i) with
    | none =>
      rw [ht] at h
      exact ih h
    | some t =>
      rw [ht] at h
      obtain ⟨outer, ho, hn⟩ := Option.bind_eq_some_iff.1 h
      rw [ih ho]
      cases t with
      | opens k bare =>
        cases hn
        cases bare <;> simp [stackAfter, ListTag.event?, recorded]
      | closes k =>
        cases outer with
        | nil => cases hn
        | cons c rest =>
          obtain ⟨-, he⟩ := Option.ite_none_right_eq_some.1 hn
          cases he
          exact (recorded_closeInto c rest).symm

theorem WellNested.stackAt_eq {s : List Char} (h : WellNested s) {i : Nat} (hi : i ≤ s.length) :
    stackAt s i = recorded (framesAt s i) :=
  stackAt_eq_recorded (h.nestAt_eq hi)

theorem WellNested.fitsTo {s : List Char} (h : WellNested s) {i : Nat} (hi : i ≤ s.length) :
    FitsTo s i := by
  intro j hj
  rw [h.stackAt_eq (Nat.le_trans hj hi)]
  exact Nat.le_trans (length_recorded_le _) (h.depth j (Nat.le_trans hj hi))

/-! ## Bullets in well-nested documents -/

/-- Plain items have their bullets exactly where the innermost list element is a bulleted one. -/
def FollowsEnclosing (f : Features) (html : String) : Prop :=
  ∀ t out, (t, out) ∈ emissions f html → t.kind.isPlainItem = true →
    (out = (bulletMarkup t.kind).toList ↔ enclosing? html.toList t.start = some .unordered)

/-- The record is right at a place if it and the innermost element agree on whether items there get
bullets. -/
def RecordsEnclosing (s : List Char) (i : Nat) : Prop :=
  (recorded (framesAt s i)).head? = some .unordered ↔ enclosing? s i = some .unordered

instance (s : List Char) (i : Nat) : Decidable (RecordsEnclosing s i) :=
  inferInstanceAs (Decidable (_ ↔ _))

/-- The record is right where the innermost list has no attributes and none with attributes has
closed inside it. -/
theorem recordsEnclosing_of_bare {s : List Char} {i : Nat}
    (h : ∀ c ∈ (framesAt s i).head?, c.bare = true ∧ c.gone = 0) : RecordsEnclosing s i := by
  unfold RecordsEnclosing enclosing?
  cases hc : framesAt s i with
  | nil => exact Iff.rfl
  | cons c rest =>
    obtain ⟨hb, hg⟩ := h c (by rw [hc]; rfl)
    rw [recorded, hb, hg]
    exact Iff.rfl

theorem bare_closeInto {c : Frame} {rest : List Frame}
    (h : ∀ d ∈ c :: rest, d.bare = true ∧ d.gone = 0) :
    ∀ d ∈ closeInto c rest, d.bare = true ∧ d.gone = 0 := by
  obtain ⟨⟨hb, hg⟩, hrest⟩ := List.forall_mem_cons.1 h
  cases rest with
  | nil => exact List.forall_mem_nil _
  | cons p rest =>
    obtain ⟨hp, hrest⟩ := List.forall_mem_cons.1 hrest
    refine List.forall_mem_cons.2 ⟨⟨hp.1, ?_⟩, hrest⟩
    rw [hp.2, hg, hb]
    rfl

/-- Without attributes on list tags, every element is entered in the record. -/
theorem bare_of_nestAt {s : List Char}
    (h : ∀ i k, listTagAt? (s.drop i) ≠ some (.opens k false)) {i : Nat} {frames : List Frame}
    (hn : nestAt s i = some frames) : ∀ c ∈ frames, c.bare = true ∧ c.gone = 0 := by
  induction i generalizing frames with
  | zero => cases hn; exact List.forall_mem_nil _
  | succ i ih =>
    rw [nestAt] at hn
    split at hn
    · exact ih hn
    · rename_i t ht
      obtain ⟨outer, ho, hn⟩ := Option.bind_eq_some_iff.1 hn
      cases t with
      | opens k bare =>
        cases hn
        cases bare with
        | false => exact absurd ht (h i k)
        | true => exact List.forall_mem_cons.2 ⟨⟨rfl, rfl⟩, ih ho⟩
      | closes k =>
        cases outer with
        | nil => cases hn
        | cons c rest =>
          obtain ⟨-, he⟩ := Option.ite_none_right_eq_some.1 hn
          cases he
          exact bare_closeInto (ih ho)

/-- In a well-nested document the bullets follow the innermost list elements exactly if the record
is right at each plain item, and it is if no list tag has attributes. -/
theorem followsEnclosing_iff {f : Features} (hf : f.iconBullets = true) {html : String}
    (hn : WellNested html.toList) :
    (FollowsEnclosing f html ↔
      ∀ t ∈ scan f html, t.kind.isPlainItem = true → RecordsEnclosing html.toList t.start) ∧
    ((∀ i k, listTagAt? (html.toList.drop i) ≠ some (.opens k false)) →
      FollowsEnclosing f html) := by
  have key : ∀ t out, (t, out) ∈ emissions f html → t.kind.isPlainItem = true →
      ((out = (bulletMarkup t.kind).toList ↔ enclosing? html.toList t.start = some .unordered) ↔
        RecordsEnclosing html.toList t.start) := by
    intro t out h hk
    have hi := Nat.le_of_lt (start_lt_of_mem_scan (mem_scan_of_mem_emissions h))
    have hb := (bullet_iff_head?_stackAt hf h hk (hn.fitsTo hi)).1
    rw [hn.stackAt_eq hi] at hb
    rw [← hb]
    exact Iff.rfl
  refine ⟨⟨fun h t ht hk => ?_, fun h t out hm hk => ?_⟩, fun h t out hm hk => ?_⟩
  · obtain ⟨out, hm⟩ := exists_mem_emissions ht
    exact (key t out hm hk).1 (h t out hm hk)
  · exact (key t out hm hk).2 (h t (mem_scan_of_mem_emissions hm) hk)
  · have hi := Nat.le_of_lt (start_lt_of_mem_scan (mem_scan_of_mem_emissions hm))
    refine (key t out hm hk).2 (recordsEnclosing_of_bare fun c hc => ?_)
    exact bare_of_nestAt h (hn.nestAt_eq hi) c (List.mem_of_mem_head? hc)

/-- A numbered list with a start value does no harm beside a bulleted list. -/
theorem followsEnclosing_beside :
    FollowsEnclosing ⟨false, true⟩ "<ol start=\"3\"><li>a</li></ol><ul><li>b</li></ul>" := by
  have hn : WellNested "<ol start=\"3\"><li>a</li></ol><ul><li>b</li></ul>".toList :=
    ⟨by decide +kernel, by decide +kernel⟩
  exact (followsEnclosing_iff rfl hn).1.2 (by decide +kernel)

/-- The items of a numbered list with a start value get bullets inside a bulleted list. -/
theorem not_followsEnclosing :
    WellNested "<ul><li>a<ol start=\"3\"><li>b</li></ol></li><li>c</li></ul>".toList ∧
      ¬FollowsEnclosing ⟨false, true⟩
        "<ul><li>a<ol start=\"3\"><li>b</li></ol></li><li>c</li></ul>" := by
  refine ⟨⟨by decide +kernel, by decide +kernel⟩, fun h => ?_⟩
  have hmem : (⟨⟨.itemOpen, "<li>".toList⟩, 23⟩, (bulletMarkup .itemOpen).toList) ∈
      emissions ⟨false, true⟩ "<ul><li>a<ol start=\"3\"><li>b</li></ol></li><li>c</li></ul>" := by
    decide +kernel
  have henc := (h _ _ hmem rfl).1 rfl
  exact absurd henc (by decide +kernel)

end MarkdownPreview.Markup

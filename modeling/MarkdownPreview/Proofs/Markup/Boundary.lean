import MarkdownPreview.Proofs.Markup.Scan

/-!
# What a tag depends on

Whether a tag begins at a place depends on the text from there on, but not on all of it. No tag
reaches into a text that, up to blanks, is empty or opens another tag than a paragraph (`isApart`),
and none begins in a text whose brackets all clash with the whole vocabulary (`isInert`).

* `tagAt?_append_of_apart`, `tagAt?_of_alike`: one such text may be put in the place of another.
* `tagAt?_of_inert`, `reads_inert`: an inert text holds no tag, whatever follows it.
-/
namespace MarkdownPreview.Markup

open Text (isAsciiBlank)

/-! ## Texts that no tag reaches into -/

/-- Whether a text is, up to blanks at its start, empty or a tag that opens no paragraph. -/
def isApart (s : List Char) : Bool :=
  match s.dropWhile isAsciiBlank with
  | [] => true
  | '<' :: c :: _ => smallLetter c != 'p'
  | _ => false

theorem isApart_iff {s : List Char} : isApart s = true ↔
    ∃ w v, s = w ++ v ∧ (∀ c ∈ w, isAsciiBlank c = true) ∧
      (v = [] ∨ ∃ c r, v = '<' :: c :: r ∧ smallLetter c ≠ 'p') := by
  constructor
  · intro h
    refine ⟨s.takeWhile isAsciiBlank, s.dropWhile isAsciiBlank,
      List.takeWhile_append_dropWhile.symm, List.all_eq_true.1 List.all_takeWhile, ?_⟩
    unfold isApart at h
    split at h
    · exact .inl ‹_›
    · rename_i c r hd
      exact .inr ⟨c, r, hd, by simpa using h⟩
    · cases h
  · rintro ⟨w, v, rfl, hw, hv⟩
    unfold isApart
    rw [List.dropWhile_append_of_pos hw]
    rcases hv with rfl | ⟨c, r, rfl, hc⟩
    · rfl
    · simpa [isAsciiBlank] using hc

/-- A text that is found does not end in a blank. -/
theorem not_describes_append_blank {sp : Spelling} (hsp : sp ∈ vocabulary) {u b : List Char}
    (hb : b ≠ []) (hblank : ∀ c ∈ b, isAsciiBlank c = true) : ¬Describes sp.shape (u ++ b) := by
  intro h
  obtain ⟨c, hc, hsolid⟩ := getLast?_of_describes (endsSolid_of_mem_vocabulary sp hsp) h
  rw [List.getLast?_append, List.getLast?_eq_some_getLast hb] at hc
  cases hc
  rw [hblank _ (List.getLast_mem hb)] at hsolid
  cases hsolid

/-- What is found before such a text ends where that text begins, or earlier. -/
theorem prefix_of_apart {sp : Spelling} (hsp : sp ∈ vocabulary) {u s a : List Char} (hu : u ≠ [])
    (hs : isApart s = true) (h : Describes sp.shape a) (hp : a <+: u ++ s) : a <+: u := by
  obtain ⟨w, v, rfl, hw, hv⟩ := isApart_iff.1 hs
  obtain ⟨t, ht⟩ := hp
  rcases List.append_eq_append_iff.1 ht with ⟨b, hb, -⟩ | ⟨b, rfl, hb⟩
  · exact ⟨b, hb.symm⟩
  -- now `a` is `u` and a part `b` of what follows: no part but the empty one will do
  by_cases hne : b = []
  · simp [hne]
  exfalso
  rcases List.append_eq_append_iff.1 hb with ⟨b', rfl, hb'⟩ | ⟨x, rfl, -⟩
  · cases b' with
    | nil => exact not_describes_append_blank hsp hne (by simpa using hw) h
    | cons d b' =>
      rcases hv with rfl | ⟨c, r, rfl, hc⟩
      · cases hb'
      · simp only [List.cons_append, List.cons.injEq] at hb'
        obtain ⟨rfl, hr⟩ := hb'
        rw [← List.append_assoc] at h
        obtain ⟨z, hz⟩ := Spelling.paragraph_of_bracket hsp h (by simp [hu])
        cases b' with
        | nil => cases hz
        | cons e b' =>
          simp only [List.cons_append, List.map_cons, List.cons.injEq] at hr hz
          exact hc (hr.1 ▸ hz.1.symm)
  · exact not_describes_append_blank hsp hne (fun c hc => hw c (by simp [hc])) h

theorem take?_append_of_apart {sp : Spelling} (hsp : sp ∈ vocabulary) {u s s' : List Char}
    (hu : u ≠ []) (hs : isApart s = true) (hs' : isApart s' = true) :
    sp.take? (u ++ s) = sp.take? (u ++ s') := by
  have key : ∀ v v' : List Char, isApart v = true → ∀ a, sp.take? (u ++ v) = some a →
      sp.take? (u ++ v') = some a := by
    intro v v' hv a ha
    obtain ⟨hp, hd⟩ := (Spelling.take?_eq_some_iff hsp).1 ha
    exact (Spelling.take?_eq_some_iff hsp).2
      ⟨(prefix_of_apart hsp hu hv hd hp).trans (List.prefix_append ..), hd⟩
  exact Option.ext fun a => ⟨key s s' hs a, key s' s hs' a⟩

theorem tagAt?_congr {sps : List Spelling} {s s' : List Char}
    (h : ∀ sp ∈ sps, sp.take? s = sp.take? s') : tagAt? sps s = tagAt? sps s' := by
  induction sps with
  | nil => rfl
  | cons sp sps ih =>
    simp only [List.forall_mem_cons] at h
    have := ih h.2
    simp only [tagAt?, List.findSome?_cons, h.1] at this ⊢
    rw [this]

/-- A tag before such a text does not depend on it. -/
theorem tagAt?_append_of_apart {f : Features} {u s s' : List Char} (hu : u ≠ [])
    (hs : isApart s = true) (hs' : isApart s' = true) :
    tagAt? (active f) (u ++ s) = tagAt? (active f) (u ++ s') :=
  tagAt?_congr fun _ hsp => take?_append_of_apart (mem_vocabulary_of_mem_active hsp) hu hs hs'

theorem isApart_of_tagAt? {f : Features} {s : List Char} {t : Tag}
    (h : tagAt? (active f) s = some t) : isApart s = true := by
  obtain ⟨sp, hsp, a, ha, -⟩ := exists_take?_of_tagAt? h
  obtain ⟨⟨r, rfl⟩, hd⟩ := (Spelling.take?_eq_some_iff (mem_vocabulary_of_mem_active hsp)).1 ha
  obtain ⟨c, v, rfl, hc, -⟩ := Spelling.eq_cons_of_describes (mem_vocabulary_of_mem_active hsp) hd
  simpa [isApart, isAsciiBlank] using hc

/-! ## Texts that look alike -/

/-- Two texts that agree up to places where no tag reaches further. -/
def Alike (s s' : List Char) : Prop :=
  ∃ u v v', s = u ++ v ∧ s' = u ++ v' ∧ isApart v = true ∧ isApart v' = true

theorem Alike.of_apart {s s' : List Char} (hs : isApart s = true) (hs' : isApart s' = true) :
    Alike s s' :=
  ⟨[], s, s', rfl, rfl, hs, hs'⟩

theorem Alike.append {s s' : List Char} (h : Alike s s') (a : List Char) :
    Alike (a ++ s) (a ++ s') := by
  obtain ⟨u, v, v', rfl, rfl, hv, hv'⟩ := h
  exact ⟨a ++ u, v, v', (List.append_assoc ..).symm, (List.append_assoc ..).symm, hv, hv'⟩

theorem tagAt?_of_alike {f : Features} {a s s' : List Char} (ha : a ≠ []) (h : Alike s s') :
    tagAt? (active f) (a ++ s) = tagAt? (active f) (a ++ s') := by
  obtain ⟨u, v, v', rfl, rfl, hv, hv'⟩ := h
  rw [← List.append_assoc, ← List.append_assoc]
  exact tagAt?_append_of_apart (by simp [ha]) hv hv'

/-! ## Texts without tags -/

/-- Whether each spelling clashes with the text at each of its brackets. -/
def isInert : List Char → Bool
  | [] => true
  | c :: r => (c != '<' || vocabulary.all (·.clashes (c :: r))) && isInert r

theorem isInert_append {a b : List Char} (ha : isInert a = true) (hb : isInert b = true) :
    isInert (a ++ b) = true := by
  induction a with
  | nil => exact hb
  | cons c r ih =>
    simp only [isInert, Bool.and_eq_true, Bool.or_eq_true, List.all_eq_true] at ha
    simp only [List.cons_append, isInert, Bool.and_eq_true, Bool.or_eq_true, List.all_eq_true]
    refine ⟨ha.1.imp_right fun h sp hsp => ?_, ih ha.2⟩
    exact Spelling.clashes_of_prefix (h sp hsp) (List.prefix_append (c :: r) b)

/-- A text that opens no angle bracket is inert. -/
theorem isInert_of_no_angle {s : List Char} (h : '<' ∉ s) : isInert s = true := by
  induction s with
  | nil => rfl
  | cons c r ih =>
    rw [List.mem_cons, not_or] at h
    simp [isInert, Ne.symm h.1, ih h.2]

theorem tagAt?_of_inert {f : Features} {c : Char} {r : List Char} (h : isInert (c :: r) = true)
    (s : List Char) : tagAt? (active f) (c :: r ++ s) = none := by
  simp only [isInert, Bool.and_eq_true, Bool.or_eq_true, bne_iff_ne, List.all_eq_true] at h
  refine tagAt?_eq_none_iff.2 fun sp hsp => ?_
  rcases h.1 with hc | hc
  · cases ha : sp.take? (c :: r ++ s) with
    | none => rfl
    | some a =>
      obtain ⟨b, rfl⟩ := Spelling.take?_eq_cons (opensTag_of_mem_active hsp) ha
      exact absurd (List.cons.inj (Spelling.take?_append ha)).1.symm hc
  · exact Spelling.take?_of_clash (hc sp (mem_vocabulary_of_mem_active hsp))
      (List.prefix_append ..)

theorem reads_inert {f : Features} {a : List Char} (ha : isInert a = true) {l : List Segment}
    (h : Reads f l) : Reads f (a.map .plain ++ l) := by
  induction a with
  | nil => exact h
  | cons c r ih =>
    have hr : isInert r = true := by
      simp only [isInert, Bool.and_eq_true] at ha
      exact ha.2
    refine ⟨?_, ih hr⟩
    have ht : textOf (r.map .plain ++ l) = r ++ textOf l := by
      rw [textOf_append, textOf_map_plain]
    exact ht ▸ tagAt?_of_inert ha (textOf l)

end MarkdownPreview.Markup

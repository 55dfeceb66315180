import MarkdownPreview.Proofs.Markup.Emission
import MarkdownPreview.Proofs.Markup.Items

/-!
# A pass keeps what it does not replace

The tokens of a text stand in it one behind the other, with gaps between them. A pass puts one text
into the place of each token and copies the gaps, so that nothing of the document is lost, doubled
or moved. What the scanner found of an item but left out of its token, a marker with a capital,
belongs to the gap behind the token.

* `standFrom_scan`: the tokens stand in the text, in order.
* `interleave_texts`, `weave_zip`: the gaps with the tokens' texts between them are the document, and
  with the emitted texts they are the content.
* `getElem?_steps`, `getElem?_outputsFor`: the text for a token is decided in the state that the
  tokens before it lead to.
* `transform_partitions`: all of this for every document.
-/
namespace MarkdownPreview.Markup

/-! ## Tokens in a text -/

/-- The tokens stand in a text from place `pos` on, one behind the other, and none is empty. -/
def StandFrom (s : List Char) : (pos : Nat) → List Token → Prop
  | _, [] => True
  | pos, t :: r =>
    pos ≤ t.start ∧ s.drop t.start = t.text ++ s.drop t.stop ∧ t.text ≠ [] ∧ StandFrom s t.stop r

theorem StandFrom.mono {s : List Char} {pos p : Nat} {ts : List Token} (h : StandFrom s pos ts)
    (hp : p ≤ pos) : StandFrom s p ts := by
  cases ts with
  | nil => trivial
  | cons t r => exact ⟨Nat.le_trans hp h.1, h.2⟩

theorem standFrom_tokensFrom {f : Features} {l : List Segment} (h : Reads f l) {s : List Char}
    {pos : Nat} (hs : s.drop pos = textOf l) : StandFrom s pos (tokensFrom pos l) := by
  induction l generalizing pos with
  | nil => trivial
  | cons x l ih =>
    cases x with
    | plain c =>
      have hl : s.drop (pos + 1) = textOf l := by
        rw [← List.drop_drop, hs]
        rfl
      exact (ih h.2 hl).mono (Nat.le_succ pos)
    | tag t =>
      have hl : s.drop (pos + t.text.length) = textOf l := by
        rw [← List.drop_drop, hs, textOf_tag, List.drop_left]
      refine ⟨Nat.le_refl _, ?_, tagAt?_text_ne_nil h.1, ih h.2 hl⟩
      exact hs.trans (congrArg (t.text ++ ·) hl.symm)

theorem standFrom_scan (f : Features) (html : String) :
    StandFrom html.toList 0 (scan f html) :=
  standFrom_tokensFrom (reads_segments f html.toList) (textOf_segments f html.toList).symm

theorem StandFrom.of_mem {s : List Char} {pos : Nat} {ts : List Token} (h : StandFrom s pos ts)
    {t : Token} (ht : t ∈ ts) :
    pos ≤ t.start ∧ s.drop t.start = t.text ++ s.drop t.stop ∧ t.text ≠ [] := by
  induction ts generalizing pos with
  | nil => cases ht
  | cons u r ih =>
    obtain ⟨hp, hu, hne, hr⟩ := h
    rcases List.mem_cons.1 ht with rfl | ht
    · exact ⟨hp, hu, hne⟩
    · obtain ⟨hs, hrest⟩ := ih hr ht
      exact ⟨Nat.le_trans hp (Nat.le_trans (Nat.le_add_right ..) hs), hrest⟩

theorem stop_le_of_mem_scan {f : Features} {html : String} {t : Token} (h : t ∈ scan f html) :
    t.stop ≤ html.length := by
  have hlt := start_lt_of_mem_scan h
  have hlen := congrArg List.length ((standFrom_scan f html).of_mem h).2.1
  have hstop : t.stop = t.start + t.text.length := rfl
  rw [List.length_append, List.length_drop, List.length_drop] at hlen
  rw [← String.length_toList]
  omega

theorem StandFrom.pairwise {s : List Char} {pos : Nat} {ts : List Token}
    (h : StandFrom s pos ts) : ts.Pairwise fun t u => t.stop ≤ u.start := by
  induction ts generalizing pos with
  | nil => exact .nil
  | cons t r ih =>
    obtain ⟨-, -, -, hr⟩ := h
    exact .cons (fun u hu => (hr.of_mem hu).1) (ih hr)

/-! ## Gaps -/

/-- The texts around tokens from place `pos` on: one before each token and one behind the last. -/
def gapsFrom (s : List Char) : (pos : Nat) → List Token → List (List Char)
  | pos, [] => [s.drop pos]
  | pos, t :: r => (s.drop pos).take (t.start - pos) :: gapsFrom s t.stop r

/-- Gaps with a text between each two of them. -/
def interleave : List (List Char) → List (List Char) → List Char
  | g :: gaps, x :: texts => g ++ x ++ interleave gaps texts
  | gaps, _ => gaps.flatten

theorem length_gapsFrom (s : List Char) (pos : Nat) (ts : List Token) :
    (gapsFrom s pos ts).length = ts.length + 1 := by
  induction ts generalizing pos with
  | nil => rfl
  | cons t r ih => exact congrArg (· + 1) (ih t.stop)

/-- The gaps with the tokens between them are the text. -/
theorem interleave_texts {s : List Char} {pos : Nat} {ts : List Token} (h : StandFrom s pos ts) :
    interleave (gapsFrom s pos ts) (ts.map fun t => t.text) = s.drop pos := by
  induction ts generalizing pos with
  | nil => exact List.append_nil _
  | cons t r ih =>
    obtain ⟨hp, ht, -, hr⟩ := h
    have hd : (s.drop pos).drop (t.start - pos) = s.drop t.start := by
      rw [List.drop_drop, Nat.add_sub_cancel' hp]
    calc interleave (gapsFrom s pos (t :: r)) (List.map (fun t => t.text) (t :: r))
        = (s.drop pos).take (t.start - pos) ++ t.text ++
            interleave (gapsFrom s t.stop r) (r.map fun t => t.text) := rfl
      _ = (s.drop pos).take (t.start - pos) ++ s.drop t.start := by
        rw [ih hr, List.append_assoc, ht]
      _ = s.drop pos := by rw [← hd, List.take_append_drop]

/-- Weaving texts into the places of tokens puts them between the gaps. -/
theorem weave_zip {s : List Char} {pos : Nat} {ts : List Token} {outs : List (List Char)}
    (h : outs.length = ts.length) :
    weave s pos (ts.zip outs) = interleave (gapsFrom s pos ts) outs := by
  induction ts generalizing pos outs with
  | nil =>
    cases outs with
    | nil => exact (List.append_nil _).symm
    | cons x outs => cases h
  | cons t r ih =>
    cases outs with
    | nil => cases h
    | cons x outs =>
      rw [List.zip_cons_cons, weave, ih (Nat.succ.inj h)]
      rfl

/-- The gap behind a token ends where the next token begins, or with the text. -/
theorem getElem?_gapsFrom_succ (s : List Char) (pos : Nat) {i : Nat} {ts : List Token} {t : Token}
    (h : ts[i]? = some t) :
    (ts[i + 1]? = none ∧ (gapsFrom s pos ts)[i + 1]? = some (s.drop t.stop)) ∨
      ∃ u, ts[i + 1]? = some u ∧
        (gapsFrom s pos ts)[i + 1]? = some ((s.drop t.stop).take (u.start - t.stop)) := by
  induction ts generalizing pos i with
  | nil => cases h
  | cons v r ih =>
    cases i with
    | succ i => exact ih _ h
    | zero =>
      cases h
      cases r with
      | nil => exact .inl ⟨rfl, rfl⟩
      | cons u r => exact .inr ⟨u, rfl, rfl⟩

/-! ## Emitted texts -/

def PassState.after (st : PassState) (l : List Tag) : PassState :=
  l.foldl (fun st t => st.next t.kind) st

theorem getElem?_steps (f : Features) (st : PassState) (l : List Tag) (i : Nat) :
    (st.steps f l)[i]? = l[i]?.map fun t => (st.after (l.take i)).replace f t := by
  induction l generalizing st i with
  | nil => rfl
  | cons t r ih =>
    cases i with
    | zero => rfl
    | succ i => exact ih (st.next t.kind) i

theorem length_steps (f : Features) (st : PassState) (l : List Tag) :
    (st.steps f l).length = l.length := by
  induction l generalizing st with
  | nil => rfl
  | cons t r ih => exact congrArg (· + 1) (ih _)

/-- The state in which a pass comes to its `i`-th token, counted from zero. -/
def stateBefore (f : Features) (html : String) (i : Nat) : PassState :=
  PassState.initial.after (((scan f html).map Token.toTag).take i)

/-- The texts that a pass emits for the tokens of a document, in order. -/
def outputs (f : Features) (html : String) : List (List Char) :=
  (PassState.initial.steps f ((scan f html).map Token.toTag)).map Prod.fst

/-- The texts that a pass under `f` emits for the tokens that are found under `g`, in order. -/
def outputsFor (f g : Features) (html : String) : List (List Char) :=
  (PassState.initial.steps f ((scan g html).map Token.toTag)).map Prod.fst

theorem outputs_eq_outputsFor (f : Features) (html : String) :
    outputs f html = outputsFor f f html := rfl

theorem length_outputsFor (f g : Features) (html : String) :
    (outputsFor f g html).length = (scan g html).length := by
  rw [outputsFor, List.length_map, length_steps, List.length_map]

theorem getElem?_outputsFor (f g : Features) (html : String) (i : Nat) :
    (outputsFor f g html)[i]? =
      (scan g html)[i]?.map fun t => ((stateBefore g html i).replace f t.toTag).1 := by
  rw [outputsFor, List.getElem?_map, getElem?_steps, List.getElem?_map, Option.map_map,
    Option.map_map]
  rfl

/-- What a pass makes of segments stands between the gaps around their tags, also of segments that
were found under other features. -/
theorem run_eq_interleave (f g : Features) (html : String) :
    (run f .initial (segments g html.toList)).1 =
      interleave (gapsFrom html.toList 0 (scan g html)) (outputsFor f g html) := by
  rw [run_eq_weave, ← weave_zip (length_outputsFor f g html)]
  rfl

theorem transform_eq_interleave (f : Features) (html : String) :
    transform f html = wrapBody (String.ofList
      (interleave (gapsFrom html.toList 0 (scan f html)) (outputs f html))) :=
  congrArg (fun s => wrapBody (String.ofList s)) (run_eq_interleave f f html)

theorem stateBefore_succ_of_other {f : Features} {html : String} {i : Nat} {t : Token}
    (h : (scan f html)[i]? = some t) (hk : t.kind = .other) :
    stateBefore f html (i + 1) = stateBefore f html i := by
  have ht : ((scan f html).map Token.toTag)[i]? = some t.toTag := by rw [List.getElem?_map, h]; rfl
  rw [stateBefore, List.take_add_one, ht, PassState.after, List.foldl_append]
  change PassState.next _ t.kind = _
  rw [hk]
  rfl

/-! ## What was found and cut off -/

/-- What was found where a token begins reaches no further than to the next token. -/
theorem FirstAt.prefix_gap {f : Features} {html : String} {i : Nat} {t : Token}
    (h : (scan f html)[i]? = some t) {sp : Spelling} {m : List Char}
    (hf : FirstAt f html.toList t.start sp (t.text ++ m)) :
    ∃ g, (gapsFrom html.toList 0 (scan f html))[i + 1]? = some g ∧ m <+: g := by
  have hs := (standFrom_scan f html).of_mem (List.mem_of_getElem? h)
  have hm : m <+: html.toList.drop t.stop := by
    have := hf.finds.stands
    rwa [hs.2.1, List.prefix_append_right_inj] at this
  rcases getElem?_gapsFrom_succ html.toList 0 h with ⟨-, hg⟩ | ⟨u, hu, hg⟩
  · exact ⟨_, hg, hm⟩
  · refine ⟨_, hg, List.prefix_take_iff.2 ⟨hm, ?_⟩⟩
    have hu' := mem_scan_iff.1 (List.mem_of_getElem? hu)
    have hle : t.stop ≤ u.start := by
      obtain ⟨hi, rfl⟩ := List.getElem?_eq_some_iff.1 h
      obtain ⟨hj, rfl⟩ := List.getElem?_eq_some_iff.1 hu
      exact List.pairwise_iff_getElem.1 (standFrom_scan f html).pairwise i (i + 1) hi hj (by omega)
    have hpos := List.length_pos_iff.2 hs.2.2
    have hstop : t.stop = t.start + t.text.length := rfl
    have hlen : (t.text ++ m).length = t.text.length + m.length := List.length_append
    have hfound := (findsAt_iff (mem_vocabulary_of_mem_active hf.mem_active)).1 hf.finds
    rcases Nat.lt_or_ge (u.start - t.stop) m.length with hlt | hge
    · -- the next token would begin inside what was found
      have hin := tagAt?_inside_found hf.mem_active hfound
        (show 0 < u.start - t.start by omega) (by omega)
      rw [List.drop_drop, Nat.add_sub_cancel' (by omega), hu'] at hin
      cases hin
    · exact hge

/-! ## The whole pass -/

/-- The tokens of a document, the gaps around them and the texts that a pass emits for them make up
the document and its preview, in order. -/
structure Partitions (f : Features) (html : String) (gaps outs : List (List Char)) : Prop where
  ordered : (scan f html).Pairwise fun t u => t.stop ≤ u.start
  inside : ∀ t ∈ scan f html, t.start < t.stop ∧ t.stop ≤ html.length ∧
    t.text = (html.toList.drop t.start).take (t.stop - t.start)
  gaps_length : gaps.length = (scan f html).length + 1
  source : html.toList = interleave gaps ((scan f html).map fun t => t.text)
  result : transform f html = wrapBody (String.ofList (interleave gaps outs))
  /-- Each text is the replacement of its token in the state that the tokens before it lead to. -/
  out : ∀ i, outs[i]? =
    (scan f html)[i]?.map fun t => ((stateBefore f html i).replace f t.toTag).1
  other : ∀ i t, (scan f html)[i]? = some t → t.kind = .other →
    outs[i]? = some t.text ∧ stateBefore f html (i + 1) = stateBefore f html i
  /-- What was found where a token begins is the token's text, or that and a marker with a capital
  in the gap behind it. -/
  cut : ∀ i t, (scan f html)[i]? = some t → ∃ sp m g,
    FirstAt f html.toList t.start sp (t.text ++ m) ∧ (m = [] ∨ m = Marker.capital.text.toList) ∧
      gaps[i + 1]? = some g ∧ m <+: g

/-- Nothing of a document is lost, doubled or moved. -/
theorem transform_partitions (f : Features) (html : String) :
    Partitions f html (gapsFrom html.toList 0 (scan f html)) (outputs f html) where
  ordered := (standFrom_scan f html).pairwise
  inside t ht := by
    obtain ⟨-, hs, hne⟩ := (standFrom_scan f html).of_mem ht
    have hpos := List.length_pos_iff.2 hne
    have hstop : t.stop = t.start + t.text.length := rfl
    refine ⟨by omega, stop_le_of_mem_scan ht, ?_⟩
    rw [Token.stop, Nat.add_sub_cancel_left, hs, List.take_left]
  gaps_length := length_gapsFrom ..
  source := (interleave_texts (standFrom_scan f html)).symm
  result := transform_eq_interleave f html
  out := getElem?_outputsFor f f html
  other i t h hk := by
    refine ⟨?_, stateBefore_succ_of_other h hk⟩
    obtain ⟨⟨k, text⟩, start⟩ := t
    obtain rfl : k = .other := hk
    rw [outputs_eq_outputsFor, getElem?_outputsFor, h]
    rfl
  cut i t h := by
    obtain ⟨sp, a, hf, ht⟩ := tagAt?_iff_firstAt.1 (mem_scan_iff.1 (List.mem_of_getElem? h))
    obtain ⟨m, ha, hm⟩ := text_settle_append (mem_vocabulary_of_mem_active hf.mem_active)
      hf.finds.shape
    rw [← ht] at ha
    subst ha
    obtain ⟨g, hg, hp⟩ := hf.prefix_gap h
    exact ⟨sp, m, g, hf, hm, hg, hp⟩

end MarkdownPreview.Markup

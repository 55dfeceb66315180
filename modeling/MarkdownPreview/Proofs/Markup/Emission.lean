import MarkdownPreview.Markup.Pass
import MarkdownPreview.Proofs.Markup.Scan

/-!
# What a pass puts in the place of each token

`emissions` lists the tokens of a text with the texts that a pass emits for them, and `weave` copies
the text around them. Together they are the pass:

* `transform_eq_weave`: the emitted texts, with what is copied between the tokens, are the content.
* `mem_emissions_iff`: a token's text depends on the token and on the state that the segments before
  it lead to.
-/
namespace MarkdownPreview.Markup

/-- The tokens among segments that begin at place `pos`, each with the text that a pass emits for it
which goes through them from the state `st`. -/
def emissionsFrom (f : Features) (pos : Nat) (st : PassState) (l : List Segment) :
    List (Token × List Char) :=
  (tokensFrom pos l).zip ((st.steps f (tagsOf l)).map Prod.fst)

/-- The tokens of a text, each with the text that a pass emits for it. -/
def emissions (f : Features) (html : String) : List (Token × List Char) :=
  emissionsFrom f 0 .initial (segments f html.toList)

@[simp] theorem emissionsFrom_nil (f : Features) (pos : Nat) (st : PassState) :
    emissionsFrom f pos st [] = [] := rfl

@[simp] theorem emissionsFrom_plain (f : Features) (pos : Nat) (st : PassState) (c : Char)
    (l : List Segment) :
    emissionsFrom f pos st (.plain c :: l) = emissionsFrom f (pos + 1) st l := by
  simp only [emissionsFrom, tokensFrom, tagsOf_plain]

@[simp] theorem emissionsFrom_tag (f : Features) (pos : Nat) (st : PassState) (t : Tag)
    (l : List Segment) :
    emissionsFrom f pos st (.tag t :: l) =
      (⟨t, pos⟩, (st.replace f t).1) ::
        emissionsFrom f (pos + t.text.length) (st.next t.kind) l := by
  simp only [emissionsFrom, tokensFrom, tagsOf_tag, PassState.steps, List.map_cons,
    List.zip_cons_cons]

/-- Each token is emitted once, in order. -/
theorem map_fst_emissions (f : Features) (html : String) :
    (emissions f html).map Prod.fst = scan f html := by
  have key : ∀ (l : List Segment) (pos : Nat) (st : PassState),
      (emissionsFrom f pos st l).map Prod.fst = tokensFrom pos l := by
    intro l
    induction l with
    | nil => intros; rfl
    | cons x l ih =>
      intro pos st
      cases x with
      | plain c => rw [emissionsFrom_plain, ih]; rfl
      | tag t => rw [emissionsFrom_tag, List.map_cons, ih]; rfl
  exact key _ _ _

theorem mem_scan_of_mem_emissions {f : Features} {html : String} {t : Token} {out : List Char}
    (h : (t, out) ∈ emissions f html) : t ∈ scan f html := by
  rw [← map_fst_emissions]
  exact List.mem_map_of_mem h

theorem exists_mem_emissions {f : Features} {html : String} {t : Token} (h : t ∈ scan f html) :
    ∃ out, (t, out) ∈ emissions f html := by
  rw [← map_fst_emissions] at h
  obtain ⟨⟨_, out⟩, hm, rfl⟩ := List.mem_map.1 h
  exact ⟨out, hm⟩

/-! ## The content -/

/-- The text from place `pos` on, with the emitted texts in the places of the tokens. -/
def weave (s : List Char) : (pos : Nat) → List (Token × List Char) → List Char
  | pos, [] => s.drop pos
  | pos, (t, out) :: r => (s.drop pos).take (t.start - pos) ++ out ++ weave s t.stop r

/-- With `mid` copied since place `p`, the rest of the pass is woven in from there. -/
theorem weave_emissionsFrom {f : Features} {s mid : List Char} {l : List Segment} {p : Nat}
    (hs : s.drop p = mid ++ textOf l) (st : PassState) :
    weave s p (emissionsFrom f (p + mid.length) st l) = mid ++ (run f st l).1 := by
  induction l generalizing p mid st with
  | nil => exact hs
  | cons x l ih =>
    cases x with
    | plain c =>
      have hc : s.drop p = (mid ++ [c]) ++ textOf l := by
        rw [hs, textOf_plain, List.append_assoc]
        rfl
      have := ih hc st
      rw [List.length_append, List.length_singleton, ← Nat.add_assoc] at this
      rw [emissionsFrom_plain, this, List.append_assoc]
      rfl
    | tag t =>
      have ht : s.drop (p + mid.length + t.text.length) = [] ++ textOf l := by
        rw [← List.drop_drop, ← List.drop_drop, hs, List.drop_left, textOf_tag, List.drop_left]
        rfl
      have := ih ht (st.next t.kind)
      rw [List.length_nil, Nat.add_zero, List.nil_append] at this
      rw [emissionsFrom_tag, weave]
      simp only [Token.stop, Nat.add_sub_cancel_left, hs, List.take_left, this]
      exact List.append_assoc ..

/-- What a pass makes of segments is woven from what it emits for their tags, also of segments that
were found under other features. -/
theorem run_eq_weave (f g : Features) (s : List Char) :
    (run f .initial (segments g s)).1 =
      weave s 0 (emissionsFrom f 0 .initial (segments g s)) := by
  have hs : s.drop 0 = [] ++ textOf (segments g s) := (textOf_segments g s).symm
  exact (weave_emissionsFrom (f := f) hs .initial).symm

theorem transform_eq_weave (f : Features) (html : String) :
    transform f html = wrapBody (String.ofList (weave html.toList 0 (emissions f html))) :=
  congrArg (fun s => wrapBody (String.ofList s)) (run_eq_weave f f html.toList)

/-! ## The text of one token -/

theorem mem_emissionsFrom_iff {f : Features} {l : List Segment} {pos : Nat} {st : PassState}
    {t : Token} {out : List Char} : (t, out) ∈ emissionsFrom f pos st l ↔
      ∃ before after, l = before ++ .tag t.toTag :: after ∧
        t.start = pos + (textOf before).length ∧
        out = ((run f st before).2.replace f t.toTag).1 := by
  induction l generalizing pos st with
  | nil => simp
  | cons x l ih =>
    cases x with
    | plain c =>
      rw [emissionsFrom_plain, ih]
      constructor
      · rintro ⟨before, after, rfl, hs, rfl⟩
        refine ⟨.plain c :: before, after, rfl, ?_, rfl⟩
        rw [textOf_plain, List.length_cons]
        omega
      · rintro ⟨before, after, hl, hs, rfl⟩
        rcases List.cons_eq_append_iff.1 hl with ⟨-, he⟩ | ⟨before, rfl, rfl⟩
        · cases he
        · refine ⟨before, after, rfl, ?_, rfl⟩
          rw [textOf_plain, List.length_cons] at hs
          omega
    | tag u =>
      rw [emissionsFrom_tag, List.mem_cons, ih]
      constructor
      · rintro (he | ⟨before, after, rfl, hs, rfl⟩)
        · cases he
          exact ⟨[], l, rfl, rfl, rfl⟩
        · refine ⟨.tag u :: before, after, rfl, ?_, rfl⟩
          rw [textOf_tag, List.length_append]
          omega
      · rintro ⟨before, after, hl, hs, rfl⟩
        rcases List.cons_eq_append_iff.1 hl with ⟨rfl, he⟩ | ⟨before, rfl, rfl⟩
        · cases he
          obtain ⟨t', start⟩ := t
          obtain rfl : start = pos := hs
          exact .inl rfl
        · refine .inr ⟨before, after, rfl, ?_, rfl⟩
          rw [textOf_tag, List.length_append] at hs
          omega

/-- The text emitted for a token depends on it and on the state that the segments before it lead
to. -/
theorem mem_emissions_iff {f : Features} {html : String} {t : Token} {out : List Char} :
    (t, out) ∈ emissions f html ↔
      ∃ before after, segments f html.toList = before ++ .tag t.toTag :: after ∧
        t.start = (textOf before).length ∧
        out = ((run f .initial before).2.replace f t.toTag).1 := by
  simp only [emissions, mem_emissionsFrom_iff, Nat.zero_add]

end MarkdownPreview.Markup

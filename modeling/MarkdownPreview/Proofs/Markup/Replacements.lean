import MarkdownPreview.Proofs.Markup.SecondPass

/-!
# The texts that a pass can emit

However many rows a pass has counted and whatever lists are open, the text that it puts in the place
of a tag is one of a few (`Kind.replacements`).

* `text_replace`: what is emitted for a tag is its own text or one of these.
* `mem_replacements_iff`: each of them is emitted in some state.
-/
namespace MarkdownPreview.Markup

/-- The texts that can take the place of a tag of a kind. -/
def Kind.replacements : Kind → List String
  | .rowOpen => rowClasses.map fun cls => "<tr class=\"" ++ cls ++ "\">"
  | .rule => [ruleBox]
  | .delOpen => ["<span class=\"del\">"]
  | .delClose => ["</span>"]
  | .itemOpen => [itemOf "bullet" ++ bulletBox]
  | .itemChecked => [itemOf "task" ++ checkedBox]
  | .itemUnchecked => [itemOf "task" ++ uncheckedBox]
  | .taskItem => [itemOf "task"]
  | .itemPara => [paragraphItemOf "bulletp" ++ bulletBox, paragraphItemOf "p"]
  | .itemParaChecked => [paragraphItemOf "taskp" ++ checkedBox]
  | .itemParaUnchecked => [paragraphItemOf "taskp" ++ uncheckedBox]
  | .taskItemPara => [paragraphItemOf "taskp"]
  | _ => []

theorem mem_replacements {f : Features} {st : PassState} {k : Kind} {w : String}
    (h : st.replacement? f k = some w) : w ∈ k.replacements := by
  cases k with
  | rowOpen =>
    cases h
    exact List.mem_map_of_mem (rowClass_mem_rowClasses _)
  | itemOpen =>
    obtain ⟨-, he⟩ := Option.ite_none_right_eq_some.1 h
    cases he
    exact List.mem_singleton_self _
  | itemPara =>
    simp only [PassState.replacement?] at h
    split at h <;> cases h <;> simp [Kind.replacements]
  | _ =>
    cases h <;> exact List.mem_singleton_self _

/-- What is emitted for a tag is its own text or one of those for its kind. -/
theorem text_replace (f : Features) (st : PassState) (t : Tag) : (st.replace f t).1 = t.text ∨
    ∃ w ∈ t.kind.replacements, (st.replace f t).1 = w.toList := by
  rw [PassState.replace]
  cases hw : st.replacement? f t.kind with
  | none => exact .inl rfl
  | some w => exact .inr ⟨w, mem_replacements hw, rfl⟩

/-- The state in a bulleted list, behind `n` rows. -/
def bulletedState (n : Nat) : PassState :=
  ⟨n, ListNesting.initial.push .unordered⟩

/-- A text can take the place of a tag exactly if it does so in some state. -/
theorem mem_replacements_iff {k : Kind} {w : String} :
    w ∈ k.replacements ↔ ∃ f st, PassState.replacement? f st k = some w := by
  refine ⟨fun h => ?_, fun ⟨f, st, h⟩ => mem_replacements h⟩
  cases k with
  | rowOpen =>
    simp only [Kind.replacements, rowClasses, List.map_cons, List.map_nil, List.mem_cons,
      List.not_mem_nil, or_false] at h
    rcases h with rfl | rfl | rfl
    · exact ⟨{}, bulletedState 0, rfl⟩
    · exact ⟨{}, bulletedState 1, rfl⟩
    · exact ⟨{}, bulletedState 2, rfl⟩
  | itemPara =>
    simp only [Kind.replacements, List.mem_cons, List.not_mem_nil, or_false] at h
    rcases h with rfl | rfl
    · exact ⟨⟨false, true⟩, bulletedState 0, rfl⟩
    · exact ⟨⟨false, false⟩, bulletedState 0, rfl⟩
  | itemOpen =>
    cases List.mem_singleton.1 h
    exact ⟨⟨false, true⟩, bulletedState 0, rfl⟩
  | rule | delOpen | delClose | itemChecked | itemUnchecked | taskItem | itemParaChecked
  | itemParaUnchecked | taskItemPara =>
    cases List.mem_singleton.1 h
    exact ⟨{}, bulletedState 0, rfl⟩
  | _ => cases h

end MarkdownPreview.Markup

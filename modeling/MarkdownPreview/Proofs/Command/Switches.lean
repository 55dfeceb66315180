import MarkdownPreview.Command.Arguments

/-!
# Switches in full

Most switches take no value. Behind a path, such switches are used one after the other as they
stand, as long as they are spelled in full: nothing is cut short, and nothing has to be looked up
in the arguments around them.

* `readArguments_switches`: what a path and such switches say.
* `readArguments_features`: the switches that name some features.
-/
namespace MarkdownPreview.Command

/-- A switch with one of its spellings. -/
structure Spelling where
  switch : Switch
  text : String
  listed : text ∈ switch.spellings

namespace Spelling

/-- What a spelling is among the arguments. -/
def item (x : Spelling) : Item :=
  ⟨x.text, .switch x.switch x.text .nothing⟩

/-- The use that a spelling stands for, if its switch takes no value. -/
def use (x : Spelling) : Use :=
  ⟨x.switch, x.text, none⟩

theorem text_ne_separator (x : Spelling) : x.text ≠ "--" := by
  have hlisted : ∀ s ∈ Switch.all, "--" ∉ s.spellings := by decide
  exact fun h => hlisted x.switch (Switch.mem_all _) (h ▸ x.listed)

end Spelling

theorem itemsOf_spellings (l : List Spelling) :
    itemsOf (l.map Spelling.text) = .ok (l.map Spelling.item) := by
  induction l with
  | nil => rfl
  | cons x l ih =>
    rw [List.map_cons, itemsOf, if_neg x.text_ne_separator, classify_spelling x.listed, ih]
    rfl

/-- Switches without values are used from left to right. -/
theorem readItems_spellings {l : List Spelling} (hl : ∀ x ∈ l, x.switch.takesValue = false)
    {d : Draft} {choices : Choices} (h : d.choices.applyAll (l.map Spelling.use) = .ok choices) :
    readItems d (l.map Spelling.item) = .ok { d with choices } := by
  induction l generalizing d with
  | nil =>
    cases h
    rw [List.map_nil, readItems]
  | cons x l ih =>
    rw [List.map_cons, Choices.applyAll] at h
    cases hx : d.choices.apply x.use with
    | error e =>
      rw [hx] at h
      cases h
    | ok next =>
      rw [hx] at h
      have hread : usesOf x.switch x.text .nothing (nextPlain? (l.map Spelling.item)) =
          .ok ([x.use], false) := by
        simp [usesOf, useAlone, hl x List.mem_cons_self, Spelling.use]
      rw [List.map_cons, Spelling.item]
      unfold readItems
      simp only [hread, Choices.applyAll, hx]
      exact ih (fun y hy => hl y (List.mem_cons_of_mem _ hy)) (d := { d with choices := next }) h

/-- What a path and some switches without values say. -/
theorem readArguments_switches {path : String} (hpath : ∀ r, path.toList ≠ '-' :: r)
    {l : List Spelling} (hl : ∀ x ∈ l, x.switch.takesValue = false) {choices : Choices}
    (h : Choices.applyAll {} (l.map Spelling.use) = .ok choices) :
    readArguments (path :: l.map Spelling.text) = .ok { path, choices } := by
  have hne : path ≠ "--" := by
    rintro rfl
    exact hpath ['-'] rfl
  have hafter : afterPath (l.map Spelling.item) = l.map Spelling.item := by
    cases l <;> rfl
  have hread : readItems {} (⟨path, .plain⟩ :: l.map Spelling.item) =
      .ok { path := some path, choices } := by
    unfold readItems
    simp only [hafter]
    exact readItems_spellings hl (d := { path := some path }) h
  rw [readArguments, itemsOf, if_neg hne, classify_plain hpath, itemsOf_spellings]
  simp only [hread]
  rfl

/-! ## Features -/

/-- The switch that says something about task lists. -/
def taskListsSwitch (on : Bool) : Spelling where
  switch := .taskLists
  text := if on then "--task-lists" else "--no-task-lists"
  listed := by cases on <;> decide

/-- The switch that says something about icon bullets. -/
def iconBulletsSwitch (on : Bool) : Spelling where
  switch := .iconBullets
  text := if on then "--icon-bullets" else "--no-icon-bullets"
  listed := by cases on <;> decide

/-- The switches that name some features. -/
def switchesFor (o : FeatureOverrides) : List Spelling :=
  (o.taskLists.map taskListsSwitch).toList ++ (o.iconBullets.map iconBulletsSwitch).toList

theorem turnsOn_taskListsSwitch (on : Bool) : Switch.turnsOn (taskListsSwitch on).text = on := by
  cases on <;> decide

theorem turnsOn_iconBulletsSwitch (on : Bool) :
    Switch.turnsOn (iconBulletsSwitch on).text = on := by
  cases on <;> decide

theorem takesValue_switchesFor (o : FeatureOverrides) :
    ∀ x ∈ switchesFor o, x.switch.takesValue = false := by
  obtain ⟨t, i⟩ := o
  cases t <;> cases i <;> simp [switchesFor, taskListsSwitch, iconBulletsSwitch, Switch.takesValue]

/-- The switches that name some features choose these features. -/
theorem applyAll_switchesFor (o : FeatureOverrides) :
    Choices.applyAll {} ((switchesFor o).map Spelling.use) = .ok { features := o } := by
  have htask := turnsOn_taskListsSwitch
  have hicon := turnsOn_iconBulletsSwitch
  simp only [taskListsSwitch, iconBulletsSwitch] at htask hicon
  obtain ⟨t, i⟩ := o
  cases t <;> cases i <;>
    simp [switchesFor, taskListsSwitch, iconBulletsSwitch, Spelling.use, Choices.applyAll,
      Choices.apply, htask, hicon]

/-- The switches behind a path name the features, and nothing else is chosen. -/
theorem readArguments_features {path : String} (h : ∀ r, path.toList ≠ '-' :: r)
    (o : FeatureOverrides) :
    readArguments (path :: (switchesFor o).map Spelling.text) =
      .ok { path, choices := { features := o } } :=
  readArguments_switches h (takesValue_switchesFor o) (applyAll_switchesFor o)

end MarkdownPreview.Command

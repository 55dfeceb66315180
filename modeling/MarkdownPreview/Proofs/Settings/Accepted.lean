import MarkdownPreview.Settings.Options

/-!
# What accepted settings hold

A site's options give each field a value of the field's own type, so that the quantities of the
settings stay whole numbers, and the check of the ranges lets no others pass.

* `whole_putAll`: whatever fields are changed, the quantities stay whole numbers.
* `accepted_ofOptions`: in accepted settings, the time limit is a positive whole number, the width of
  images is none below zero, and the theme is one that there is.
-/
namespace MarkdownPreview.Settings

open Json (Value Fields)
open Text (Phrase)

/-! ## Whole quantities -/

/-- The quantities of the settings are whole numbers. -/
def Whole (s : Settings) : Prop :=
  (∃ i, s.parsingTimeout = .whole i) ∧ ∃ i, s.maxImgWidth = .whole i

/-- A new value of the field leaves the quantities whole numbers. -/
def Field.KeepsWhole (f : Field) : Prop :=
  ∀ key v s s', Whole s → f.put key v s = .ok s' → Whole s'

theorem keepsWhole_flag {get : Settings → Bool} {set : Bool → Settings → Settings}
    (hset : ∀ b s, Whole s → Whole (set b s)) : (Field.flag get set).KeepsWhole := by
  intro key v s s' hs h
  cases v with
  | bool b =>
    cases h
    exact hset b s hs
  | _ => cases h

theorem keepsWhole_text {get : Settings → Phrase} {set : Phrase → Settings → Settings}
    (hset : ∀ p s, Whole s → Whole (set p s)) : (Field.text get set).KeepsWhole := by
  intro key v s s' hs h
  cases v with
  | phrase p =>
    cases h
    exact hset p s hs
  | _ => cases h

theorem keepsWhole_quantity {get : Settings → Quantity} {set : Quantity → Settings → Settings}
    (hset : ∀ i s, Whole s → Whole (set (.whole i) s)) : (Field.quantity get set).KeepsWhole := by
  intro key v s s' hs h
  cases v with
  | int i =>
    cases h
    exact hset i s hs
  | _ => cases h

/-- The two quantities are set to whole numbers only, and no other field touches them. -/
theorem keepsWhole_fields : ∀ entry ∈ fields, entry.2.KeepsWhole := by
  intro entry h
  simp only [fields, List.mem_cons, List.not_mem_nil, or_false] at h
  rcases h with rfl | rfl | rfl | rfl | rfl | rfl | rfl | rfl | rfl | rfl | rfl | rfl | rfl | rfl |
    rfl | rfl | rfl | rfl | rfl | rfl | rfl <;> first
    | exact keepsWhole_flag fun _ _ hs => hs
    | exact keepsWhole_text fun _ _ hs => hs
    | exact keepsWhole_quantity fun i _ hs => ⟨⟨i, rfl⟩, hs.2⟩
    | exact keepsWhole_quantity fun i _ hs => ⟨hs.1, i, rfl⟩

theorem mem_fields_of_field? {name : String} {f : Field} (h : field? name = some f) :
    (name, f) ∈ fields := by
  obtain ⟨before, after, he, -⟩ := List.lookup_eq_some_iff.1 h
  rw [he]
  exact List.mem_append_right _ (List.mem_cons_self ..)

theorem fieldAt?_eq_some_iff {key : Phrase} {f : Field} :
    fieldAt? key = some f ↔ ∃ name, key = .plain name ∧ field? name = some f := by
  cases key with
  | plain name => simp [fieldAt?]
  | broken ps h => simp [fieldAt?]

/-- Whatever fields are changed, the quantities stay whole numbers. -/
theorem whole_putAll {fs : Fields} {s s' : Settings} (hs : s.Whole) (h : s.putAll fs = .ok s') :
    s'.Whole := by
  induction fs generalizing s with
  | nil =>
    cases h
    exact hs
  | cons entry r ih =>
    obtain ⟨key, v⟩ := entry
    rw [putAll] at h
    split at h
    · exact ih hs h
    · rename_i f hf
      split at h
      · cases h
      · rename_i s₁ hput
        obtain ⟨name, -, hname⟩ := fieldAt?_eq_some_iff.1 hf
        exact ih (keepsWhole_fields _ (mem_fields_of_field? hname) _ _ _ _ hs hput) h

/-! ## Accepted settings -/

/-- What holds of all settings that a site can have. -/
structure Accepted (s : Settings) : Prop where
  timeout : ∃ limit : Int, s.parsingTimeout = .whole limit ∧ 0 < limit
  imageWidth : ∃ width : Int, s.maxImgWidth = .whole width ∧ 0 ≤ width
  theme : s.htmlTheme ∈ themes.map Phrase.plain

theorem checked_ok_iff {s s' : Settings} : s.checked = .ok s' ↔
    s' = s ∧ s.parsingTimeout.isPositive = true ∧ s.maxImgWidth.isNegative = false ∧
      s.htmlTheme ∈ themes.map Phrase.plain := by
  unfold checked
  cases ht : s.parsingTimeout.isPositive with
  | false => simp
  | true =>
    cases hw : s.maxImgWidth.isNegative with
    | true => simp
    | false =>
      by_cases htheme : s.htmlTheme ∈ themes.map Phrase.plain
      · simp [htheme, eq_comm]
      · simp [htheme]

/-- What the check of the ranges lets pass. -/
theorem accepted_of_checked {s s' : Settings} (hs : s.Whole) (h : s.checked = .ok s') :
    s'.Accepted := by
  obtain ⟨rfl, hpos, hneg, htheme⟩ := checked_ok_iff.1 h
  obtain ⟨⟨limit, ht⟩, width, hw⟩ := hs
  rw [ht, Quantity.isPositive_whole] at hpos
  rw [hw, ← Bool.not_eq_true, Quantity.isNegative_whole] at hneg
  exact ⟨⟨limit, ht, hpos⟩, ⟨width, hw, by omega⟩, htheme⟩

theorem whole_default : Whole {} :=
  ⟨⟨_, rfl⟩, _, rfl⟩

/-- The defaults pass the check that a site's own values have to pass. -/
theorem checked_default : checked {} = .ok {} :=
  checked_ok_iff.2 ⟨rfl, by decide, by decide, by decide⟩

theorem ofFields_ok_iff {options : Fields} {s : Settings} : ofFields options = .ok s ↔
    unknownKeys options = [] ∧ ∃ s', putAll {} options = .ok s' ∧ s'.checked = .ok s := by
  rw [ofFields]
  cases hu : unknownKeys options with
  | cons key r => simp
  | nil =>
    cases hp : putAll {} options with
    | error e => simp [Bind.bind, Except.bind]
    | ok s' => simp [Bind.bind, Except.bind]

/-- Options that name the time limit alone are accepted for every positive one. -/
theorem ofOptions_timeout {limit : Int} (h : 0 < limit) :
    ofOptions (some (.object [(.plain "parsing_timeout", .int limit)])) =
      .ok { parsingTimeout := .whole limit } := by
  have hknown : unknownKeys [(.plain "parsing_timeout", .int limit)] = [] := by
    simp [unknownKeys, fieldAt?, show (field? "parsing_timeout").isNone = false from rfl]
  obtain ⟨-, -, hwidth, htheme⟩ := checked_ok_iff.1 checked_default
  refine ofFields_ok_iff.2 ⟨hknown, _, rfl, checked_ok_iff.2 ⟨rfl, ?_, hwidth, htheme⟩⟩
  exact (Quantity.isPositive_whole limit).2 h

/-- Whatever a site's options are, if they are accepted the settings lie in range. -/
theorem accepted_ofOptions {options : Option Value} {s : Settings}
    (h : ofOptions options = .ok s) : s.Accepted := by
  have hdefault : Accepted {} := accepted_of_checked whole_default checked_default
  unfold ofOptions at h
  split at h
  · cases h
    exact hdefault
  · split at h
    · split at h
      · obtain ⟨-, s', hput, hchecked⟩ := ofFields_ok_iff.1 h
        exact accepted_of_checked (whole_putAll whole_default hput) hchecked
      · cases h
    · cases h
      exact hdefault

end MarkdownPreview.Settings

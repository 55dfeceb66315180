import MarkdownPreview.Proofs.Json.Spelled
import MarkdownPreview.Proofs.Settings.Accepted

/-!
# Which options are accepted

A site gives its options as an object, in any order. They are accepted if each key is an option,
each value has the type of its option, and the numbers and the theme lie in range (`Acceptable`);
the settings then hold the given values and the defaults of all other fields. The order of the keys
has no part in that. It decides only which of several faults is reported, and not even that for
unknown keys, which come before any other fault and are reported all together.

* `putAll_ok_iff`: fields are changed exactly if each value has the type of its field.
* `get?_values_putAll`: what the settings hold then.
* `checked_ok_iff_inRange`: the check of the ranges asks for the given numbers and theme only.
* `ofFields_ok_iff_acceptable`, `ofFields_perm`: which options are accepted, in whatever order.
* `ofFields_unknown`: unknown keys come before any other fault.
* `accepts_exactly`: all of this for every object of options, and what becomes of anything else.
-/
namespace MarkdownPreview.Settings

open Json (Value Fields)
open Number (Binary64)
open Text (Phrase)

/-! ## What options have to be like -/

def flagNames : List String :=
  ["task_lists", "icon_bullets", "smarts", "quotes", "abbreviations", "hard_wraps", "autolinks",
    "wiki_links", "tables", "definitions", "fenced_code_blocks", "suppress_html_blocks",
    "suppress_inline_html", "strikethrough", "header_space", "anchor_links",
    "show_html_text_as_modified"]

def wholeNames : List String := ["parsing_timeout", "max_img_width"]

def textNames : List String := ["html_theme", "custom_css"]

def optionNames : List String := flagNames ++ wholeNames ++ textNames

/-- The keys that are options. -/
def optionKeys : List Phrase := optionNames.map Phrase.plain

/-- Each value has the type of its option. A Boolean is no whole number, and neither is a number
that is written with a fraction; a text may hold lone surrogates. -/
structure WellTyped (options : Fields) : Prop where
  flag : ∀ name ∈ flagNames, ∀ v, (.plain name, v) ∈ options → ∃ b, v = .bool b
  whole : ∀ name ∈ wholeNames, ∀ v, (.plain name, v) ∈ options → ∃ i, v = .int i
  text : ∀ name ∈ textNames, ∀ v, (.plain name, v) ∈ options → ∃ t, v = .phrase t

/-- The numbers and the theme, if they are given, lie in range. -/
structure InRange (options : Fields) : Prop where
  timeout : ∀ i : Int, (.plain "parsing_timeout", .int i) ∈ options → 1 ≤ i
  imageWidth : ∀ i : Int, (.plain "max_img_width", .int i) ∈ options → 0 ≤ i
  theme : ∀ t : Phrase, (.plain "html_theme", .phrase t) ∈ options →
    t = .plain "light" ∨ t = .plain "dark"

structure Acceptable (options : Fields) : Prop where
  known : ∀ key ∈ options.map Prod.fst, key ∈ optionKeys
  typed : WellTyped options
  range : InRange options

theorem Acceptable.of_perm {options options' : Fields} (hp : options.Perm options')
    (h : Acceptable options) : Acceptable options' where
  known key hk := h.known key ((hp.map Prod.fst).mem_iff.2 hk)
  typed :=
    { flag := fun key hk v hv => h.typed.flag key hk v (hp.mem_iff.2 hv)
      whole := fun key hk v hv => h.typed.whole key hk v (hp.mem_iff.2 hv)
      text := fun key hk v hv => h.typed.text key hk v (hp.mem_iff.2 hv) }
  range :=
    { timeout := fun i hi => h.range.timeout i (hp.mem_iff.2 hi)
      imageWidth := fun i hi => h.range.imageWidth i (hp.mem_iff.2 hi)
      theme := fun t ht => h.range.theme t (hp.mem_iff.2 ht) }

/-! ## Fields and their names -/

/-- The names of the fields that hold the same type of value as this one. -/
def Field.names : Field → List String
  | flag _ _ => flagNames
  | quantity _ _ => wholeNames
  | text _ _ => textNames

/-- The values that the options of a field may have. -/
def Field.Takes : Field → Value → Prop
  | flag _ _, v => ∃ b, v = .bool b
  | quantity _ _, v => ∃ i, v = .int i
  | text _ _, v => ∃ t, v = .phrase t

theorem Field.takes_iff {f : Field} {v : Value} : f.Takes v ↔
    (f.names = flagNames → ∃ b, v = .bool b) ∧ (f.names = wholeNames → ∃ i, v = .int i) ∧
      (f.names = textNames → ∃ t, v = .phrase t) := by
  cases f <;> simp [Takes, names, flagNames, wholeNames, textNames]

theorem mem_names_of_mem_fields : ∀ entry ∈ fields, entry.1 ∈ entry.2.names := by decide

theorem names_field? : ∀ names ∈ [flagNames, wholeNames, textNames], ∀ key ∈ names,
    (field? key).map Field.names = some names := by decide +kernel

theorem names_subset (f : Field) : ∀ key ∈ f.names, key ∈ optionNames := by
  cases f <;> simp +contextual [Field.names, optionNames]

theorem isNone_field?_iff {name : String} :
    (field? name).isNone = true ↔ name ∉ optionNames := by
  cases hf : field? name with
  | some f =>
    have hmem := names_subset f name (mem_names_of_mem_fields _ (mem_fields_of_field? hf))
    simp [hmem]
  | none =>
    have hno (names : List String) (hn : names ∈ [flagNames, wholeNames, textNames]) :
        name ∉ names := fun hk => by simpa [hf] using names_field? names hn name hk
    simp [optionNames, hno]

/-- A key with a lone surrogate is no option either. -/
theorem isNone_fieldAt?_iff {key : Phrase} : (fieldAt? key).isNone = true ↔ key ∉ optionKeys := by
  cases key with
  | plain name => simpa [fieldAt?, optionKeys] using isNone_field?_iff
  | broken ps h => simp [fieldAt?, optionKeys]

/-! ## Changing fields -/

/-- A field takes exactly the values of its own type. -/
theorem put_ok_iff {f : Field} {key : String} {v : Value} {s : Settings} :
    (∃ s', f.put key v s = .ok s') ↔ f.Takes v := by
  rcases v with _ | _ | _ | _ | ⟨_ | _⟩ | _ | _ <;> cases f <;> simp [Field.put, Field.Takes]

/-- Fields are changed exactly if each value has the type of its field. -/
theorem putAll_ok_iff {fs : Fields} {s : Settings} : (∃ s', s.putAll fs = .ok s') ↔
    ∀ o ∈ fs, ∀ f, fieldAt? o.1 = some f → f.Takes o.2 := by
  induction fs generalizing s with
  | nil => simp [putAll]
  | cons o r ih =>
    obtain ⟨key, v⟩ := o
    rw [putAll, List.forall_mem_cons]
    cases hf : fieldAt? key with
    | none => simpa using ih
    | some f =>
      have hput : (∃ s₁, f.put key.shown v s = .ok s₁) ↔ f.Takes v := put_ok_iff
      cases hp : f.put key.shown v s with
      | error e => simp [← hput, hp]
      | ok s₁ =>
        have htakes : f.Takes v := hput.1 ⟨s₁, hp⟩
        simpa [hp, htakes] using ih

/-- A new value of the field under `key` takes the place of the old one; nothing else changes. -/
def Field.PutsAt (key : String) (f : Field) : Prop :=
  ∀ v s s', f.put key v s = .ok s' → s'.values = s.values.put (.plain key) v

theorem putsAt_flag {key : String} {get : Settings → Bool} {set : Bool → Settings → Settings}
    (hset : ∀ b s, (set b s).values = s.values.put (.plain key) (.bool b)) :
    (Field.flag get set).PutsAt key := by
  intro v s s' h
  obtain ⟨b, rfl⟩ : (Field.flag get set).Takes v := put_ok_iff.1 ⟨s', h⟩
  cases h
  exact hset b s

theorem putsAt_quantity {key : String} {get : Settings → Quantity}
    {set : Quantity → Settings → Settings}
    (hset : ∀ i s, (set (.whole i) s).values = s.values.put (.plain key) (.int i)) :
    (Field.quantity get set).PutsAt key := by
  intro v s s' h
  obtain ⟨i, rfl⟩ : (Field.quantity get set).Takes v := put_ok_iff.1 ⟨s', h⟩
  cases h
  exact hset i s

theorem putsAt_text {key : String} {get : Settings → Phrase} {set : Phrase → Settings → Settings}
    (hset : ∀ t s, (set t s).values = s.values.put (.plain key) (.phrase t)) :
    (Field.text get set).PutsAt key := by
  intro v s s' h
  obtain ⟨t, rfl⟩ : (Field.text get set).Takes v := put_ok_iff.1 ⟨s', h⟩
  cases h
  exact hset t s

/-- Every field is changed at its own key. -/
theorem putsAt_fields : ∀ entry ∈ fields, entry.2.PutsAt entry.1 := by
  intro entry h
  simp only [fields, List.mem_cons, List.not_mem_nil, or_false] at h
  rcases h with rfl | rfl | rfl | rfl | rfl | rfl | rfl | rfl | rfl | rfl | rfl | rfl | rfl | rfl |
    rfl | rfl | rfl | rfl | rfl | rfl | rfl <;> first
    | exact putsAt_flag fun _ _ => rfl
    | exact putsAt_quantity fun _ _ => rfl
    | exact putsAt_text fun _ _ => rfl

/-- If all keys are options, each value is put at its key, one after the other. -/
theorem values_putAll {options : Fields}
    (hknown : ∀ key ∈ options.map Prod.fst, key ∈ optionKeys) {s s' : Settings}
    (h : s.putAll options = .ok s') :
    s'.values = options.foldl (fun fs o => fs.put o.1 o.2) s.values := by
  induction options generalizing s with
  | nil =>
    cases h
    rfl
  | cons o r ih =>
    obtain ⟨key, v⟩ := o
    rw [List.map_cons, List.forall_mem_cons] at hknown
    rw [putAll] at h
    split at h
    · rename_i hf
      exact absurd hknown.1 (isNone_fieldAt?_iff.1 (Option.isNone_iff_eq_none.2 hf))
    · rename_i f hf
      obtain ⟨name, rfl, hname⟩ := fieldAt?_eq_some_iff.1 hf
      split at h
      · cases h
      · rename_i s₁ hput
        rw [ih hknown.2 h, putsAt_fields _ (mem_fields_of_field? hname) _ _ _ hput]
        rfl

/-- The changed fields hold the given values, and all others what they held before. -/
theorem get?_values_putAll {options : Fields} (hn : (options.map Prod.fst).Nodup)
    (hknown : ∀ key ∈ options.map Prod.fst, key ∈ optionKeys) {s s' : Settings}
    (h : s.putAll options = .ok s') (name : String) (v : Value) :
    s'.values.get? name = some v ↔ (.plain name, v) ∈ options ∨
      .plain name ∉ options.map Prod.fst ∧ s.values.get? name = some v := by
  rw [values_putAll hknown h]
  exact Json.get?_foldl_put hn s.values name v

/-! ## Unknown keys, types and ranges -/

/-- Options are well typed exactly if each field takes the value that is given for it. -/
theorem wellTyped_iff {options : Fields} : WellTyped options ↔
    ∀ o ∈ options, ∀ f, fieldAt? o.1 = some f → f.Takes o.2 := by
  constructor
  · rintro h ⟨key, v⟩ hmem f hf
    obtain ⟨name, rfl, hf⟩ := fieldAt?_eq_some_iff.1 hf
    have hname : name ∈ f.names := mem_names_of_mem_fields _ (mem_fields_of_field? hf)
    exact Field.takes_iff.2 ⟨fun he => h.flag name (he ▸ hname) v hmem,
      fun he => h.whole name (he ▸ hname) v hmem, fun he => h.text name (he ▸ hname) v hmem⟩
  · intro h
    have takes {names : List String} (hn : names ∈ [flagNames, wholeNames, textNames])
        {name : String} (hk : name ∈ names) {v : Value} (hv : (.plain name, v) ∈ options) :
        ∃ f : Field, f.names = names ∧ f.Takes v := by
      obtain ⟨f, hf, hnames⟩ := Option.map_eq_some_iff.1 (names_field? names hn name hk)
      exact ⟨f, hnames, h _ hv f (fieldAt?_eq_some_iff.2 ⟨name, rfl, hf⟩)⟩
    refine ⟨fun name hk v hv => ?_, fun name hk v hv => ?_, fun name hk v hv => ?_⟩
    · obtain ⟨f, hnames, hf⟩ := takes (by simp) hk hv
      exact (Field.takes_iff.1 hf).1 hnames
    · obtain ⟨f, hnames, hf⟩ := takes (by simp) hk hv
      exact (Field.takes_iff.1 hf).2.1 hnames
    · obtain ⟨f, hnames, hf⟩ := takes (by simp) hk hv
      exact (Field.takes_iff.1 hf).2.2 hnames

/-- The unknown keys are all that are no options. -/
theorem unknownKeys_perm (options : Fields) :
    (unknownKeys options).Perm ((options.map Prod.fst).filter fun key => key ∉ optionKeys) := by
  have hunknown : (fun key => (fieldAt? key).isNone) = fun key => decide (key ∉ optionKeys) := by
    funext key
    exact Bool.eq_iff_iff.2 (isNone_fieldAt?_iff.trans decide_eq_true_iff.symm)
  rw [unknownKeys, hunknown]
  exact List.mergeSort_perm _ _

/-- They are in order, whatever the order of the options is. -/
theorem unknownKeys_sorted (options : Fields) :
    (unknownKeys options).Pairwise fun k l => k.le l = true := by
  have htrans (k l m : Phrase) (h : k.le l = true) (h' : l.le m = true) : k.le m = true :=
    Phrase.le_trans h h'
  have htotal (k l : Phrase) : (k.le l || l.le k) = true := by
    simpa using Phrase.le_total k l
  exact List.pairwise_mergeSort htrans htotal _

theorem unknownKeys_of_perm {options options' : Fields} (hp : options.Perm options') :
    unknownKeys options' = unknownKeys options := by
  refine List.Perm.eq_of_pairwise (fun _ _ _ _ => Phrase.le_antisymm)
    (unknownKeys_sorted _) (unknownKeys_sorted _) ?_
  exact (unknownKeys_perm options').trans
    (((hp.map Prod.fst).filter _).symm.trans (unknownKeys_perm options).symm)

theorem unknownKeys_eq_nil_iff {options : Fields} :
    unknownKeys options = [] ↔ ∀ key ∈ options.map Prod.fst, key ∈ optionKeys := by
  have hp := unknownKeys_perm options
  constructor
  · intro h
    rw [h] at hp
    simpa using hp.nil_eq.symm
  · intro h
    have hnone : (options.map Prod.fst).filter (fun key => key ∉ optionKeys) = [] := by
      simpa using h
    rw [hnone] at hp
    exact hp.eq_nil

section

variable {options : Fields} (hn : (options.map Prod.fst).Nodup)
  (hknown : ∀ key ∈ options.map Prod.fst, key ∈ optionKeys) {s : Settings}
  (hs : putAll {} options = .ok s)

include hn hknown hs

/-- What holds of the default of a field holds of its value exactly if it holds of a given one. -/
theorem holds_iff_given {α : Type} {c : α → Value} (hc : c.Injective) {name : String} {x d : α}
    (hx : s.values.get? name = some (c x)) (hd : (values {}).get? name = some (c d))
    {P : α → Prop} (hP : P d) : P x ↔ ∀ y, (.plain name, c y) ∈ options → P y := by
  have hget := get?_values_putAll hn hknown hs name
  constructor
  · intro h y hy
    have hxy : c x = c y := Option.some.inj (hx.symm.trans ((hget _).2 (.inl hy)))
    rwa [← hc hxy]
  · intro h
    obtain hmem | ⟨-, hdefault⟩ := (hget _).1 hx
    · exact h x hmem
    · have hdx : c d = c x := Option.some.inj (hd.symm.trans hdefault)
      rwa [← hc hdx]

/-- The check of the ranges asks for the given numbers and theme only: the defaults pass it. -/
theorem checked_ok_iff_inRange : (∃ s', s.checked = .ok s') ↔ InRange options := by
  obtain ⟨⟨limit, ht⟩, width, hw⟩ := whole_putAll whole_default hs
  have hint : Function.Injective Value.int := fun _ _ => Value.int.inj
  have hphrase : Function.Injective Value.phrase := fun _ _ => Value.phrase.inj
  have htimeout : 1 ≤ limit ↔ ∀ i : Int, (.plain "parsing_timeout", .int i) ∈ options → 1 ≤ i := by
    have hget : s.values.get? "parsing_timeout" = some (.int limit) :=
      congrArg (fun q => some (Quantity.toValue q)) ht
    exact holds_iff_given hn hknown hs hint hget (d := 10000) rfl (by decide)
  have hwidth : 0 ≤ width ↔ ∀ i : Int, (.plain "max_img_width", .int i) ∈ options → 0 ≤ i := by
    have hget : s.values.get? "max_img_width" = some (.int width) :=
      congrArg (fun q => some (Quantity.toValue q)) hw
    exact holds_iff_given hn hknown hs hint hget (d := 0) rfl (by decide)
  have htheme : s.htmlTheme ∈ themes.map Phrase.plain ↔
      ∀ t, (.plain "html_theme", .phrase t) ∈ options → t ∈ themes.map Phrase.plain :=
    holds_iff_given hn hknown hs hphrase rfl (d := .plain "light") rfl (by decide)
  have hpos : s.parsingTimeout.isPositive = true ↔ 1 ≤ limit := by
    rw [ht, Quantity.isPositive_whole]
    omega
  have hneg : s.maxImgWidth.isNegative = false ↔ 0 ≤ width := by
    rw [hw, ← Bool.not_eq_true, Quantity.isNegative_whole, Int.not_lt]
  have hthemes (t : Phrase) :
      t ∈ themes.map Phrase.plain ↔ t = .plain "light" ∨ t = .plain "dark" := by
    simp [themes, darkTheme]
  simp only [hthemes] at htheme
  constructor
  · rintro ⟨s', h⟩
    obtain ⟨-, hp, hw, hth⟩ := checked_ok_iff.1 h
    exact ⟨htimeout.1 (hpos.1 hp), hwidth.1 (hneg.1 hw), htheme.1 ((hthemes _).1 hth)⟩
  · intro h
    exact ⟨s, checked_ok_iff.2 ⟨rfl, hpos.2 (htimeout.2 h.timeout), hneg.2 (hwidth.2 h.imageWidth),
      (hthemes _).2 (htheme.2 h.theme)⟩⟩

end

/-! ## Which options are accepted -/

/-- If no key comes twice, options are accepted exactly if they are acceptable. -/
theorem ofFields_ok_iff_acceptable {options : Fields}
    (hn : (options.map Prod.fst).Nodup) :
    (∃ s, ofFields options = .ok s) ↔ Acceptable options := by
  constructor
  · rintro ⟨s, h⟩
    obtain ⟨hu, s', hput, hchecked⟩ := ofFields_ok_iff.1 h
    have hknown := unknownKeys_eq_nil_iff.1 hu
    exact ⟨hknown, wellTyped_iff.2 (putAll_ok_iff.1 ⟨s', hput⟩),
      (checked_ok_iff_inRange hn hknown hput).1 ⟨s, hchecked⟩⟩
  · intro h
    obtain ⟨s', hput⟩ := putAll_ok_iff (s := {}).2 (wellTyped_iff.1 h.typed)
    obtain ⟨s, hchecked⟩ := (checked_ok_iff_inRange hn h.known hput).2 h.range
    exact ⟨s, ofFields_ok_iff.2 ⟨unknownKeys_eq_nil_iff.2 h.known, s', hput, hchecked⟩⟩

/-- Accepted settings hold the given values, and the defaults of all other fields. -/
theorem get?_values_ofFields {options : Fields}
    (hn : (options.map Prod.fst).Nodup) {s : Settings}
    (h : ofFields options = .ok s) (name : String) (v : Value) :
    s.values.get? name = some v ↔ (.plain name, v) ∈ options ∨
      .plain name ∉ options.map Prod.fst ∧ (values {}).get? name = some v := by
  obtain ⟨hu, s', hput, hchecked⟩ := ofFields_ok_iff.1 h
  obtain ⟨rfl, -⟩ := checked_ok_iff.1 hchecked
  exact get?_values_putAll hn (unknownKeys_eq_nil_iff.1 hu) hput name v

theorem get?_values {s : Settings} :
    ∀ entry ∈ fields, s.values.get? entry.1 = some (entry.2.value s) := by
  intro entry h
  simp only [fields, List.mem_cons, List.not_mem_nil, or_false] at h
  rcases h with rfl | rfl | rfl | rfl | rfl | rfl | rfl | rfl | rfl | rfl | rfl | rfl | rfl | rfl |
    rfl | rfl | rfl | rfl | rfl | rfl | rfl <;> rfl

/-- Each field has the value that is given for it, or else its default. -/
theorem value_of_ofFields {options : Fields} (hn : (options.map Prod.fst).Nodup)
    {s : Settings} (h : ofFields options = .ok s) : ∀ entry ∈ fields,
    (∀ v, (.plain entry.1, v) ∈ options → entry.2.value s = v) ∧
      (.plain entry.1 ∉ options.map Prod.fst → entry.2.value s = entry.2.value {}) := by
  intro entry he
  have hget := get?_values_ofFields hn h entry.1
  have hvalue : s.values.get? entry.1 = some (entry.2.value s) := get?_values entry he
  refine ⟨fun v hv => ?_, fun hno => ?_⟩
  · exact Option.some.inj (hvalue.symm.trans ((hget v).2 (.inl hv)))
  · exact Option.some.inj (hvalue.symm.trans ((hget _).2 (.inr ⟨hno, get?_values entry he⟩)))

/-! ## The order of the options -/

/-- Settings are told apart by the values of their fields. -/
theorem eq_of_get?_values {s s' : Settings} (h : ∀ key, s.values.get? key = s'.values.get? key) :
    s = s' := by
  have hvalue : ∀ entry ∈ fields, entry.2.value s = entry.2.value s' := fun entry he =>
    Option.some.inj ((get?_values entry he).symm.trans ((h entry.1).trans (get?_values entry he)))
  simp only [fields, List.forall_mem_cons, Field.value, Value.bool.injEq, Value.phrase.injEq,
    Quantity.toValue_inj] at hvalue
  cases s
  cases s'
  simp_all

/-- In another order the same options are accepted, and they give the same settings. -/
theorem ofFields_perm {options options' : Fields}
    (hn : (options.map Prod.fst).Nodup) (hp : options.Perm options') :
    (ofFields options').toOption = (ofFields options).toOption := by
  have hn' : (options'.map Prod.fst).Nodup := (hp.map Prod.fst).nodup_iff.1 hn
  have haccepted := (ofFields_ok_iff_acceptable hn).trans
    (⟨.of_perm hp, .of_perm hp.symm⟩ : Acceptable options ↔ Acceptable options')
  rw [← ofFields_ok_iff_acceptable hn'] at haccepted
  cases h : ofFields options with
  | error e =>
    cases h' : ofFields options' with
    | error e' => rfl
    | ok s' => simp [h, h'] at haccepted
  | ok s =>
    obtain ⟨s', h'⟩ := haccepted.1 ⟨s, h⟩
    have hs : s' = s := eq_of_get?_values fun key => Option.ext fun v => by
      rw [get?_values_ofFields hn h, get?_values_ofFields hn' h', hp.mem_iff,
        (hp.map Prod.fst).mem_iff]
    rw [h', hs]

/-- Unknown keys are reported before anything else, all of them and in order. -/
theorem ofFields_unknown {options : Fields}
    (h : ∃ key ∈ options.map Prod.fst, key ∉ optionKeys) :
    ofFields options = .error (.unknown (unknownKeys options)) := by
  have hne : unknownKeys options ≠ [] := by
    rw [Ne, unknownKeys_eq_nil_iff]
    simpa using h
  rw [ofFields]
  simp [hne]

/-! ## Whatever a site gives -/

/-- The values, other than objects, that count as no options at all. -/
inductive Vacant : Value → Prop
  | null : Vacant .null
  | isFalse : Vacant (.bool false)
  | zero : Vacant (.int 0)
  | realZero (negative : Bool) : Vacant (.real (.finite negative 0))
  | noText : Vacant (.text "")
  | noItems : Vacant (.array [])

theorem Vacant.truthy {v : Value} (h : Vacant v) : v.truthy = false := by
  cases h <;> rfl

theorem vacant_of_not_truthy {v : Value} (ho : ∀ options, v ≠ .object options)
    (h : v.truthy = false) : Vacant v := by
  cases v with
  | null => exact .null
  | bool b =>
    cases b with
    | false => exact .isFalse
    | true => cases h
  | int i =>
    obtain rfl : i = 0 := by simpa [Value.truthy] using h
    exact .zero
  | real x =>
    cases x with
    | finite negative units =>
      obtain rfl : units = 0 := by simpa [Value.truthy, Binary64.isZero] using h
      exact .realZero negative
    | infinite => cases h
    | nan => cases h
  | phrase p =>
    obtain rfl : p = .plain "" := by simpa [Value.truthy] using h
    exact .noText
  | array items =>
    cases items with
    | nil => exact .noItems
    | cons => cases h
  | object options => exact absurd rfl (ho options)

theorem ofOptions_object (options : Fields) :
    ofOptions (some (.object options)) = ofFields options := by
  cases options with
  | nil => exact (ofFields_ok_iff.2 ⟨by simp [unknownKeys], _, rfl, checked_default⟩).symm
  | cons => simp [ofOptions, Value.truthy]

/-- What becomes of an object of options. -/
structure Decided (options : Fields) : Prop where
  accepted : (∃ s, ofOptions (some (.object options)) = .ok s) ↔ Acceptable options
  /-- Each field has the value that is given for it, or else its default. -/
  given : ∀ s, ofOptions (some (.object options)) = .ok s → ∀ entry ∈ fields,
    (∀ v, (.plain entry.1, v) ∈ options → entry.2.value s = v) ∧
      (.plain entry.1 ∉ options.map Prod.fst → entry.2.value s = entry.2.value {})
  /-- The ranges are checked only if each value has the right type. -/
  compared : ∀ s, putAll {} options = .ok s → WellTyped options ∧ s.Whole
  /-- Otherwise the first value of a wrong type is the fault, and nothing is compared. -/
  mistyped : (∀ key ∈ options.map Prod.fst, key ∈ optionKeys) → ∀ e,
    putAll {} options = .error e →
      ofOptions (some (.object options)) = .error e
  /-- All unknown keys are reported, in order, whatever else is wrong. -/
  unknown : (∃ key ∈ options.map Prod.fst, key ∉ optionKeys) →
    ∃ (e : OptionError) (keys : List Phrase), ofOptions (some (.object options)) = .error e ∧
      e.message =
        .plain "MULTIMARKDOWN contains unknown options: " ++ Phrase.intercalate ", " keys ∧
      keys.Pairwise (fun k l => k.le l = true) ∧
      keys.Perm ((options.map Prod.fst).filter fun key => key ∉ optionKeys)
  permuted : ∀ options', options.Perm options' →
    (ofOptions (some (.object options'))).toOption =
      (ofOptions (some (.object options))).toOption
  permutedUnknown : ∀ options', options.Perm options' →
    (∃ key ∈ options.map Prod.fst, key ∉ optionKeys) →
      ofOptions (some (.object options')) =
        ofOptions (some (.object options))

/-- An object of options is accepted exactly if it is acceptable, in whatever order its keys stand;
what is no object is refused unless it counts as no options at all. -/
theorem accepts_exactly :
    (∀ options : Fields, (options.map Prod.fst).Nodup → Decided options) ∧
      ∀ v : Value, (∀ options, v ≠ .object options) →
        ((∃ e, ofOptions (some v) = .error e) ↔ ¬ Vacant v) ∧
          (Vacant v → ofOptions (some v) = .ok {}) := by
  refine ⟨fun options hn => ?_, fun v ho => ?_⟩
  · have hobject := ofOptions_object options
    constructor
    case accepted =>
      rw [hobject]
      exact ofFields_ok_iff_acceptable hn
    case given =>
      rw [hobject]
      exact fun s h => value_of_ofFields hn h
    case compared =>
      exact fun s h => ⟨wellTyped_iff.2 (putAll_ok_iff.1 ⟨s, h⟩), whole_putAll whole_default h⟩
    case mistyped =>
      intro hknown e h
      rw [hobject, ofFields, unknownKeys_eq_nil_iff.2 hknown, h]
      rfl
    case unknown =>
      intro h
      rw [hobject]
      exact ⟨_, unknownKeys options, ofFields_unknown h, rfl, unknownKeys_sorted _,
        unknownKeys_perm options⟩
    case permuted =>
      intro options' hp
      rw [hobject, ofOptions_object]
      exact ofFields_perm hn hp
    case permutedUnknown =>
      intro options' hp h
      have h' : ∃ key ∈ options'.map Prod.fst, key ∉ optionKeys := by
        simpa only [(hp.map Prod.fst).mem_iff] using h
      rw [hobject, ofOptions_object, ofFields_unknown h, ofFields_unknown h',
        unknownKeys_of_perm hp]
  · have hok : Vacant v → ofOptions (some v) = .ok {} := fun h =>
      ofOptions_of_not_truthy h.truthy
    refine ⟨⟨?_, fun hv => ?_⟩, hok⟩
    · rintro ⟨e, he⟩ hv
      rw [hok hv] at he
      cases he
    · have ht : v.truthy = true := by
        simpa using fun h => hv (vacant_of_not_truthy ho h)
      exact ⟨_, ofOptions_of_not_object ht ho⟩

/-- A dark theme and the least time limit are accepted, and they give the same settings the other
way round; so is a stylesheet that holds a lone surrogate. A text is refused as the limit. An unknown
key is reported although the limit is out of range too, and a number is no object. -/
theorem accepts_exactly_dark :
    (∃ s, ofOptions (some (.object
        [(.plain "html_theme", .text "dark"), (.plain "parsing_timeout", .int 1)])) = .ok s ∧
      s.htmlTheme = .plain "dark" ∧ s.customCss = .plain "" ∧
      (ofOptions (some (.object [(.plain "parsing_timeout", .int 1),
        (.plain "html_theme", .text "dark")]))).toOption = some s) ∧
    (∃ s, ofOptions (some (.object
        [(.plain "custom_css", .phrase (.broken [.lone 0xd800] rfl))])) = .ok s) ∧
    (¬ ∃ s, ofOptions (some (.object [(.plain "parsing_timeout", .text "1")])) = .ok s) ∧
    (∃ e, ofOptions (some (.object
        [(.plain "parsing_timeout", .int 0), (.plain "no", .null)])) = .error e ∧
      e.message = .plain "MULTIMARKDOWN contains unknown options: no") ∧
    ∃ e, ofOptions (some (.int 7)) = .error e := by
  refine ⟨?_, ?_, ?_, ?_, ?_⟩
  · have h := accepts_exactly.1
      [(.plain "html_theme", .text "dark"), (.plain "parsing_timeout", .int 1)] (by decide)
    obtain ⟨s, hs⟩ := h.accepted.2
      { known := by decide
        typed := ⟨by simp [flagNames], by simp [wholeNames], by simp [textNames]⟩
        range := ⟨by simp, by simp, by simp⟩ }
    have htheme := (h.given s hs
      ("html_theme", .text htmlTheme fun p s => { s with htmlTheme := p }) (by simp [fields])).1
      (.text "dark") (by simp)
    have hcss := (h.given s hs
      ("custom_css", .text customCss fun p s => { s with customCss := p }) (by simp [fields])).2
      (by decide)
    refine ⟨s, hs, ?_, ?_, ?_⟩
    · simpa [Field.value] using htheme
    · simpa [Field.value] using hcss
    · rw [h.permuted _ (List.Perm.swap _ _ _), hs]
      rfl
  · have h := accepts_exactly.1 [(.plain "custom_css", .phrase (.broken [.lone 0xd800] rfl))]
      (by decide)
    exact h.accepted.2
      { known := by decide
        typed := ⟨by simp [flagNames], by simp [wholeNames], by simp [textNames]⟩
        range := ⟨by simp, by simp, by simp⟩ }
  · have h := accepts_exactly.1 [(.plain "parsing_timeout", .text "1")] (by decide)
    rw [h.accepted]
    intro ha
    obtain ⟨i, hi⟩ := ha.typed.whole "parsing_timeout" (by decide) (.text "1") (by simp)
    cases hi
  · have h := accepts_exactly.1 [(.plain "parsing_timeout", .int 0), (.plain "no", .null)]
      (by decide)
    obtain ⟨e, keys, he, hmessage, -, hkeys⟩ := h.unknown ⟨.plain "no", by decide, by decide⟩
    have hno : keys = [.plain "no"] := List.perm_singleton.1 hkeys
    rw [hno] at hmessage
    exact ⟨e, he, hmessage.trans (by decide)⟩
  · have hobject : ∀ options, Value.int 7 ≠ .object options := by simp
    have hvacant : ¬ Vacant (.int 7) := by
      intro h
      cases h
    exact (accepts_exactly.2 (.int 7) hobject).1.2 hvacant

end MarkdownPreview.Settings

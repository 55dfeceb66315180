import MarkdownPreview.Settings.Basic

/-!
# Reading settings from options

A site gives its settings as an object of options, or not at all. `Settings.ofOptions` accepts an
object whose keys are known, whose values have the type of their field, and whose numbers and theme
lie in range; everything else is refused with the first fault met. Unknown keys come before any
other fault, types before ranges.

* `ofOptions_none`, `ofOptions_of_not_truthy`: no options, and empty ones, mean the defaults.
* `ofOptions_of_not_object`: what is no object and not empty is refused.
-/
namespace MarkdownPreview

open Json (Value Fields)
open Text (Phrase)

/-! ## Faults -/

inductive OptionError where
  /-- The options are no object. -/
  | notAnObject
  /-- Some keys are unknown; they are given in order. -/
  | unknown (keys : List Phrase)
  /-- A field of whole numbers has some other value. -/
  | notWhole (key : String)
  /-- A field of Booleans has some other value. -/
  | notFlag (key : String)
  /-- A field of texts has some other value. -/
  | notText (key : String)
  | timeoutNotPositive
  | imageWidthNegative
  | unknownTheme
  deriving DecidableEq, Repr

namespace OptionError

/-- The name under which the options are known to the site. -/
def subject : String := "MULTIMARKDOWN"

/-- An option as messages name it. -/
def entry (key : String) : String := subject ++ "['" ++ key ++ "']"

def message : OptionError → Phrase
  | notAnObject => subject ++ " must be a dict"
  | unknown keys => subject ++ " contains unknown options: " ++ Phrase.intercalate ", " keys
  | notWhole key => entry key ++ " must be an integer"
  | notFlag key => entry key ++ " must be of type bool"
  | notText key => entry key ++ " must be of type str"
  | timeoutNotPositive => entry "parsing_timeout" ++ " must be positive"
  | imageWidthNegative => entry "max_img_width" ++ " must not be negative"
  | unknownTheme => entry "html_theme" ++ " must be one of: " ++ ", ".intercalate Settings.themes

end OptionError

namespace Settings

/-! ## Fields -/

/-- A field of the settings: how it is read and how it is given a new value. -/
inductive Field where
  | flag (get : Settings → Bool) (set : Bool → Settings → Settings)
  | quantity (get : Settings → Quantity) (set : Quantity → Settings → Settings)
  | text (get : Settings → Phrase) (set : Phrase → Settings → Settings)

def Field.value : Field → Settings → Value
  | flag get _, s => .bool (get s)
  | quantity get _, s => (get s).toValue
  | text get _, s => .phrase (get s)

/-- The settings with a new value of the field `key`, if it has the right type. -/
def Field.put (key : String) : Field → Value → Settings → Except OptionError Settings
  | flag _ set, .bool b, s => .ok (set b s)
  | flag _ _, _, _ => .error (.notFlag key)
  | quantity _ set, .int i, s => .ok (set (.whole i) s)
  | quantity _ _, _, _ => .error (.notWhole key)
  | text _ set, .phrase p, s => .ok (set p s)
  | text _ _, _, _ => .error (.notText key)

/-- Every field under its key. -/
def fields : List (String × Field) :=
  [("task_lists", .flag taskLists fun b s => { s with taskLists := b }),
    ("icon_bullets", .flag iconBullets fun b s => { s with iconBullets := b }),
    ("parsing_timeout", .quantity parsingTimeout fun q s => { s with parsingTimeout := q }),
    ("smarts", .flag smarts fun b s => { s with smarts := b }),
    ("quotes", .flag quotes fun b s => { s with quotes := b }),
    ("abbreviations", .flag abbreviations fun b s => { s with abbreviations := b }),
    ("hard_wraps", .flag hardWraps fun b s => { s with hardWraps := b }),
    ("autolinks", .flag autolinks fun b s => { s with autolinks := b }),
    ("wiki_links", .flag wikiLinks fun b s => { s with wikiLinks := b }),
    ("tables", .flag tables fun b s => { s with tables := b }),
    ("definitions", .flag definitions fun b s => { s with definitions := b }),
    ("fenced_code_blocks", .flag fencedCodeBlocks fun b s => { s with fencedCodeBlocks := b }),
    ("suppress_html_blocks",
      .flag suppressHtmlBlocks fun b s => { s with suppressHtmlBlocks := b }),
    ("suppress_inline_html",
      .flag suppressInlineHtml fun b s => { s with suppressInlineHtml := b }),
    ("strikethrough", .flag strikethrough fun b s => { s with strikethrough := b }),
    ("header_space", .flag headerSpace fun b s => { s with headerSpace := b }),
    ("anchor_links", .flag anchorLinks fun b s => { s with anchorLinks := b }),
    ("show_html_text_as_modified",
      .flag showHtmlTextAsModified fun b s => { s with showHtmlTextAsModified := b }),
    ("html_theme", .text htmlTheme fun p s => { s with htmlTheme := p }),
    ("custom_css", .text customCss fun p s => { s with customCss := p }),
    ("max_img_width", .quantity maxImgWidth fun q s => { s with maxImgWidth := q })]

def field? (name : String) : Option Field :=
  List.lookup name fields

def fieldAt? : Phrase → Option Field
  | .plain name => field? name
  | .broken .. => none

/-- The value of every field under its key. -/
def values (s : Settings) : Fields :=
  fields.map fun (key, f) => (.plain key, f.value s)

/-! ## Options -/

/-- The settings with some fields changed. Keys without a field are passed over. -/
def putAll (s : Settings) : Fields → Except OptionError Settings
  | [] => .ok s
  | (key, v) :: r =>
    match fieldAt? key with
    | none => putAll s r
    | some f =>
      match f.put key.shown v s with
      | .error e => .error e
      | .ok s' => putAll s' r

/-- The keys without a field, in order. -/
def unknownKeys (options : Fields) : List Phrase :=
  ((options.map Prod.fst).filter fun key => (fieldAt? key).isNone).mergeSort Phrase.le

/-- The settings themselves if their numbers and their theme lie in range. -/
def checked (s : Settings) : Except OptionError Settings :=
  if !s.parsingTimeout.isPositive then .error .timeoutNotPositive
  else if s.maxImgWidth.isNegative then .error .imageWidthNegative
  else if s.htmlTheme ∉ themes.map Phrase.plain then .error .unknownTheme
  else .ok s

/-- The settings that an object of options describes. -/
def ofFields (options : Fields) : Except OptionError Settings :=
  let unknown := unknownKeys options
  if unknown.isEmpty then putAll {} options >>= checked else .error (.unknown unknown)

/-- The settings that a site's options describe. -/
def ofOptions : Option Value → Except OptionError Settings
  | none => .ok {}
  | some v =>
    if v.truthy then
      match v with
      | .object options => ofFields options
      | _ => .error .notAnObject
    else .ok {}

theorem ofOptions_none : ofOptions none = .ok {} := rfl

theorem ofOptions_of_not_truthy {v : Value} (h : v.truthy = false) :
    ofOptions (some v) = .ok {} := by
  simp [ofOptions, h]

theorem ofOptions_of_not_object {v : Value} (h : v.truthy = true)
    (ho : ∀ options, v ≠ .object options) : ofOptions (some v) = .error .notAnObject := by
  cases v with
  | object options => exact absurd rfl (ho options)
  | _ => simp [ofOptions, h]

end Settings

/-! ## Results -/

section
variable {ε ε' α : Type}

@[simp] theorem mapError_ok (f : ε → ε') (a : α) :
    (Except.ok a : Except ε α).mapError f = .ok a := rfl

@[simp] theorem mapError_error (f : ε → ε') (e : ε) :
    (Except.error e : Except ε α).mapError f = .error (f e) := rfl

/-- A result is known by its value, which may be easier to compare. -/
theorem eq_ok_of_toOption {x : Except ε α} {a : α} (h : x.toOption = some a) :
    x = .ok a := by
  cases x with
  | error e => cases h
  | ok b => exact congrArg _ (Option.some.inj h)

end

end MarkdownPreview

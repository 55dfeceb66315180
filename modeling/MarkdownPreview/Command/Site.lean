import MarkdownPreview.Command.Arguments

/-!
# The site's settings

A program has to know where the site's settings are before it reads its arguments in full. It looks
for them by full spellings only and passes over anything else; a value that is missing ends the
search without a result.

* `soughtSettings?_separator`: nothing is sought behind `--`.
-/
namespace MarkdownPreview.Command

/-- The switch that is meant early, with what is attached to it. -/
def earlySwitch? (arg : List Char) : Option (Switch × Attached) :=
  match Switch.ofSpelling? (String.ofList (stem arg)) with
  | some .siteSettings => some (.siteSettings, attachedTo arg)
  | some .searchPath => some (.searchPath, attachedTo arg)
  | _ => none

/-- Whether an argument can be the value of a switch before it. -/
def isEarlyValue (arg : List Char) : Bool :=
  match arg with
  | '-' :: _ :: _ => (earlySwitch? arg).isNone && (isNegativeNumber arg || arg.contains ' ')
  | _ => true

/-- The settings that are found in the end, after one more use of a switch. -/
def afterUse (s : Switch) (value found : Option String) : Option String :=
  if s = .siteSettings then value else found

/-- Where the site's settings are said to be, if every early switch has a value. -/
def soughtSettings? : (found : Option String) → List String → Option (Option String)
  | found, [] => some found
  | found, arg :: rest =>
    if arg = "--" then some found
    else
      match earlySwitch? arg.toList with
      | none => soughtSettings? found rest
      | some (s, .text cs) => soughtSettings? (afterUse s (attachedValue? cs) found) rest
      | some (s, .nothing) =>
        match rest with
        | [] => none
        | value :: rest =>
          if isEarlyValue value.toList then soughtSettings? (afterUse s (some value) found) rest
          else none

/-- Whether a place of settings cannot be handed on, as it holds a zero. -/
def isUnusable (place : Option String) : Bool :=
  place.any fun s => s.toList.contains '\x00'

theorem soughtSettings?_separator (found : Option String) (rest : List String) :
    soughtSettings? found ("--" :: rest) = some found := by
  simp [soughtSettings?]

end MarkdownPreview.Command

import MarkdownPreview.Web.Parameter

/-!
# Content types

The content type of a request names the format of its body, and may name a charset. A header without
a semicolon is a name alone. Otherwise the name is the first part up to an equals sign, and of
several charsets the last one counts. A charset that nobody knows is passed over.

* `read_of_plain`: a header without semicolons that is not too long is a name without a charset.
-/
namespace MarkdownPreview.Web

/-- What the header of a request says about its body. -/
structure ContentType where
  name : List Char
  /-- The name of a charset that is known. -/
  charset : Option (List Char) := none
  deriving DecidableEq, Repr

inductive HeaderError where
  | tooLong
  | parameter (e : Parameter.Fault)
  deriving DecidableEq, Repr

/-- The kind of value that a number is, or its absence, as messages name it. -/
def numberKind (present : Bool) : String :=
  if present then "'int'" else "'NoneType'"

def Parameter.Fault.message : Parameter.Fault → String
  | unknownCharset name =>
    "Invalid encoding " ++ String.ofList (Text.quoted name) ++ " for RFC 2231 param."
  | barredCharset name reason =>
    "decoding with '" ++ String.ofList name ++ "' codec failed (UnicodeError: " ++ reason ++ ")"
  | zeroInCharset => "embedded null character"
  | unordered later =>
    "'<' not supported between instances of " ++ numberKind later ++ " and " ++ numberKind !later

def HeaderError.message : HeaderError → String
  | tooLong => "Unable to parse header parameters (value too long)."
  | parameter e => e.message

namespace ContentType

def maxLength : Nat := 10000

/-- The charset that parameters name: the text of the last one of that name. -/
def charsetOf? (parameters : List (List Char × Parameter.Value)) : Option (List Char) :=
  (parameters.reverse.find? fun p => p.1 = "charset".toList).bind fun p => p.2.text?

/-- The content type with a charset, if that is known. -/
def withCharset (name : List Char) : Option (List Char) → Except HeaderError ContentType
  | none => .ok { name }
  | some charset =>
    if charset.contains '\x00' then .error (.parameter .zeroInCharset)
    else .ok { name, charset := if Text.Charset.isKnown charset then some charset else none }

/-- The content type that a header names. -/
def read (header : List Char) : Except HeaderError ContentType :=
  if maxLength < header.length then .error .tooLong
  else if !header.contains ';' then .ok { name := Text.lowerCase (Text.trim header) }
  else
    match Parameter.splitParts false false [] header with
    | [] => .ok { name := [] }
    | first :: rest =>
      match Parameter.ofParts rest with
      | .error e => .error (.parameter e)
      | .ok parameters =>
        withCharset (Text.lowerCase (Parameter.ofPart first).1) (charsetOf? parameters)

theorem read_of_plain {header : List Char} (hl : header.length ≤ maxLength) (h : ';' ∉ header) :
    read header = .ok { name := Text.lowerCase (Text.trim header) } := by
  simp [read, Nat.not_lt.2 hl, h]

end ContentType

end MarkdownPreview.Web

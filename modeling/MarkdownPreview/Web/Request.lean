import MarkdownPreview.Json.Reader
import MarkdownPreview.Web.ContentType
import MarkdownPreview.Web.Form

/-!
# Requests

A request brings fields in its body: as a JSON object, as a form, or as a form in parts. A body of any
other type brings none. Only one method is served. A form has to be in UTF-8, and there are limits to
the size of a body, to the depth of a JSON body and to the fields of a form: what lies beyond them
cannot be read at all.

What a server brings is a parameter (`Server`): how deep its stack lets a JSON body nest, which
depends on who calls it, and the reader of forms in parts, of which only the pairs that it finds
matter here.

* `fields?_of_parts`: the pairs of a form in parts are its fields.
* `fields?_of_other`: a body of another type is never looked at.
* `fields?_of_foreign_form`: a form in another charset cannot be read.
-/
namespace MarkdownPreview.Web

open Json (Value Fields)
open Text (Phrase)

structure Request where
  method : String
  contentType : String
  body : List UInt8
  deriving DecidableEq, Repr

/-- What a server brings to the requests that it serves. -/
structure Server where
  /-- How many arrays and objects may lie inside each other within the outermost one of a body. -/
  depth : Nat
  /-- The pairs of a form in parts, or why it cannot be read. -/
  readParts : Request → Except String (List (Phrase × Phrase))

inductive BodyFormat where
  | json
  | form
  /-- A form in parts, each with a header of its own. -/
  | parts
  | other
  deriving DecidableEq, Repr

def jsonType : String := "application/json"

def formType : String := "application/x-www-form-urlencoded"

def partsType : String := "multipart/form-data"

def BodyFormat.ofName (name : List Char) : BodyFormat :=
  if name = jsonType.toList then .json
  else if name = formType.toList then .form
  else if name = partsType.toList then .parts
  else .other

/-- A method's characters without regard to case. The long s and the ligatures of s and t have
capitals of their own among the plain letters. -/
def methodLetters : Char → List Char
  | 'ſ' => ['s']
  | 'ﬅ' | 'ﬆ' => ['s', 't']
  | c => [c.toLower]

namespace Request

/-- Whether the method is the one that is served. -/
def isPost (r : Request) : Bool :=
  r.method.toList.flatMap methodLetters = ['p', 'o', 's', 't']

/-- What the header says about the body. -/
def header (r : Request) : Except HeaderError ContentType :=
  ContentType.read r.contentType.toList

end Request

/-! ## Bodies -/

/-- Why a request cannot be read at all. -/
inductive Unreadable where
  | header (e : HeaderError)
  | tooLarge
  /-- The arrays and objects of a JSON body lie too deep. -/
  | tooDeep (c : Json.Container)
  /-- A form is not in UTF-8. -/
  | foreignForm
  | tooManyFields
  /-- A form in parts cannot be read. -/
  | badParts (reason : String)
  deriving DecidableEq, Repr

namespace Unreadable

/-- What holds other values, as messages name it. -/
def containerName : Json.Container → String
  | .array => "array"
  | .object => "object"

def message : Unreadable → String
  | header e => e.message
  | tooLarge => "Request body exceeded settings.DATA_UPLOAD_MAX_MEMORY_SIZE."
  | tooDeep c =>
    "maximum recursion depth exceeded while decoding a JSON " ++ containerName c ++
      " from a unicode string"
  | foreignForm =>
    "HTTP requests with the '" ++ formType ++ "' content type must be UTF-8 encoded."
  | tooManyFields =>
    "The number of GET/POST parameters exceeded settings.DATA_UPLOAD_MAX_NUMBER_FIELDS."
  | badParts reason => reason

end Unreadable

namespace Request

/-- The most octets of a body. -/
def maxBody : Nat := 2621440

/-- The most fields of a form, empty ones included. -/
def maxFields : Nat := 1000

/-- The fields of a JSON body, if it is an object; an empty body is an empty object. -/
def jsonFields? (server : Server) (body : List UInt8) : Except Unreadable (Option Fields) :=
  if body.isEmpty then .ok (some [])
  else
    match Json.readBytes (server.depth + 1) body with
    | .ok (.object fields) => .ok (some fields)
    | .error (.tooDeep c) => .error (.tooDeep c)
    | _ => .ok none

def formFields (body : List UInt8) : Except Unreadable Fields :=
  if maxFields < Form.count body then .error .tooManyFields else .ok (Form.fields body)

/-- Whether a charset is the one that forms are in. -/
def isFormCharset (charset : List Char) : Bool :=
  charset.map Char.toLower = "utf-8".toList

def partsFields (server : Server) (r : Request) : Except Unreadable Fields :=
  match server.readParts r with
  | .error reason => .error (.badParts reason)
  | .ok pairs => .ok (Fields.ofPairs (pairs.map fun (name, value) => (name, .phrase value)))

/-- The fields of the body, unless it is to be an object and is none. -/
def fields? (server : Server) (r : Request) (t : ContentType) :
    Except Unreadable (Option Fields) :=
  match BodyFormat.ofName t.name with
  | .other => .ok (some [])
  | .json => if maxBody < r.body.length then .error .tooLarge else jsonFields? server r.body
  | .form =>
    if t.charset.all isFormCharset then
      if maxBody < r.body.length then .error .tooLarge else (formFields r.body).map some
    else .error .foreignForm
  | .parts => (partsFields server r).map some

section
variable {server : Server} {r : Request} {t : ContentType}

/-- The pairs of a form in parts are its fields, and of several with one name the last one counts. -/
theorem fields?_of_parts (h : BodyFormat.ofName t.name = .parts) {pairs : List (Phrase × Phrase)}
    (hp : server.readParts r = .ok pairs) : r.fields? server t =
      .ok (some (Fields.ofPairs (pairs.map fun (name, value) => (name, .phrase value)))) := by
  simp [fields?, partsFields, h, hp, Except.map]

theorem fields?_of_other (h : BodyFormat.ofName t.name = .other) :
    r.fields? server t = .ok (some []) := by
  simp [fields?, h]

theorem fields?_of_foreign_form {charset : List Char}
    (h : BodyFormat.ofName t.name = .form) (hc : t.charset = some charset)
    (hf : isFormCharset charset = false) : r.fields? server t = .error .foreignForm := by
  simp [fields?, h, hc, hf]

end

end Request

end MarkdownPreview.Web

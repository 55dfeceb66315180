import MarkdownPreview.Json.Value
import MarkdownPreview.Text.Pieces
import MarkdownPreview.Text.Utf8

/-!
# Form bodies

A form is a text of fields with `&` between them, each a name and a value with the first `=` between
them. In both a plus sign is a space, and then `%` with two hexadecimal digits is an octet of UTF-8.
A field without `=` has an empty value, and the last value of a field counts. A body that is not
UTF-8 is read octet by octet.

Octets are read as UTF-8 between two characters that are not ASCII: such a character ends whatever
was begun before it.

* `octets_of_plain`: ASCII without `%` stands for its own octets.
* `decode_of_plain`: text without `%` stands for itself.
* `cut_append`: a field is cut at its first `=`.
-/
namespace MarkdownPreview.Web.Form

open Json (Fields)

/-! ## Octets -/

def hexValue? (c : Char) : Option Nat :=
  if '0' ≤ c ∧ c ≤ '9' then some (c.toNat - '0'.toNat)
  else if 'a' ≤ c ∧ c ≤ 'f' then some (c.toNat - 'a'.toNat + 10)
  else if 'A' ≤ c ∧ c ≤ 'F' then some (c.toNat - 'A'.toNat + 10)
  else none

def octet? (a b : Char) : Option UInt8 :=
  match hexValue? a, hexValue? b with
  | some x, some y => some (UInt8.ofNat (16 * x + y))
  | _, _ => none

def ownOctet (c : Char) : UInt8 :=
  UInt8.ofNat c.toNat

/-- The octets that an ASCII text stands for. A `%` without two digits stands for itself. -/
def octets : List Char → List UInt8
  | [] => []
  | [a] => [ownOctet a]
  | [a, b] => [ownOctet a, ownOctet b]
  | p :: a :: b :: r =>
    if p = '%' then
      match octet? a b with
      | some o => o :: octets r
      | none => ownOctet p :: octets (a :: b :: r)
    else ownOctet p :: octets (a :: b :: r)

theorem octets_cons_of_ne {c : Char} (h : c ≠ '%') (r : List Char) :
    octets (c :: r) = ownOctet c :: octets r := by
  match r with
  | [] => rfl
  | [_] => rfl
  | _ :: _ :: _ => rw [octets, if_neg h]

/-- ASCII without `%` stands for its own octets. -/
theorem octets_of_plain {s : List Char} (h : '%' ∉ s) : octets s = s.map ownOctet := by
  induction s with
  | nil => rfl
  | cons c r ih =>
    simp only [List.mem_cons, not_or] at h
    rw [octets_cons_of_ne (Ne.symm h.1), ih h.2, List.map_cons]

/-! ## Text -/

def isAscii (c : Char) : Bool :=
  c.toNat < 0x80

/-- The text that a text with octets stands for. -/
def decode : List Char → List Char
  | [] => []
  | c :: r =>
    if isAscii c then
      Text.Utf8.decodeLossy (octets (c :: r.takeWhile isAscii)) ++ decode (r.dropWhile isAscii)
    else c :: decode r
termination_by s => s.length
decreasing_by
  · exact Nat.lt_succ_of_le (List.dropWhile_sublist isAscii).length_le
  · exact Nat.lt_succ_self _

theorem first_ownOctet {c : Char} (h : isAscii c = true) :
    Text.Utf8.first false (ownOctet c) = ([some (.char c)], none) := by
  have hc : c.toNat < 128 := by simpa [isAscii] using h
  have hn : (ownOctet c).toNat = c.toNat := by
    simp [ownOctet, Nat.mod_eq_of_lt (show c.toNat < 256 by omega)]
  simp only [Text.Utf8.first, hn, if_pos hc, Char.ofNat_toNat]

theorem decodeLossy_ascii {s : List Char} (h : ∀ c ∈ s, isAscii c = true) :
    Text.Utf8.decodeLossy (s.map ownOctet) = s := by
  induction s with
  | nil => rfl
  | cons c r ih =>
    simp only [List.forall_mem_cons] at h
    simpa [Text.Utf8.decodeLossy, Text.Utf8.readFrom, Text.Utf8.step, Text.Point.shown,
      first_ownOctet h.1]
      using ih h.2

/-- Text without `%` stands for itself. -/
theorem decode_of_plain {s : List Char} (h : '%' ∉ s) : decode s = s := by
  fun_induction decode s with
  | case1 => rfl
  | case2 c r hc ih =>
    have hr : r.takeWhile isAscii ++ r.dropWhile isAscii = r := List.takeWhile_append_dropWhile
    have hall : ∀ d ∈ c :: r.takeWhile isAscii, isAscii d = true := by
      simpa [hc] using fun d hd => (List.all_eq_true.1 List.all_takeWhile) d hd
    have hrun : '%' ∉ c :: r.takeWhile isAscii := fun hm =>
      h (by rw [← hr, ← List.cons_append]; exact List.mem_append_left _ hm)
    have hrest : '%' ∉ r.dropWhile isAscii := fun hm =>
      h (List.mem_cons_of_mem _ (by rw [← hr]; exact List.mem_append_right _ hm))
    rw [octets_of_plain hrun, decodeLossy_ascii hall, ih hrest, List.cons_append, hr]
  | case3 c r hc ih =>
    simp only [List.mem_cons, not_or] at h
    rw [ih h.2]

/-- The text with a space in the place of each plus sign. -/
def withSpaces (s : List Char) : List Char :=
  s.map fun c => if c = '+' then ' ' else c

/-- What a name or a value stands for. -/
def component (s : List Char) : List Char :=
  decode (withSpaces s)

/-! ## Fields -/

/-- A field's name and value, as they are written. -/
def cut (field : List Char) : List Char × List Char :=
  (field.takeWhile (· ≠ '='), (field.dropWhile (· ≠ '=')).drop 1)

theorem cut_append {name : List Char} (h : '=' ∉ name) (value : List Char) :
    cut (name ++ '=' :: value) = (name, value) := by
  have hn : ∀ c ∈ name, decide (c ≠ '=') = true := fun c hc => by
    simpa using fun e : c = '=' => h (e ▸ hc)
  rw [cut, List.takeWhile_append_of_pos hn, List.dropWhile_append_of_pos hn]
  simp

def bodyText (body : List UInt8) : List Char :=
  match Text.Utf8.decode? body with
  | some s => s
  | none => body.map fun b => Char.ofNat b.toNat

def fieldsOfText (s : List Char) : Fields :=
  let written := (Text.pieces '&' s).filter fun p => !p.isEmpty
  Fields.ofPairs (written.map fun p =>
    (.plain (String.ofList (component (cut p).1)), .text (String.ofList (component (cut p).2))))

/-- How many fields a form has, empty ones included. -/
def count (body : List UInt8) : Nat :=
  (Text.pieces '&' (bodyText body)).length

def fields (body : List UInt8) : Fields :=
  fieldsOfText (bodyText body)

end MarkdownPreview.Web.Form

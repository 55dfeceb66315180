import MarkdownPreview.Proofs.Json.Spelled
import MarkdownPreview.Web.Form

/-!
# Reading spelled forms

A form leaves its writer some freedom too: a character stands for itself or is written by its octets
in UTF-8, and a space may be a plus sign. The characters that mean something in a form cannot stand
for themselves. Whatever is chosen, reading the form gives its fields.

* `spellsForm_writeForm`: there is a form for any fields.
* `component_spelled`: a spelled name or value is read as the text.
* `fieldsOfText_spelled`: a spelled form is read as its fields.
* `fields_spelled`, `count_spelled`: so are its octets in UTF-8.
-/
namespace MarkdownPreview.Web.Form

open Text (Spelled SpellsHex hexDigit Utf8.encode)

/-! ## What forms look like -/

/-- An octet, by its two digits. -/
inductive SpellsOctet : UInt8 → List Char → Prop
  | mk {o : UInt8} {ds : List Char} : SpellsHex 2 o.toNat ds → SpellsOctet o ('%' :: ds)

/-- The ways to write a character of a name or a value. -/
inductive SpellsChar : Char → List Char → Prop
  | itself {c : Char} : c.toNat < 0x80 → c ∉ ['%', '+', '&', '='] → SpellsChar c [c]
  | plus : SpellsChar ' ' ['+']
  | octets {c : Char} {w : List Char} :
    Spelled SpellsOctet (String.utf8EncodeChar c) w → SpellsChar c w

/-- A name and a value, with an equals sign between them. -/
inductive SpellsField : String × String → List Char → Prop
  | mk {name value : String} {n v : List Char} :
    Spelled SpellsChar name.toList n → Spelled SpellsChar value.toList v →
      SpellsField (name, value) (n ++ '=' :: v)

/-- At least one field, with `&` between them. -/
inductive SpellsForm : List (String × String) → List Char → Prop
  | last {f : String × String} {w : List Char} : SpellsField f w → SpellsForm [f] w
  | cons {f : String × String} {fs : List (String × String)} {w t : List Char} :
    SpellsField f w → SpellsForm fs t → SpellsForm (f :: fs) (w ++ '&' :: t)

/-! ## Written forms -/

/-- A character in a form: by its octets, unless it may stand for itself. -/
def writeChar (c : Char) : List Char :=
  if c = ' ' then ['+']
  else if c.toNat < 0x80 ∧ c ∉ ['%', '+', '&', '='] then [c]
  else (String.utf8EncodeChar c).flatMap fun o => '%' :: Text.hex 2 o.toNat

def writeField (f : String × String) : List Char :=
  f.1.toList.flatMap writeChar ++ '=' :: f.2.toList.flatMap writeChar

def writeForm : List (String × String) → List Char
  | [] => []
  | [f] => writeField f
  | f :: g :: fs => writeField f ++ '&' :: writeForm (g :: fs)

theorem spellsChar_writeChar (c : Char) : SpellsChar c (writeChar c) := by
  unfold writeChar
  split
  · next h =>
    subst h
    exact .plus
  split
  · next h => exact .itself h.1 h.2
  · exact .octets (Spelled.flatMap fun _ _ => ⟨Text.spellsHex_hex 2 _⟩)

theorem spellsField_writeField (f : String × String) : SpellsField f (writeField f) :=
  .mk (Spelled.flatMap fun c _ => spellsChar_writeChar c)
    (Spelled.flatMap fun c _ => spellsChar_writeChar c)

/-- A form that was written spells its fields. -/
theorem spellsForm_writeForm (f : String × String) (fs : List (String × String)) :
    SpellsForm (f :: fs) (writeForm (f :: fs)) := by
  induction fs generalizing f with
  | nil => exact .last (spellsField_writeField f)
  | cons g fs ih => exact .cons (spellsField_writeField f) (ih g)

/-! ## Octets -/

theorem hexValue?_spelled {k : Nat} (hk : k < 16) {d : Char}
    (h : d = hexDigit k ∨ d = (hexDigit k).toUpper) : hexValue? d = some k := by
  have hall : ∀ k < 16, hexValue? (hexDigit k) = some k ∧
      hexValue? (hexDigit k).toUpper = some k := by decide
  rcases h with rfl | rfl
  · exact (hall k hk).1
  · exact (hall k hk).2

/-- An octet is read, whatever follows its spelling. -/
theorem octets_octet {o : UInt8} {w : List Char} (h : SpellsOctet o w) (r : List Char) :
    octets (w ++ r) = o :: octets r := by
  obtain ⟨hds⟩ := h
  have hex : Text.hex 2 o.toNat = [hexDigit (o.toNat / 16 % 16), hexDigit (o.toNat % 16)] := rfl
  rw [SpellsHex, hex] at hds
  obtain ⟨a, _, ha, h₁, rfl⟩ := List.forall₂_cons_right_iff.1 hds
  obtain ⟨b, _, hb, h₂, rfl⟩ := List.forall₂_cons_right_iff.1 h₁
  obtain rfl := List.forall₂_nil_right_iff.1 h₂
  have hmod (k : Nat) : k % 16 < 16 := Nat.mod_lt k (by decide)
  have hsum : 16 * (o.toNat / 16 % 16) + o.toNat % 16 = o.toNat := by
    have := o.toNat_lt
    omega
  have hoctet : octet? a b = some o := by
    simp only [octet?, hexValue?_spelled (hmod _) ha, hexValue?_spelled (hmod _) hb, hsum,
      UInt8.ofNat_toNat]
  rw [List.cons_append, List.cons_append, List.singleton_append, octets, if_pos rfl, hoctet]

theorem octets_spelled {os : List UInt8} {w : List Char} (h : Spelled SpellsOctet os w)
    (r : List Char) : octets (w ++ r) = os ++ octets r := by
  induction h with
  | nil => rfl
  | cons ho _ ih => rw [List.append_assoc, octets_octet ho, ih, List.cons_append]

/-- What stands in a spelled name or value: ASCII without the marks between fields. -/
def IsInner (x : Char) : Prop :=
  isAscii x = true ∧ x ≠ '&' ∧ x ≠ '='

instance (x : Char) : Decidable (IsInner x) :=
  inferInstanceAs (Decidable (_ ∧ _ ∧ _))

theorem SpellsOctet.inner {o : UInt8} {w : List Char} (h : SpellsOctet o w) :
    ∀ x ∈ w, IsInner x ∧ x ≠ '+' := by
  obtain ⟨hds⟩ := h
  rw [List.forall_mem_cons]
  exact ⟨by decide, hds.forall_mem (by decide)⟩

theorem SpellsChar.inner {c : Char} {w : List Char} (h : SpellsChar c w) :
    ∀ x ∈ w, IsInner x := by
  cases h with
  | itself hlow hc =>
    simp only [List.mem_cons, List.not_mem_nil, or_false, not_or] at hc
    rw [List.forall_mem_singleton]
    exact ⟨by simpa [isAscii] using hlow, hc.2.2.1, hc.2.2.2⟩
  | plus => simp [IsInner, isAscii]
  | octets ho => exact fun x hx => (ho.forall_mem (fun _ _ => SpellsOctet.inner) x hx).1

/-! ## Names and values -/

theorem withSpaces_append (s t : List Char) :
    withSpaces (s ++ t) = withSpaces s ++ withSpaces t :=
  List.map_append

theorem withSpaces_of_no_plus {s : List Char} (h : ∀ x ∈ s, x ≠ '+') : withSpaces s = s := by
  refine (List.map_congr_left fun x hx => ?_).trans (List.map_id s)
  rw [if_neg (h x hx), id]

/-- A character is read as its octets, whatever follows its spelling. -/
theorem octets_char {c : Char} {w : List Char} (h : SpellsChar c w) (r : List Char) :
    octets (withSpaces w ++ r) = String.utf8EncodeChar c ++ octets r := by
  cases h with
  | itself hlow hc =>
    simp only [List.mem_cons, List.not_mem_nil, or_false, not_or] at hc
    rw [withSpaces_of_no_plus (by simpa using hc.2.1), Text.Utf8.utf8EncodeChar_ascii hlow]
    exact octets_cons_of_ne hc.1 r
  | plus => exact octets_cons_of_ne (by decide) r
  | octets ho =>
    have hplus := ho.forall_mem (P := (· ≠ '+')) fun _ _ ho x hx => (ho.inner x hx).2
    rw [withSpaces_of_no_plus hplus, octets_spelled ho]

theorem octets_text {s t : List Char} (h : Spelled SpellsChar s t) :
    octets (withSpaces t) = Utf8.encode s := by
  induction h with
  | nil => rfl
  | cons hc _ ih =>
    rw [withSpaces_append, octets_char hc, ih]
    rfl

/-- A text in ASCII is one stretch of octets. -/
theorem decode_ascii {s : List Char} (h : ∀ c ∈ s, isAscii c = true) :
    decode s = Text.Utf8.decodeLossy (octets s) := by
  cases s with
  | nil => rw [decode]; rfl
  | cons c r =>
    rw [List.forall_mem_cons] at h
    rw [decode, if_pos h.1, List.takeWhile_eq_self_iff.2 h.2, List.dropWhile_eq_nil_iff.2 h.2,
      decode, List.append_nil]

/-- A name or a value is read as the text. -/
theorem component_spelled {s t : List Char} (h : Spelled SpellsChar s t) : component t = s := by
  have hascii : ∀ x ∈ withSpaces t, isAscii x = true := by
    intro x hx
    obtain ⟨y, hy, rfl⟩ := List.mem_map.1 hx
    split
    · decide
    · exact (h.forall_mem (fun _ _ => SpellsChar.inner) y hy).1
  rw [component, decode_ascii hascii, octets_text h, Text.Utf8.decodeLossy_encode]

/-! ## Fields -/

def readField (w : List Char) : Text.Phrase × Json.Value :=
  (.plain (String.ofList (component (cut w).1)), .text (String.ofList (component (cut w).2)))

theorem SpellsField.ne_ampersand {f : String × String} {w : List Char} (h : SpellsField f w) :
    '&' ∉ w := by
  obtain ⟨hn, hv⟩ := h
  have hinner {s t : List Char} (h : Spelled SpellsChar s t) : '&' ∉ t := fun hm =>
    (h.forall_mem (fun _ _ => SpellsChar.inner) '&' hm).2.1 rfl
  simp only [List.mem_append, List.mem_cons, not_or]
  exact ⟨hinner hn, by decide, hinner hv⟩

theorem readField_spelled {f : String × String} {w : List Char} (h : SpellsField f w) :
    readField w = (.plain f.1, .text f.2) := by
  obtain ⟨hn, hv⟩ := h
  have heq : '=' ∉ _ := fun hm => (hn.forall_mem (fun _ _ => SpellsChar.inner) '=' hm).2.2 rfl
  simp only [readField, cut_append heq, component_spelled hn, component_spelled hv,
    String.ofList_toList]

theorem pieces_spelled {fs : List (String × String)} {t : List Char} (h : SpellsForm fs t) :
    List.Forall₂ SpellsField fs (Text.pieces '&' t) := by
  induction h with
  | last hf =>
    rw [Text.pieces_of_not_mem hf.ne_ampersand]
    exact .cons hf .nil
  | cons hf _ ih =>
    rw [Text.pieces_append hf.ne_ampersand]
    exact .cons hf ih

/-- No field is empty, so all of them are read. -/
theorem map_readField_spelled {fs : List (String × String)} {ws : List (List Char)}
    (h : List.Forall₂ SpellsField fs ws) :
    (ws.filter fun w => !w.isEmpty).map readField = fs.map fun f => (.plain f.1, .text f.2) := by
  induction h with
  | nil => rfl
  | @cons f w fs ws hf _ ih =>
    have hw : (!w.isEmpty) = true := by
      obtain ⟨-, -⟩ := hf
      simp
    rw [List.filter_cons, if_pos hw, List.map_cons, List.map_cons, readField_spelled hf, ih]

/-- A form is read as its fields. The last one of a name counts. -/
theorem fieldsOfText_spelled {fs : List (String × String)} {t : List Char} (h : SpellsForm fs t) :
    fieldsOfText t = Json.fieldsOf (fs.map fun f => (f.1, .text f.2)) := by
  rw [Json.fieldsOf, List.map_map]
  exact congrArg Json.Fields.ofPairs (map_readField_spelled (pieces_spelled h))

/-! ## Bodies -/

theorem bodyText_encode (s : List Char) : bodyText (Utf8.encode s) = s := by
  rw [bodyText, Text.Utf8.decode?_encode]

/-- The octets of a form are read as its fields. -/
theorem fields_spelled {fs : List (String × String)} {t : List Char} (h : SpellsForm fs t) :
    fields (Utf8.encode t) = Json.fieldsOf (fs.map fun f => (f.1, .text f.2)) := by
  rw [fields, bodyText_encode, fieldsOfText_spelled h]

theorem count_spelled {fs : List (String × String)} {t : List Char} (h : SpellsForm fs t) :
    count (Utf8.encode t) = fs.length := by
  rw [count, bodyText_encode, (pieces_spelled h).length_eq]

end MarkdownPreview.Web.Form

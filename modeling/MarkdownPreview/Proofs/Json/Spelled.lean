import Mathlib.Data.List.TakeWhile
import MarkdownPreview.Json.Reader
import MarkdownPreview.Json.Writer
import MarkdownPreview.Proofs.Text.Spelled
import MarkdownPreview.Proofs.Text.Utf8

/-!
# Reading spelled objects

A document leaves its writer free in many ways: a character of a text may stand for itself, or be
written by a short escape, by its number, or as a pair of surrogates; white space may stand around
every part. Whatever is chosen, reading an object of texts, nulls and Booleans gives its fields.

* `readText?_spelled`: a spelled text is read as the text.
* `readFields_spelled`: spelled fields are read one after the other.
* `readWithin_spelled`: a spelled object is read as its fields.
* `readBytes_spelled`: so are its octets in UTF-8.
* `read?_writeObject`: an object that was written is read back.
-/
namespace MarkdownPreview.Json

open Text (Phrase Point Spelled SpellsHex hexDigit)

/-! ## What objects look like -/

/-- The letter of each short escape, behind the character that it stands for. -/
def shortEscapes : List (Char × Char) :=
  [('"', '"'), ('\\', '\\'), ('/', '/'), ('\x08', 'b'), ('\x0c', 'f'), ('\n', 'n'), ('\r', 'r'),
    ('\t', 't')]

/-- The numbers of the two surrogates of a character beyond the first plane. -/
def surrogatesOf (n : Nat) : Nat × Nat :=
  (0xd800 + (n - 0x10000) / 0x400, 0xdc00 + (n - 0x10000) % 0x400)

/-- The ways to write a character inside a text. -/
inductive SpellsChar : Char → List Char → Prop
  | itself {c : Char} : ' ' ≤ c → c ≠ '"' → c ≠ '\\' → SpellsChar c [c]
  | short {c e : Char} : (c, e) ∈ shortEscapes → SpellsChar c ['\\', e]
  | number {c : Char} {ds : List Char} :
    c.toNat < 0x10000 → SpellsHex 4 c.toNat ds → SpellsChar c ('\\' :: 'u' :: ds)
  | pair {c : Char} {high low : List Char} :
    0x10000 ≤ c.toNat → SpellsHex 4 (surrogatesOf c.toNat).1 high →
      SpellsHex 4 (surrogatesOf c.toNat).2 low →
      SpellsChar c ('\\' :: 'u' :: high ++ '\\' :: 'u' :: low)

def Gap (w : List Char) : Prop :=
  ∀ c ∈ w, c = ' ' ∨ c = '\t' ∨ c = '\n' ∨ c = '\r'

/-- A text between its quotes. -/
def SpellsText (s : String) (w : List Char) : Prop :=
  ∃ t, Spelled SpellsChar s.toList t ∧ w = '"' :: t ++ ['"']

/-- The ways to write a text, a null or a Boolean. -/
inductive SpellsLeaf : Value → List Char → Prop
  | text {s : String} {w : List Char} : SpellsText s w → SpellsLeaf (.text s) w
  | null : SpellsLeaf .null ['n', 'u', 'l', 'l']
  | isTrue : SpellsLeaf (.bool true) ['t', 'r', 'u', 'e']
  | isFalse : SpellsLeaf (.bool false) ['f', 'a', 'l', 's', 'e']

/-- A key and a value, with a colon between them. -/
inductive SpellsField : String × Value → List Char → Prop
  | mk {key : String} {v : Value} {k g g' w : List Char} :
    SpellsText key k → Gap g → Gap g' → SpellsLeaf v w →
      SpellsField (key, v) (k ++ g ++ ':' :: g' ++ w)

/-- Fields with commas between them, up to the brace behind the last one. -/
inductive SpellsFields : List (String × Value) → List Char → Prop
  | last {f : String × Value} {w g : List Char} :
    SpellsField f w → Gap g → SpellsFields [f] (w ++ g ++ ['\x7d'])
  | cons {f : String × Value} {fs : List (String × Value)} {w g g' t : List Char} :
    SpellsField f w → Gap g → Gap g' → SpellsFields fs t →
      SpellsFields (f :: fs) (w ++ g ++ ',' :: g' ++ t)

/-- An object with at least one field. -/
inductive SpellsObject : List (String × Value) → List Char → Prop
  | mk {fs : List (String × Value)} {before g t after : List Char} :
    Gap before → Gap g → SpellsFields fs t → Gap after →
      SpellsObject fs (before ++ '\x7b' :: g ++ t ++ after)

theorem gap_nil : Gap [] := by
  simp [Gap]

theorem gap_space : Gap [' '] := by
  simp [Gap]

/-! ## Points -/

theorem ofChars_cons (c : Char) (s : List Char) :
    Point.ofChars (c :: s) = .char c :: Point.ofChars s := rfl

/-- White space is skipped up to anything else. -/
theorem skipBlanks_gap {g : List Char} {c : Char} (hg : Gap g) (hc : isSpace (.char c) = false)
    (r : List Char) :
    skipBlanks (Point.ofChars (g ++ c :: r)) = Point.ofChars (c :: r) := by
  induction g with
  | nil => simp [skipBlanks, ofChars_cons, hc]
  | cons d g ih =>
    rw [Gap, List.forall_mem_cons] at hg
    have hd : isSpace (.char d) = true := by
      rcases hg.1 with rfl | rfl | rfl | rfl <;> rfl
    rw [List.cons_append, ofChars_cons, skipBlanks, List.dropWhile_cons_of_pos hd]
    exact ih hg.2

theorem skipBlanks_gap_nil {g : List Char} (hg : Gap g) : skipBlanks (Point.ofChars g) = [] := by
  refine List.dropWhile_eq_nil_iff.2 fun p hp => ?_
  obtain ⟨c, hc, rfl⟩ := List.mem_map.1 hp
  rcases hg c hc with rfl | rfl | rfl | rfl <;> rfl

/-! ## Texts -/

theorem hexValue?_spelled {k : Nat} (hk : k < 16) {d : Char}
    (h : d = hexDigit k ∨ d = (hexDigit k).toUpper) : hexValue? (.char d) = some k := by
  have hall : ∀ k < 16, hexValue? (.char (hexDigit k)) = some k ∧
      hexValue? (.char (hexDigit k).toUpper) = some k := by decide
  rcases h with rfl | rfl
  · exact (hall k hk).1
  · exact (hall k hk).2

/-- Four digits of a number are read as the number. -/
theorem fourDigits?_spelled {n : Nat} (hn : n < 0x10000) {ds : List Char} (h : SpellsHex 4 n ds) :
    ∃ a b c d, ds = [a, b, c, d] ∧
      fourDigits? (.char a) (.char b) (.char c) (.char d) = some n := by
  have hex : Text.hex 4 n = [hexDigit (n / 16 / 16 / 16 % 16), hexDigit (n / 16 / 16 % 16),
      hexDigit (n / 16 % 16), hexDigit (n % 16)] := rfl
  rw [SpellsHex, hex] at h
  obtain ⟨a, _, ha, h₁, rfl⟩ := List.forall₂_cons_right_iff.1 h
  obtain ⟨b, _, hb, h₂, rfl⟩ := List.forall₂_cons_right_iff.1 h₁
  obtain ⟨c, _, hc, h₃, rfl⟩ := List.forall₂_cons_right_iff.1 h₂
  obtain ⟨d, _, hd, h₄, rfl⟩ := List.forall₂_cons_right_iff.1 h₃
  obtain rfl := List.forall₂_nil_right_iff.1 h₄
  refine ⟨a, b, c, d, rfl, ?_⟩
  have hmod (k : Nat) : k % 16 < 16 := Nat.mod_lt k (by decide)
  have hsum : (((0 * 16 + n / 16 / 16 / 16 % 16) * 16 + n / 16 / 16 % 16) * 16 +
      n / 16 % 16) * 16 + n % 16 = n := by omega
  simp only [fourDigits?, List.foldlM, hexValue?_spelled (hmod _) ha,
    hexValue?_spelled (hmod _) hb, hexValue?_spelled (hmod _) hc,
    hexValue?_spelled (hmod _) hd, Option.map_some, Option.bind_eq_bind, Option.bind_some, hsum]
  rfl

/-- A number that opens no pair is a point of its own. -/
theorem points_number {n : Nat} (h : Text.WideUnits.isHigh n = false) (ws : List Written) :
    Written.points (.byNumber n :: ws) = .ofNat n :: Written.points ws := by
  match ws with
  | [] => rfl
  | .asItself _ :: _ => rfl
  | .byNumber low :: _ => rw [Written.points, h, Bool.false_and, if_neg (by simp)]

theorem points_pair {high low : Nat} (hh : Text.WideUnits.isHigh high = true)
    (hl : Text.WideUnits.isLow low = true) (ws : List Written) :
    Written.points (.byNumber high :: .byNumber low :: ws) =
      .ofNat (Text.WideUnits.pairValue high low) :: Written.points ws := by
  rw [Written.points, hh, hl, Bool.and_self, if_pos rfl]

theorem isHigh_lt {n : Nat} (h : Text.WideUnits.isHigh n = true) : n < 0x10000 := by
  simp only [Text.WideUnits.isHigh, Bool.and_eq_true, decide_eq_true_eq] at h
  omega

theorem isLow_lt {n : Nat} (h : Text.WideUnits.isLow n = true) : n < 0x10000 := by
  simp only [Text.WideUnits.isLow, Bool.and_eq_true, decide_eq_true_eq] at h
  omega

/-- Two surrogates stand for what their low bits make up. -/
theorem pairValue_add (a b : Nat) :
    Text.WideUnits.pairValue (0xd800 + a) (0xdc00 + b) = 0x10000 + a * 0x400 + b := by
  unfold Text.WideUnits.pairValue
  omega

/-- The surrogates of a number form a pair that stands for it. -/
theorem surrogatesOf_pair {n : Nat} (hlow : 0x10000 ≤ n) (hhigh : n < 0x110000) :
    Text.WideUnits.isHigh (surrogatesOf n).1 = true ∧
      Text.WideUnits.isLow (surrogatesOf n).2 = true ∧
      Text.WideUnits.pairValue (surrogatesOf n).1 (surrogatesOf n).2 = n := by
  have hquotient : (n - 0x10000) / 0x400 < 0x400 := by omega
  refine ⟨?_, ?_, (pairValue_add _ _).trans ?_⟩
  · rw [Text.WideUnits.isHigh, Bool.and_eq_true, decide_eq_true_eq, decide_eq_true_eq, surrogatesOf]
    omega
  · rw [Text.WideUnits.isLow, Bool.and_eq_true, decide_eq_true_eq, decide_eq_true_eq, surrogatesOf]
    omega
  · omega

theorem readWritten?_number {n : Nat} (hn : n < 0x10000) {ds : List Char} (h : SpellsHex 4 n ds)
    (r : List Char) : readWritten? (Point.ofChars ('\\' :: 'u' :: ds ++ r)) =
      (readWritten? (Point.ofChars r)).map fun (ws, t) => (.byNumber n :: ws, t) := by
  obtain ⟨a, b, c, d, rfl, hfour⟩ := fourDigits?_spelled hn h
  simp only [List.cons_append, List.nil_append, ofChars_cons, readWritten?, hfour,
    Option.bind_eq_bind, Option.bind_some]
  cases readWritten? (Point.ofChars r) <;> rfl

theorem shortEscape?_spelled {c e : Char} (h : (c, e) ∈ shortEscapes) :
    e ≠ 'u' ∧ shortEscape? (.char e) = some c := by
  have hall : ∀ f ∈ shortEscapes, f.2 ≠ 'u' ∧ shortEscape? (.char f.2) = some f.1 := by decide
  exact hall _ h

/-- A character is read, whatever follows its spelling. -/
theorem readWritten?_char {c : Char} {w : List Char} (h : SpellsChar c w) : ∃ ws : List Written,
    (∀ r, readWritten? (Point.ofChars (w ++ r)) =
      (readWritten? (Point.ofChars r)).map fun (vs, t) => (ws ++ vs, t)) ∧
    ∀ vs, Written.points (ws ++ vs) = .char c :: Written.points vs := by
  have hvalid : c.toNat < 0xd800 ∨ 0xdfff < c.toNat ∧ c.toNat < 0x110000 := c.valid
  cases h with
  | itself hs hq hb =>
    refine ⟨[.asItself (.char c)], fun r => ?_, fun vs => rfl⟩
    have hlit : isLiteral (.char c) = true := by simp [isLiteral, hs, hb]
    rw [List.singleton_append, ofChars_cons, readWritten?, if_pos hlit]
    · rfl
    · exact fun h => hq (Point.char.inj h)
    · exact fun _ _ _ _ _ h => absurd (Point.char.inj h) hb
    · exact fun _ _ h => absurd (Point.char.inj h) hb
  | @short e he =>
    obtain ⟨hu, hshort⟩ := shortEscape?_spelled he
    refine ⟨[.asItself (.char c)], fun r => ?_, fun vs => rfl⟩
    rw [List.cons_append, List.singleton_append, ofChars_cons, ofChars_cons, readWritten?, hshort]
    · cases readWritten? (Point.ofChars r) <;> rfl
    · exact fun _ _ _ _ _ h => absurd (Point.char.inj h) hu
  | number hn hd =>
    have hhigh : Text.WideUnits.isHigh c.toNat = false := by
      simp [Text.WideUnits.isHigh]
      omega
    refine ⟨[.byNumber c.toNat], readWritten?_number hn hd, fun vs => ?_⟩
    rw [List.singleton_append, points_number hhigh, Text.Utf8.point_toNat]
  | @pair high low hn hhigh hlow =>
    obtain ⟨hh, hl, hvalue⟩ := surrogatesOf_pair hn (by omega)
    refine ⟨[.byNumber (surrogatesOf c.toNat).1, .byNumber (surrogatesOf c.toNat).2],
      fun r => ?_, fun vs => ?_⟩
    · have happ : '\\' :: 'u' :: high ++ '\\' :: 'u' :: low ++ r =
          '\\' :: 'u' :: high ++ ('\\' :: 'u' :: low ++ r) := by simp
      rw [happ, readWritten?_number (isHigh_lt hh) hhigh, readWritten?_number (isLow_lt hl) hlow]
      cases readWritten? (Point.ofChars r) <;> rfl
    · rw [List.cons_append, List.singleton_append, points_pair hh hl, hvalue,
        Text.Utf8.point_toNat]

/-- The characters of a text are read up to its closing quote. -/
theorem readWritten?_spelled {s t : List Char} (h : Spelled SpellsChar s t) (r : List Char) :
    ∃ ws, readWritten? (Point.ofChars (t ++ '"' :: r)) = some (ws, Point.ofChars r) ∧
      Written.points ws = Point.ofChars s := by
  induction h with
  | nil => exact ⟨[], rfl, rfl⟩
  | @cons c w t s hc _ ih =>
    obtain ⟨vs, hvs, hpoints⟩ := ih
    obtain ⟨ws, hread, hchar⟩ := readWritten?_char hc
    refine ⟨ws ++ vs, ?_, ?_⟩
    · rw [List.append_assoc, hread, hvs]
      rfl
    · rw [hchar, hpoints, ofChars_cons]

/-- A text is read behind its opening quote, whatever follows its closing one. -/
theorem readText?_spelled {s t : List Char} (h : Spelled SpellsChar s t) (r : List Char) :
    readText? (Point.ofChars (t ++ '"' :: r)) =
      some (.plain (String.ofList s), Point.ofChars r) := by
  obtain ⟨ws, hws, hpoints⟩ := readWritten?_spelled h r
  rw [readText?, hws, ← Phrase.ofPoints_ofChars, ← hpoints]
  rfl

/-! ## Fields -/

/-- The fields of an object that is read. The last one of a name counts. -/
def fieldsOf (fs : List (String × Value)) : Fields :=
  Fields.ofPairs (fs.map fun f => (.plain f.1, f.2))

/-- The fields after some more that have different names. -/
theorem get?_foldl_put {fs : Fields} (h : (fs.map Prod.fst).Nodup) (before : Fields) (key : String)
    (v : Value) : (fs.foldl (fun fields f => fields.put f.1 f.2) before).get? key = some v ↔
      (.plain key, v) ∈ fs ∨ .plain key ∉ fs.map Prod.fst ∧ before.get? key = some v := by
  induction fs generalizing before with
  | nil => simp
  | cons f fs ih =>
    obtain ⟨k, w⟩ := f
    rw [List.map_cons, List.nodup_cons] at h
    rw [List.foldl_cons, ih h.2]
    have hfresh : ∀ u, (k, u) ∉ fs := fun u hu => h.1 (List.mem_map.2 ⟨_, hu, rfl⟩)
    by_cases hk : k = .plain key
    · subst hk
      simp [Fields.get?_put_self, hfresh, h.1, eq_comm]
    · simp [Fields.get?_put_of_ne before w hk, Ne.symm hk]

/-- If no name comes twice, each field is found. -/
theorem get?_fieldsOf {fs : List (String × Value)} (h : (fs.map Prod.fst).Nodup) {key : String}
    {v : Value} : (fieldsOf fs).get? key = some v ↔ (key, v) ∈ fs := by
  have hplain : ((fs.map Prod.fst).map Phrase.plain).Nodup :=
    List.Pairwise.map _ (fun _ _ hne he => hne (Phrase.plain.inj he)) h
  have hkeys : ((fs.map fun f => (Phrase.plain f.1, f.2)).map Prod.fst).Nodup := by
    simpa [Function.comp_def] using hplain
  have hget := get?_foldl_put hkeys [] key v
  simpa [Fields.get?, fieldsOf, Fields.ofPairs] using hget

/-- The order of the fields does not matter then. -/
theorem get?_of_perm {fs gs : List (String × Value)} (h : fs.Perm gs)
    (hgs : (gs.map Prod.fst).Nodup) {key : String} {v : Value} :
    (fieldsOf fs).get? key = some v ↔ (key, v) ∈ gs := by
  rw [get?_fieldsOf ((h.map Prod.fst).nodup_iff.2 hgs), h.mem_iff]

/-! ## Objects -/

theorem SpellsText.cons_eq {s : String} {w : List Char} (h : SpellsText s w) :
    ∃ t, w = '"' :: t := by
  obtain ⟨t, -, rfl⟩ := h
  exact ⟨_, rfl⟩

/-- A text is read, whatever follows it. -/
theorem read_text {s : String} {w : List Char} (h : SpellsText s w) (r : List Char) :
    ∃ rest, Point.ofChars (w ++ r) = .char '"' :: rest ∧
      readText? rest = some (.plain s, Point.ofChars r) := by
  obtain ⟨t, ht, rfl⟩ := h
  refine ⟨Point.ofChars (t ++ '"' :: r), by simp [ofChars_cons], ?_⟩
  rw [readText?_spelled ht, String.ofList_toList]

/-- A leaf is read, whatever follows it. -/
theorem readValue_leaf {v : Value} {w : List Char} (h : SpellsLeaf v w) (fuel room : Nat)
    (r : List Char) :
    readValue (fuel + 1) room (Point.ofChars (w ++ r)) = .ok (v, Point.ofChars r) := by
  cases h with
  | text hs =>
    obtain ⟨rest, hw, hread⟩ := read_text hs r
    rw [hw, readValue, hread]
    rfl
  | null => rfl
  | isTrue => rfl
  | isFalse => rfl

/-- A leaf does not start with white space. -/
theorem SpellsLeaf.cons_eq {v : Value} {w : List Char} (h : SpellsLeaf v w) :
    ∃ c r, w = c :: r ∧ isSpace (.char c) = false := by
  cases h with
  | text hs =>
    obtain ⟨t, rfl⟩ := hs.cons_eq
    exact ⟨'"', t, rfl, rfl⟩
  | null => exact ⟨'n', _, rfl, rfl⟩
  | isTrue => exact ⟨'t', _, rfl, rfl⟩
  | isFalse => exact ⟨'f', _, rfl, rfl⟩

/-- What is read of a field: its key, the colon, and its value, whatever follows that. -/
theorem read_field {f : String × Value} {w : List Char} (h : SpellsField f w) (r : List Char) :
    ∃ key colon value, Point.ofChars (w ++ r) = .char '"' :: key ∧
      readText? key = some (.plain f.1, colon) ∧ skipBlanks colon = .char ':' :: value ∧
      ∀ fuel room, readValue (fuel + 1) room (skipBlanks value) = .ok (f.2, Point.ofChars r) := by
  obtain ⟨hkey, hg, hg', hleaf⟩ := h
  rename_i key v k g g' w
  obtain ⟨c, l, rfl, hc⟩ := hleaf.cons_eq
  obtain ⟨rest, hw, hread⟩ := read_text hkey (g ++ ':' :: (g' ++ (c :: l ++ r)))
  refine ⟨rest, _, Point.ofChars (g' ++ (c :: l ++ r)), ?_, hread, skipBlanks_gap hg rfl _, ?_⟩
  · rw [← hw]
    simp
  · intro fuel room
    rw [List.cons_append, skipBlanks_gap hg' hc]
    exact readValue_leaf hleaf fuel room r

theorem readFields_last {f : String × Value} {w r : List Char} {rest : List Point}
    (h : SpellsField f w) (hr : skipBlanks (Point.ofChars r) = .char '\x7d' :: rest)
    (fuel room : Nat) : readFields (fuel + 2) room (Point.ofChars (w ++ r)) =
      .ok ([(.plain f.1, f.2)], rest) := by
  obtain ⟨key, colon, value, hw, hkey, hcolon, hvalue⟩ := read_field h r
  simp only [hw, readFields, hkey, orMalformed, hcolon, hvalue, hr, bind, Except.bind, pure,
    Except.pure]

theorem readFields_next {f : String × Value} {w r : List Char} {rest rest' : List Point}
    {fuel room : Nat} {fields : List (Phrase × Value)}
    (h : SpellsField f w) (hr : skipBlanks (Point.ofChars r) = .char ',' :: rest)
    (hfields : readFields (fuel + 1) room (skipBlanks rest) = .ok (fields, rest')) :
    readFields (fuel + 2) room (Point.ofChars (w ++ r)) =
      .ok ((.plain f.1, f.2) :: fields, rest') := by
  obtain ⟨key, colon, value, hw, hkey, hcolon, hvalue⟩ := read_field h r
  rw [hw, readFields]
  simp only [hkey, orMalformed, hcolon, hvalue, hr, hfields, bind, Except.bind, pure,
    Except.pure]

theorem SpellsFields.cons_eq {fs : List (String × Value)} {t : List Char}
    (h : SpellsFields fs t) : ∃ r, t = '"' :: r := by
  have hfield : ∀ {f w}, SpellsField f w → ∀ r : List Char, ∃ r', w ++ r = '"' :: r' := by
    rintro f w ⟨hkey, -, -, -⟩ r
    obtain ⟨t, rfl⟩ := hkey.cons_eq
    exact ⟨_, rfl⟩
  cases h with
  | last hf _ =>
    rw [List.append_assoc]
    exact hfield hf _
  | cons hf _ _ _ =>
    rw [List.append_assoc, List.append_assoc]
    exact hfield hf _

/-- Fields are read up to the brace behind the last one. -/
theorem readFields_spelled {fs : List (String × Value)} {t : List Char} (h : SpellsFields fs t)
    {fuel : Nat} (hfuel : fs.length < fuel) (room : Nat) (r : List Char) :
    readFields fuel room (Point.ofChars (t ++ r)) =
      .ok (fs.map fun f => (.plain f.1, f.2), Point.ofChars r) := by
  induction h generalizing fuel with
  | @last f w g hf hg =>
    obtain ⟨fuel, rfl⟩ : ∃ n, fuel = n + 2 :=
      ⟨fuel - 2, by simp only [List.length_singleton] at hfuel; omega⟩
    rw [List.append_assoc, List.append_assoc, List.singleton_append]
    exact readFields_last hf (skipBlanks_gap hg rfl r) fuel room
  | @cons f fs w g g' t hf hg hg' ht ih =>
    obtain ⟨fuel, rfl⟩ : ∃ n, fuel = n + 2 :=
      ⟨fuel - 2, by simp only [List.length_cons] at hfuel; omega⟩
    obtain ⟨r', rfl⟩ := ht.cons_eq
    have hcomma := skipBlanks_gap (c := ',') hg rfl (g' ++ '"' :: (r' ++ r))
    have hshorter : fs.length < fuel + 1 := by
      simp only [List.length_cons] at hfuel
      omega
    have hrest := ih hshorter
    rw [List.cons_append, ← skipBlanks_gap hg' rfl (r' ++ r)] at hrest
    have hlist : w ++ g ++ ',' :: g' ++ '"' :: r' ++ r =
        w ++ (g ++ ',' :: (g' ++ '"' :: (r' ++ r))) := by simp
    rw [hlist]
    exact readFields_next hf hcomma hrest

theorem SpellsFields.length_le {fs : List (String × Value)} {t : List Char}
    (h : SpellsFields fs t) : fs.length ≤ t.length := by
  induction h with
  | last _ _ =>
    simp only [List.length_append, List.length_singleton]
    omega
  | cons _ _ _ _ ih =>
    simp only [List.length_cons, List.length_append]
    omega

/-- An object is read, whatever follows its closing brace. -/
theorem readValue_object {fs : List (String × Value)} {g t : List Char} (hg : Gap g)
    (h : SpellsFields fs t) {fuel : Nat} (hfuel : fs.length < fuel) (room : Nat) (r : List Char) :
    readValue (fuel + 1) (room + 1) (Point.ofChars ('\x7b' :: (g ++ (t ++ r)))) =
      .ok (.object (fieldsOf fs), Point.ofChars r) := by
  obtain ⟨t, rfl⟩ := h.cons_eq
  have hfirst := skipBlanks_gap (c := '"') hg rfl (t ++ r)
  have hfields := readFields_spelled h hfuel room r
  rw [List.cons_append, ofChars_cons] at hfields
  rw [ofChars_cons] at hfirst
  simp only [List.cons_append, ofChars_cons, readValue, hfirst]
  split
  · next h => exact absurd (Point.char.inj (List.cons.inj h).1) (by decide)
  · rw [hfields]
    rfl

/-- A document with an object is read as its fields. -/
theorem readWithin_spelled {fs : List (String × Value)} {w : List Char} (h : SpellsObject fs w)
    (room : Nat) : readWithin (room + 1) (Point.ofChars w) = .ok (.object (fieldsOf fs)) := by
  obtain ⟨hbefore, hg, hfields, hafter⟩ := h
  rename_i before g t after
  have hopen := skipBlanks_gap (c := '\x7b') hbefore rfl (g ++ (t ++ after))
  have hfuel : fs.length <
      2 * (Point.ofChars (before ++ '\x7b' :: g ++ t ++ after)).length + 1 := by
    have hlen := hfields.length_le
    simp only [Point.ofChars, List.length_map, List.length_append]
    omega
  have hread := readValue_object hg hfields hfuel room after
  rw [← hopen] at hread
  have hlist : before ++ '\x7b' :: g ++ t ++ after =
      before ++ '\x7b' :: (g ++ (t ++ after)) := by simp
  rw [← hlist] at hread
  simp only [readWithin, hread, skipBlanks_gap_nil hafter, List.isEmpty_nil, if_true]

/-! ## Octets -/

/-- No spelling of a character holds a zero. -/
theorem SpellsChar.ne_zero {c : Char} {w : List Char} (h : SpellsChar c w) :
    ∀ x ∈ w, x ≠ '\x00' := by
  have hdigit : ∀ k < 16, hexDigit k ≠ '\x00' ∧ (hexDigit k).toUpper ≠ '\x00' := by decide
  cases h with
  | itself hs _ _ =>
    rw [List.forall_mem_singleton]
    rintro rfl
    exact absurd hs (by decide)
  | @short e he =>
    have hall : ∀ f ∈ shortEscapes, f.2 ≠ '\x00' := by decide
    simp only [List.forall_mem_cons]
    exact ⟨by decide, hall _ he, nofun⟩
  | number _ hd =>
    simp only [List.forall_mem_cons]
    exact ⟨by decide, by decide, hd.forall_mem hdigit⟩
  | pair _ hhigh hlow =>
    simp only [List.cons_append, List.forall_mem_cons, List.forall_mem_append]
    exact ⟨by decide, by decide, hhigh.forall_mem hdigit, by decide, by decide,
      hlow.forall_mem hdigit⟩

theorem Gap.ne_zero {g : List Char} (h : Gap g) : ∀ x ∈ g, x ≠ '\x00' := by
  intro x hx
  rcases h x hx with rfl | rfl | rfl | rfl <;> decide

theorem SpellsText.ne_zero {s : String} {w : List Char} (h : SpellsText s w) :
    ∀ x ∈ w, x ≠ '\x00' := by
  obtain ⟨t, ht, rfl⟩ := h
  simp only [List.cons_append, List.forall_mem_cons, List.forall_mem_append]
  exact ⟨by decide, ht.forall_mem fun _ _ => SpellsChar.ne_zero, by decide, nofun⟩

theorem SpellsLeaf.ne_zero {v : Value} {w : List Char} (h : SpellsLeaf v w) :
    ∀ x ∈ w, x ≠ '\x00' := by
  cases h with
  | text hs => exact hs.ne_zero
  | null => simp
  | isTrue => simp
  | isFalse => simp

theorem SpellsField.ne_zero {f : String × Value} {w : List Char} (h : SpellsField f w) :
    ∀ x ∈ w, x ≠ '\x00' := by
  obtain ⟨hkey, hg, hg', hleaf⟩ := h
  simp only [List.forall_mem_cons, List.forall_mem_append]
  exact ⟨⟨⟨hkey.ne_zero, hg.ne_zero⟩, by decide, hg'.ne_zero⟩, hleaf.ne_zero⟩

theorem SpellsFields.ne_zero {fs : List (String × Value)} {t : List Char}
    (h : SpellsFields fs t) : ∀ x ∈ t, x ≠ '\x00' := by
  induction h with
  | last hf hg =>
    simp only [List.forall_mem_append]
    exact ⟨⟨hf.ne_zero, hg.ne_zero⟩, by simp⟩
  | cons hf hg hg' _ ih =>
    simp only [List.forall_mem_cons, List.forall_mem_append]
    exact ⟨⟨⟨hf.ne_zero, hg.ne_zero⟩, by decide, hg'.ne_zero⟩, ih⟩

theorem SpellsObject.ne_zero {fs : List (String × Value)} {w : List Char}
    (h : SpellsObject fs w) : ∀ x ∈ w, x ≠ '\x00' := by
  obtain ⟨hbefore, hg, hfields, hafter⟩ := h
  simp only [List.forall_mem_cons, List.forall_mem_append]
  exact ⟨⟨⟨hbefore.ne_zero, by decide, hg.ne_zero⟩, hfields.ne_zero⟩, hafter.ne_zero⟩

theorem guessed_of_no_zero {bytes : List UInt8} (h : 0 ∉ bytes) : guessed bytes = .utf8 := by
  unfold guessed
  split <;> simp at h ⊢

/-- No byte order mark starts with ASCII, unless with a zero. -/
theorem marked?_of_ascii {b : UInt8} (h : b.toNat < 0x80) (h0 : b ≠ 0) (r : List UInt8) :
    marked? (b :: r) = none := by
  have hne : ∀ n : UInt8, 0x80 ≤ n.toNat → n ≠ b := by
    rintro n hn rfl
    omega
  simp [marked?, Ne.symm h0, hne 0xff (by decide), hne 0xfe (by decide), hne 0xef (by decide)]

theorem detect_encode {c : Char} {s : List Char} (hc : c.toNat < 0x80)
    (h : ∀ x ∈ c :: s, x ≠ '\x00') :
    detect (Text.Utf8.encode (c :: s)) = (.utf8, Text.Utf8.encode (c :: s)) := by
  have hno : 0 ∉ Text.Utf8.encode (c :: s) := fun h0 => h _ (Text.Utf8.zero_mem_encode h0) rfl
  have hhead : Text.Utf8.encode (c :: s) = UInt8.ofNat c.toNat :: Text.Utf8.encode s := by
    rw [Text.Utf8.encode, List.flatMap_cons, Text.Utf8.utf8EncodeChar_ascii hc]
    rfl
  have hmark : marked? (Text.Utf8.encode (c :: s)) = none := by
    rw [hhead] at hno ⊢
    refine marked?_of_ascii ?_ (fun h0 => hno ?_) _
    · rw [Text.Utf8.toNat_octet (by omega)]
      exact hc
    · rw [h0]
      exact List.mem_cons_self
  rw [detect, hmark, Option.getD_none, guessed_of_no_zero hno]

theorem SpellsObject.cons_eq {fs : List (String × Value)} {w : List Char}
    (h : SpellsObject fs w) : ∃ c s, w = c :: s ∧ c.toNat < 0x80 := by
  obtain ⟨hbefore, -, -, -⟩ := h
  rename_i before g t after
  cases before with
  | nil => exact ⟨'\x7b', g ++ t ++ after, rfl, by decide⟩
  | cons c before =>
    refine ⟨c, before ++ '\x7b' :: g ++ t ++ after, rfl, ?_⟩
    rcases hbefore c List.mem_cons_self with rfl | rfl | rfl | rfl <;> decide

/-- The octets of a document with an object are read as its fields. -/
theorem readBytes_spelled {fs : List (String × Value)} {w : List Char} (h : SpellsObject fs w)
    (room : Nat) : readBytes (room + 1) (Text.Utf8.encode w) = .ok (.object (fieldsOf fs)) := by
  obtain ⟨c, s, rfl, hc⟩ := h.cons_eq
  have hdetect := detect_encode hc h.ne_zero
  simp only [readBytes, hdetect, Encoding.decode?, Text.Utf8.decodePoints?_encode]
  exact readWithin_spelled h room

/-! ## Written objects -/

theorem numberEscape_eq (n : Nat) : numberEscape n = '\\' :: 'u' :: Text.hex 4 n := rfl

theorem spellsChar_writeChar (c : Char) : SpellsChar c (writeChar c) := by
  have hshort : ∀ e, (c, e) ∈ shortEscapes → SpellsChar c ['\\', e] := fun _ => .short
  unfold writeChar
  extract_lets n
  split
  · next h => rcases h with rfl | rfl <;> exact hshort _ (by decide)
  next hplain =>
  rw [not_or] at hplain
  split
  · next h => exact .itself h.1 hplain.1 hplain.2
  split
  · next h => subst h; exact hshort _ (by decide)
  split
  · next h => subst h; exact hshort _ (by decide)
  split
  · next h => subst h; exact hshort _ (by decide)
  split
  · next h => subst h; exact hshort _ (by decide)
  split
  · next h => subst h; exact hshort _ (by decide)
  split
  · next h =>
    rw [numberEscape_eq]
    exact .number h (Text.spellsHex_hex 4 _)
  · next h =>
    have hpair := SpellsChar.pair (Nat.not_lt.1 h) (Text.spellsHex_hex 4 _)
      (Text.spellsHex_hex 4 _)
    rw [surrogatesOf] at hpair
    rwa [numberEscape_eq, numberEscape_eq]

theorem spellsText_writeText (s : String) : SpellsText s (writeText s) :=
  ⟨_, Spelled.flatMap fun c _ => spellsChar_writeChar c, rfl⟩

/-- The value of a text that may be absent. -/
def optionalValue : Option String → Value
  | some s => .text s
  | none => .null

theorem spellsLeaf_writeOptional (o : Option String) :
    SpellsLeaf (optionalValue o) (writeOptional o) := by
  cases o with
  | none => exact .null
  | some s => exact .text (spellsText_writeText s)

theorem spellsField_entry (f : String × Option String) :
    SpellsField (f.1, optionalValue f.2) (writeText f.1 ++ [':', ' '] ++ writeOptional f.2) := by
  have h := SpellsField.mk (spellsText_writeText f.1) gap_nil gap_space
    (spellsLeaf_writeOptional f.2)
  rwa [List.append_nil] at h

theorem spellsFields_entries (f : String × Option String) (fields : List (String × Option String)) :
    SpellsFields ((f :: fields).map fun f => (f.1, optionalValue f.2))
      ([',', ' '].intercalate ((f :: fields).map fun f =>
        writeText f.1 ++ [':', ' '] ++ writeOptional f.2) ++ ['\x7d']) := by
  induction fields generalizing f with
  | nil =>
    have h := SpellsFields.last (spellsField_entry f) gap_nil
    simpa using h
  | cons f' fields ih =>
    have h := SpellsFields.cons (spellsField_entry f) gap_nil gap_space (ih f')
    rw [List.append_nil] at h
    rw [List.map_cons, List.map_cons (l := f' :: fields), List.map_cons, List.map_cons,
      List.intercalate_cons_cons]
    simpa using h

/-- An object that was written spells its fields. -/
theorem spellsObject_writeObject (f : String × Option String)
    (fields : List (String × Option String)) :
    SpellsObject ((f :: fields).map fun f => (f.1, optionalValue f.2))
      (writeObject (f :: fields)).toList := by
  have h := SpellsObject.mk gap_nil gap_nil (spellsFields_entries f fields) gap_nil
  rw [writeObject, String.toList_ofList]
  simpa using h

/-- An object that was written is read back. -/
theorem read?_writeObject (f : String × Option String) (fields : List (String × Option String)) :
    read? (writeObject (f :: fields)) =
      some (.object (fieldsOf ((f :: fields).map fun f => (f.1, optionalValue f.2)))) := by
  have hspells := spellsObject_writeObject f fields
  obtain ⟨c, s, hw, -⟩ := hspells.cons_eq
  have hroom : (writeObject (f :: fields)).length = s.length + 1 := by
    rw [← String.length_toList, hw, List.length_cons]
  rw [read?, hroom, readWithin_spelled hspells]
  rfl

end MarkdownPreview.Json

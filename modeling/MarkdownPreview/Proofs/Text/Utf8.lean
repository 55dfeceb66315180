import MarkdownPreview.Text.Utf8

/-!
# Reading what was written in UTF-8

A text that is written in UTF-8 is read back by every way to read, at any place in a stream of
octets. The octets of a character carry the digits of its number to the base 64, and the first one
also says how many follow; each lemma on octets is stated for these digits.

* `readFrom_char`: a character is read back, whatever follows its octets.
* `decode?_encode`, `decodeLossy_encode`, `decodePoints?_encode`: a text is read back.
* `toList_toUTF8`: the octets of a string are those of its characters.
-/
namespace MarkdownPreview.Text.Utf8

def encode (s : List Char) : List UInt8 :=
  s.flatMap String.utf8EncodeChar

/-! ## Octets -/

theorem toNat_octet {n : Nat} (h : n < 256) : (UInt8.ofNat n).toNat = n := by
  rw [UInt8.toNat_ofNat']
  omega

/-- The point of a character's number is the character. -/
theorem point_toNat (c : Char) : Point.ofNat c.toNat = .char c := by
  have hv : c.toNat.isValidChar := c.valid
  rw [Point.ofNat, if_pos hv, Char.ofNat_toNat]

section

variable (surrogates : Bool)

theorem first_ascii {n : Nat} (h : n < 0x80) :
    first surrogates (UInt8.ofNat n) = ([some (.char (Char.ofNat n))], none) := by
  have hn : (UInt8.ofNat n).toNat = n := toNat_octet (by omega)
  simp only [first, hn, if_pos h]

/-- The first of two octets. -/
theorem first_two {y : Nat} (hlow : 2 ≤ y) (hhigh : y < 0x20) :
    first surrogates (UInt8.ofNat (y + 0xc0)) = ([], some ⟨y, 1, 0x80, 0xbf⟩) := by
  have hn : (UInt8.ofNat (y + 0xc0)).toNat = y + 0xc0 := toNat_octet (by omega)
  simp only [first, hn, Nat.add_sub_cancel]
  rw [if_neg (by omega), if_neg (by omega), if_pos (by omega)]

/-- The first of three octets. The second one then spells no shorter character, and no surrogate
unless these are wanted. -/
theorem first_three {y : Nat} (h : y < 0x10) :
    first surrogates (UInt8.ofNat (y + 0xe0)) =
      ([], some ⟨y, 2, if y = 0 then 0xa0 else 0x80,
        if y = 0xd then (if surrogates then 0xbf else 0x9f) else 0xbf⟩) := by
  have hn : (UInt8.ofNat (y + 0xe0)).toNat = y + 0xe0 := toNat_octet (by omega)
  simp only [first, hn, Nat.add_sub_cancel]
  rw [if_neg (by omega), if_neg (by omega), if_neg (by omega)]
  by_cases h0 : y = 0
  · subst h0
    simp
  · by_cases hd : y = 0xd
    · subst hd
      simp
    · rw [if_neg (by omega), if_neg (by omega), if_pos (by omega), if_neg h0, if_neg hd]

/-- The first of four octets. The second one then spells no shorter character and none beyond the
last one. -/
theorem first_four {y : Nat} (h : y < 5) :
    first surrogates (UInt8.ofNat (y + 0xf0)) =
      ([], some ⟨y, 3, if y = 0 then 0x90 else 0x80, if y = 4 then 0x8f else 0xbf⟩) := by
  have hn : (UInt8.ofNat (y + 0xf0)).toNat = y + 0xf0 := toNat_octet (by omega)
  simp only [first, hn, Nat.add_sub_cancel]
  rw [if_neg (by omega), if_neg (by omega), if_neg (by omega), if_neg (by omega),
    if_neg (by omega), if_neg (by omega)]
  by_cases h0 : y = 0
  · subst h0
    simp
  · by_cases h4 : y = 4
    · subst h4
      simp
    · rw [if_neg (by omega), if_pos (by omega), if_neg h0, if_neg h4]

theorem readFrom_cons (p : Option Pending) (b : UInt8) (r : List UInt8) :
    readFrom surrogates p (b :: r) =
      (step surrogates p b).1 ++ readFrom surrogates (step surrogates p b).2 r := by
  cases p <;> rfl

theorem readFrom_first {b : UInt8} {p : Pending} (h : first surrogates b = ([], some p))
    (r : List UInt8) : readFrom surrogates none (b :: r) = readFrom surrogates (some p) r := by
  rw [readFrom_cons, step, h]
  rfl

/-- An octet that is owed carries one digit. -/
theorem step_owed {p : Pending} {x : Nat} (hx : x < 64) (hlow : p.low.toNat ≤ x + 0x80)
    (hhigh : x + 0x80 ≤ p.high.toNat) :
    step surrogates (some p) (UInt8.ofNat (x + 0x80)) =
      if p.owed ≤ 1 then ([some (.ofNat (p.value * 64 + x))], none)
      else ([], some ⟨p.value * 64 + x, p.owed - 1, 0x80, 0xbf⟩) := by
  have hn : (UInt8.ofNat (x + 0x80)).toNat = x + 0x80 := toNat_octet (by omega)
  have hin : p.low ≤ UInt8.ofNat (x + 0x80) ∧ UInt8.ofNat (x + 0x80) ≤ p.high := by
    rw [UInt8.le_iff_toNat_le, UInt8.le_iff_toNat_le, hn]
    exact ⟨hlow, hhigh⟩
  have hmod : (x + 0x80) % 64 = x := by omega
  simp only [step, if_pos hin, hn, hmod]

/-- The last octet completes the character. -/
theorem readFrom_last {value x : Nat} (hx : x < 64) (r : List UInt8) :
    readFrom surrogates (some ⟨value, 1, 0x80, 0xbf⟩) (UInt8.ofNat (x + 0x80) :: r) =
      some (.ofNat (value * 64 + x)) :: readFrom surrogates none r := by
  rw [readFrom_cons, step_owed surrogates hx (by simp) (by simp; omega)]
  rfl

/-- After an octet that is not the last one, the next may carry any digit. -/
theorem readFrom_owed {value owed x : Nat} {low high : UInt8} (howed : 1 < owed) (hx : x < 64)
    (hlow : low.toNat ≤ x + 0x80) (hhigh : x + 0x80 ≤ high.toNat) (r : List UInt8) :
    readFrom surrogates (some ⟨value, owed, low, high⟩) (UInt8.ofNat (x + 0x80) :: r) =
      readFrom surrogates (some ⟨value * 64 + x, owed - 1, 0x80, 0xbf⟩) r := by
  have hmore : ¬owed ≤ 1 := by omega
  rw [readFrom_cons, step_owed surrogates hx hlow hhigh, if_neg hmore]
  rfl

/-! ## Characters -/

/-- A character is read back, whatever follows its octets. -/
theorem readFrom_char (c : Char) (r : List UInt8) :
    readFrom surrogates none (String.utf8EncodeChar c ++ r) =
      some (.char c) :: readFrom surrogates none r := by
  have hvalid : c.toNat < 0xd800 ∨ 0xdfff < c.toNat ∧ c.toNat < 0x110000 := c.valid
  have hval : c.val.toNat = c.toNat := rfl
  simp only [String.utf8EncodeChar, hval]
  by_cases h1 : c.toNat ≤ 0x7f
  · rw [if_pos h1, List.singleton_append, readFrom_cons, step, first_ascii surrogates (by omega),
      Char.ofNat_toNat]
    rfl
  rw [if_neg h1]
  by_cases h2 : c.toNat ≤ 0x7ff
  · have hvalue : c.toNat / 64 % 0x20 * 64 + c.toNat % 0x40 = c.toNat := by omega
    rw [if_pos h2, List.cons_append, List.singleton_append,
      readFrom_first surrogates (first_two surrogates (by omega) (by omega)),
      readFrom_last surrogates (by omega), hvalue, point_toNat]
  rw [if_neg h2]
  by_cases h3 : c.toNat ≤ 0xffff
  · have hvalue : (c.toNat / 4096 % 0x10 * 64 + c.toNat / 64 % 0x40) * 64 + c.toNat % 0x40 =
        c.toNat := by omega
    rw [if_pos h3, List.cons_append, List.cons_append, List.singleton_append,
      readFrom_first surrogates (first_three surrogates (by omega)),
      readFrom_owed surrogates (by decide) (by omega) (by split <;> simp; omega)
        (by split <;> (try split) <;> simp <;> omega),
      readFrom_last surrogates (by omega), hvalue, point_toNat]
  rw [if_neg h3]
  have hvalue : ((c.toNat / 262144 % 8 * 64 + c.toNat / 4096 % 0x40) * 64 +
      c.toNat / 64 % 0x40) * 64 + c.toNat % 0x40 = c.toNat := by omega
  rw [List.cons_append, List.cons_append, List.cons_append, List.singleton_append,
    readFrom_first surrogates (first_four surrogates (by omega)),
    readFrom_owed surrogates (by decide) (by omega) (by split <;> simp; omega)
      (by split <;> simp <;> omega),
    readFrom_owed surrogates (by decide) (by omega) (by simp) (by simp; omega),
    readFrom_last surrogates (by omega), hvalue, point_toNat]

/-! ## Texts -/

/-- A text is read back as its characters. -/
theorem readFrom_encode (s : List Char) :
    readFrom surrogates none (encode s) = s.map fun c => some (.char c) := by
  induction s with
  | nil => rfl
  | cons c s ih =>
    rw [encode, List.flatMap_cons, readFrom_char, ← encode, ih, List.map_cons]

end

theorem mapM_chars (s : List Char) :
    (s.map fun c => some (Point.char c)).mapM id = some (Point.ofChars s) := by
  induction s with
  | nil => rfl
  | cons c s ih =>
    rw [List.map_cons, List.mapM_cons, ih]
    rfl

theorem decodePoints?_encode (s : List Char) : decodePoints? (encode s) = some (Point.ofChars s) := by
  rw [decodePoints?, readFrom_encode, mapM_chars]

theorem decode?_encode (s : List Char) : decode? (encode s) = some s := by
  rw [decode?, readFrom_encode, mapM_chars, Option.map_some, Point.shown_ofChars]

theorem decodeLossy_encode (s : List Char) : decodeLossy (encode s) = s :=
  decodeLossy_eq_of_decode? (decode?_encode s)

/-! ## Single octets -/

/-- ASCII is written as its own octets. -/
theorem utf8EncodeChar_ascii {c : Char} (h : c.toNat < 0x80) :
    String.utf8EncodeChar c = [UInt8.ofNat c.toNat] := by
  have hval : c.val.toNat = c.toNat := rfl
  simp only [String.utf8EncodeChar, hval]
  rw [if_pos (by omega)]

theorem length_encode_of_ascii {s : List Char} (h : ∀ c ∈ s, c.toNat < 0x80) :
    (encode s).length = s.length := by
  induction s with
  | nil => rfl
  | cons c s ih =>
    rw [List.forall_mem_cons] at h
    rw [encode, List.flatMap_cons, utf8EncodeChar_ascii h.1, List.length_append, ← encode, ih h.2,
      List.length_singleton, List.length_cons, Nat.add_comm]

/-- Every octet of another character is greater. -/
theorem le_of_mem_utf8EncodeChar {c : Char} (h : 0x80 ≤ c.toNat) :
    ∀ b ∈ String.utf8EncodeChar c, 0x80 ≤ b.toNat := by
  have hvalid : c.toNat < 0xd800 ∨ 0xdfff < c.toNat ∧ c.toNat < 0x110000 := c.valid
  have hval : c.val.toNat = c.toNat := rfl
  have hlow : ¬c.toNat ≤ 0x7f := by omega
  simp only [String.utf8EncodeChar, hval, if_neg hlow]
  split
  · simp only [List.forall_mem_cons, UInt8.toNat_ofNat']
    exact ⟨by omega, by omega, nofun⟩
  split
  · simp only [List.forall_mem_cons, UInt8.toNat_ofNat']
    exact ⟨by omega, by omega, by omega, nofun⟩
  · simp only [List.forall_mem_cons, UInt8.toNat_ofNat']
    exact ⟨by omega, by omega, by omega, by omega, nofun⟩

/-- Only the zero is written with a zero octet. -/
theorem zero_mem_encode {s : List Char} (h : 0 ∈ encode s) : '\x00' ∈ s := by
  obtain ⟨c, hc, h⟩ := List.mem_flatMap.1 h
  by_cases hlow : c.toNat < 0x80
  · rw [utf8EncodeChar_ascii hlow, List.mem_singleton] at h
    have hzero : c.toNat = 0 := by
      rw [← toNat_octet (n := c.toNat) (by omega), ← h]
      rfl
    rwa [← Char.ofNat_toNat c, hzero] at hc
  · exact absurd (le_of_mem_utf8EncodeChar (Nat.not_lt.1 hlow) 0 h) (by decide)

/-! ## Strings -/

/-- Listing an array from a place on adds what stands from there on. -/
theorem toList_loop {b : ByteArray} {before after : List UInt8}
    (h : b.data.toList = before ++ after) (r : List UInt8) :
    ByteArray.toList.loop b before.length r = r.reverse ++ after := by
  have hsize : b.size = (before ++ after).length := by rw [← h, Array.length_toList]; rfl
  induction after generalizing before r with
  | nil =>
    have hend : ¬before.length < b.size := by simp [hsize]
    rw [ByteArray.toList.loop, if_neg hend, List.append_nil]
  | cons x after ih =>
    have hin : before.length < b.size := by simp [hsize]
    have hx : b.get! before.length = x := by
      have hget : b.data[before.length]? = some x := by simp [← Array.getElem?_toList, h]
      simp [ByteArray.get!, Array.getElem!_eq_getD, hget]
    have happ : b.data.toList = (before ++ [x]) ++ after := by simp [h]
    have hnext := ih happ (x :: r) (by simp [hsize])
    rw [List.length_append, List.length_singleton] at hnext
    rw [ByteArray.toList.loop, if_pos hin, hx, hnext, List.reverse_cons, List.append_assoc,
      List.singleton_append]

/-- The octets of a string are those of its characters. -/
theorem toList_toUTF8 (s : String) : s.toUTF8.toList = encode s.toList := by
  have hdata : s.toByteArray.data.toList = [] ++ encode s.toList := by
    rw [← String.utf8Encode_toList, List.utf8Encode, List.toList_data_toByteArray, encode,
      List.nil_append]
  exact toList_loop hdata []

end MarkdownPreview.Text.Utf8

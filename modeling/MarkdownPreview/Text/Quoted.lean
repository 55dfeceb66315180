import MarkdownPreview.Text.Table.Unprintable

/-!
# Quoted texts

Messages show a text between quotes, so that its ends and its unprintable characters can be seen.
The quotes are single, unless the text holds single quotes and no double ones. The quote in use and
the backslash are written with a backslash, as are line feed, carriage return and tab; any other
unprintable character is written by its number.

* `quote_eq_double_iff`: when double quotes are used.
* `quoted_simple`: a text of plain characters is only put between quotes.
-/
namespace MarkdownPreview.Text

def hexDigit (n : Nat) : Char :=
  Nat.digitChar n

/-- The low `width` hexadecimal digits of a number. -/
def hex : (width : Nat) → Nat → List Char
  | 0, _ => []
  | w + 1, n => hex w (n / 16) ++ [hexDigit (n % 16)]

/-- The quote that goes around a text. -/
def quoteFor (s : List Char) : Char :=
  if s.contains '\'' && !s.contains '"' then '"' else '\''

/-- A character written by its number: two, four or eight digits, as many as it needs. -/
def byNumber (c : Char) : List Char :=
  let n := c.toNat
  if n < 0x100 then ['\\', 'x'] ++ hex 2 n
  else if n < 0x10000 then ['\\', 'u'] ++ hex 4 n
  else ['\\', 'U'] ++ hex 8 n

/-- A character as it stands between quotes. -/
def quotedChar (quote c : Char) : List Char :=
  if c = quote ∨ c = '\\' then ['\\', c]
  else if c = '\n' then ['\\', 'n']
  else if c = '\r' then ['\\', 'r']
  else if c = '\t' then ['\\', 't']
  else if Table.unprintable.has c then byNumber c
  else [c]

/-- A text between quotes. -/
def quoted (s : List Char) : List Char :=
  let q := quoteFor s
  q :: s.flatMap (quotedChar q) ++ [q]

theorem quote_eq_double_iff (s : List Char) :
    quoteFor s = '"' ↔ '\'' ∈ s ∧ '"' ∉ s := by
  unfold quoteFor
  by_cases h1 : '\'' ∈ s <;> by_cases h2 : '"' ∈ s <;> simp [h1, h2]

theorem quotedChar_plain {q c : Char} (hq : c ≠ q) (hb : c ≠ '\\')
    (hp : Table.unprintable.has c = false) : quotedChar q c = [c] := by
  have hn : c ≠ '\n' := by rintro rfl; revert hp; decide +kernel
  have hr : c ≠ '\r' := by rintro rfl; revert hp; decide +kernel
  have ht : c ≠ '\t' := by rintro rfl; revert hp; decide +kernel
  simp [quotedChar, hq, hb, hn, hr, ht, hp]

/-- A text of printed characters without quotes and backslashes is only put between quotes. -/
theorem quoted_simple {s : List Char}
    (h : ∀ c ∈ s, c ≠ '\'' ∧ c ≠ '\\' ∧ Table.unprintable.has c = false) :
    quoted s = '\'' :: s ++ ['\''] := by
  have hq : quoteFor s = '\'' := by
    have : '\'' ∉ s := fun hc => (h _ hc).1 rfl
    simp [quoteFor, this]
  have hs : ∀ t : List Char, (∀ c ∈ t, c ≠ '\'' ∧ c ≠ '\\' ∧ Table.unprintable.has c = false) →
      t.flatMap (quotedChar '\'') = t := by
    intro t ht
    induction t with
    | nil => rfl
    | cons c r ih =>
      simp only [List.forall_mem_cons] at ht
      rw [List.flatMap_cons, ih ht.2, quotedChar_plain ht.1.1 ht.1.2.1 ht.1.2.2]
      rfl
  simp [quoted, hq, hs s h]

end MarkdownPreview.Text

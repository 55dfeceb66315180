/-!
# Text inside markup

A text is put into markup by writing the five characters that could start or end something there as
entities.

* `no_angle_escape`, `no_quote_escape`: nothing in an escaped text can start a tag or end a value.
* `unescape_escape`: the text can be read back.
-/
namespace MarkdownPreview.Text

def escapeChar : Char → List Char
  | '&' => "&amp;".toList
  | '<' => "&lt;".toList
  | '>' => "&gt;".toList
  | '"' => "&quot;".toList
  | '\'' => "&#x27;".toList
  | c => [c]

/-- A text as it stands in markup. -/
def escape (s : List Char) : List Char :=
  s.flatMap escapeChar

/-- The text that an escaped one stands for. -/
def unescape : List Char → List Char
  | '&' :: 'a' :: 'm' :: 'p' :: ';' :: r => '&' :: unescape r
  | '&' :: 'l' :: 't' :: ';' :: r => '<' :: unescape r
  | '&' :: 'g' :: 't' :: ';' :: r => '>' :: unescape r
  | '&' :: 'q' :: 'u' :: 'o' :: 't' :: ';' :: r => '"' :: unescape r
  | '&' :: '#' :: 'x' :: '2' :: '7' :: ';' :: r => '\'' :: unescape r
  | c :: r => c :: unescape r
  | [] => []

def escaped (s : String) : String :=
  String.ofList (escape s.toList)

theorem escapeChar_eq_self {c : Char}
    (h : c ≠ '&' ∧ c ≠ '<' ∧ c ≠ '>' ∧ c ≠ '"' ∧ c ≠ '\'') : escapeChar c = [c] := by
  unfold escapeChar
  split <;> simp_all

/-! ## The five entities -/

theorem escapeChar_ampersand : escapeChar '&' = ['&', 'a', 'm', 'p', ';'] := rfl

theorem escapeChar_less : escapeChar '<' = ['&', 'l', 't', ';'] := rfl

theorem escapeChar_greater : escapeChar '>' = ['&', 'g', 't', ';'] := rfl

theorem escapeChar_double : escapeChar '"' = ['&', 'q', 'u', 'o', 't', ';'] := rfl

theorem escapeChar_single : escapeChar '\'' = ['&', '#', 'x', '2', '7', ';'] := rfl

theorem mem_escapeChar {x c : Char} (h : x ∈ escapeChar c) :
    x ≠ '<' ∧ x ≠ '>' ∧ x ≠ '"' ∧ x ≠ '\'' := by
  by_cases hc : c ≠ '&' ∧ c ≠ '<' ∧ c ≠ '>' ∧ c ≠ '"' ∧ c ≠ '\''
  · rw [escapeChar_eq_self hc, List.mem_singleton] at h
    exact h ▸ hc.2
  · have hc' : c = '&' ∨ c = '<' ∨ c = '>' ∨ c = '"' ∨ c = '\'' := by grind
    rcases hc' with rfl | rfl | rfl | rfl | rfl
    · rw [escapeChar_ampersand] at h; grind
    · rw [escapeChar_less] at h; grind
    · rw [escapeChar_greater] at h; grind
    · rw [escapeChar_double] at h; grind
    · rw [escapeChar_single] at h; grind

theorem no_angle_escape (s : List Char) : '<' ∉ escape s ∧ '>' ∉ escape s := by
  constructor <;> intro h <;> obtain ⟨c, -, hc⟩ := List.mem_flatMap.1 h <;>
    simpa using mem_escapeChar hc

theorem no_quote_escape (s : List Char) : '"' ∉ escape s ∧ '\'' ∉ escape s := by
  constructor <;> intro h <;> obtain ⟨c, -, hc⟩ := List.mem_flatMap.1 h <;>
    simpa using mem_escapeChar hc

theorem unescape_cons_of_ne {c : Char} (h : c ≠ '&') (r : List Char) :
    unescape (c :: r) = c :: unescape r := by
  rw [unescape] <;> intros <;> exact absurd ‹_› h

/-- The entity of each of the five characters is read back. -/
theorem unescape_entity {c : Char} (h : c = '&' ∨ c = '<' ∨ c = '>' ∨ c = '"' ∨ c = '\'')
    (r : List Char) : unescape (escapeChar c ++ r) = c :: unescape r := by
  rcases h with rfl | rfl | rfl | rfl | rfl
  · rw [escapeChar_ampersand]; simp only [List.cons_append, List.nil_append, unescape]
  · rw [escapeChar_less]; simp only [List.cons_append, List.nil_append, unescape]
  · rw [escapeChar_greater]; simp only [List.cons_append, List.nil_append, unescape]
  · rw [escapeChar_double]; simp only [List.cons_append, List.nil_append, unescape]
  · rw [escapeChar_single]; simp only [List.cons_append, List.nil_append, unescape]

theorem unescape_escapeChar (c : Char) (r : List Char) :
    unescape (escapeChar c ++ r) = c :: unescape r := by
  by_cases h : c ≠ '&' ∧ c ≠ '<' ∧ c ≠ '>' ∧ c ≠ '"' ∧ c ≠ '\''
  · rw [escapeChar_eq_self h]
    exact unescape_cons_of_ne h.1 r
  · exact unescape_entity (by grind) r

theorem unescape_escape (s : List Char) : unescape (escape s) = s := by
  induction s with
  | nil => rfl
  | cons c r ih => rw [escape, List.flatMap_cons, unescape_escapeChar, ← escape, ih]

end MarkdownPreview.Text

/-!
# Blanks

Two sets of blank characters are in use. Between tags only the six blanks of ASCII count
(`isAsciiBlank`), so that a non-breaking space is never dropped from a document. Around a whole text
every white-space character of Unicode counts, and the four ASCII separators with them (`isBlank`);
`trim` removes those from both ends.

* `isBlank_of_isAsciiBlank`: the second set contains the first.
* `trim_cons_blank`, `trim_append_blank`: a blank at either end does not matter to `trim`.
-/
namespace MarkdownPreview.Text

/-- The blanks of ASCII: space, tab, line feed, carriage return, form feed, vertical tab. -/
def isAsciiBlank (c : Char) : Bool :=
  c = ' ' || c = '\t' || c = '\n' || c = '\r' || c = '\x0c' || c = '\x0b'

/-- White space in Unicode's sense, or one of the separators `0x1c` to `0x1f`. -/
def isBlank (c : Char) : Bool :=
  let n := c.toNat
  (0x09 ≤ n && n ≤ 0x0d) || (0x1c ≤ n && n ≤ 0x20) || n = 0x85 || n = 0xa0 || n = 0x1680 ||
    (0x2000 ≤ n && n ≤ 0x200a) || n = 0x2028 || n = 0x2029 || n = 0x202f || n = 0x205f ||
    n = 0x3000

theorem isBlank_of_isAsciiBlank {c : Char} (h : isAsciiBlank c = true) : isBlank c = true := by
  simp only [isAsciiBlank, Bool.or_eq_true, decide_eq_true_eq] at h
  rcases h with ((((rfl | rfl) | rfl) | rfl) | rfl) | rfl <;> decide

def trimStart (s : List Char) : List Char :=
  s.dropWhile isBlank

def trimEnd (s : List Char) : List Char :=
  (s.reverse.dropWhile isBlank).reverse

def trim (s : List Char) : List Char :=
  trimEnd (trimStart s)

theorem trim_cons_blank {c : Char} (h : isBlank c = true) (s : List Char) :
    trim (c :: s) = trim s := by
  simp [trim, trimStart, h]

theorem trimEnd_append_blank {c : Char} (h : isBlank c = true) (s : List Char) :
    trimEnd (s ++ [c]) = trimEnd s := by
  simp [trimEnd, h]

theorem trimStart_append (s t : List Char) (h : ∃ c ∈ s, isBlank c = false) :
    trimStart (s ++ t) = trimStart s ++ t := by
  induction s with
  | nil => simp at h
  | cons c r ih =>
    cases hc : isBlank c with
    | false => simp [trimStart, hc]
    | true =>
      have : ∃ d ∈ r, isBlank d = false := by
        obtain ⟨d, hd, hb⟩ := h
        rcases List.mem_cons.1 hd with rfl | hd
        · simp [hc] at hb
        · exact ⟨d, hd, hb⟩
      simpa [trimStart, hc] using ih this

theorem trimStart_of_blank (s : List Char) (h : ∀ c ∈ s, isBlank c = true) :
    trimStart s = [] := by
  induction s with
  | nil => rfl
  | cons c r ih =>
    simp only [List.forall_mem_cons] at h
    simpa [trimStart, h.1] using ih h.2

theorem trim_append_blank {c : Char} (h : isBlank c = true) (s : List Char) :
    trim (s ++ [c]) = trim s := by
  by_cases hs : ∃ d ∈ s, isBlank d = false
  · rw [trim, trimStart_append s [c] hs, trimEnd_append_blank h, trim]
  · have hb : ∀ d ∈ s, isBlank d = true := fun d hd => by
      cases hd' : isBlank d with
      | true => rfl
      | false => exact absurd ⟨d, hd, hd'⟩ hs
    have hb' : ∀ d ∈ s ++ [c], isBlank d = true := by
      simpa [or_imp, forall_and, h] using hb
    rw [trim, trim, trimStart_of_blank s hb, trimStart_of_blank _ hb']

def trimmed (s : String) : String :=
  String.ofList (trim s.toList)

end MarkdownPreview.Text

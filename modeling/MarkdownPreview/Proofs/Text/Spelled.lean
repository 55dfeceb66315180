import Mathlib.Data.List.Forall2
import MarkdownPreview.Text.Quoted

/-!
# Spellings of texts

JSON texts and form fields spell a text character by character, and leave it to the writer which of
several spellings each character gets. Both have spellings by hexadecimal digits, which may be small
or capital letters.

* `Spelled`: a text spells characters, or octets, in turn.
* `Spelled.forall_mem`: what holds of the spellings holds of the whole.
* `SpellsHex.forall_mem`: what holds of every digit holds of a number's digits.
-/
namespace MarkdownPreview.Text

/-! ## Spellings in turn -/

/-- A text spells some things in turn, each of them in one of its spellings. -/
inductive Spelled {α : Type} (spells : α → List Char → Prop) : List α → List Char → Prop
  | nil : Spelled spells [] []
  | cons {a : α} {w t : List Char} {s : List α} :
    spells a w → Spelled spells s t → Spelled spells (a :: s) (w ++ t)

namespace Spelled

variable {α : Type} {spells : α → List Char → Prop} {P : Char → Prop} {s : List α} {t : List Char}

/-- What holds of every character of a spelling holds of a spelled text. -/
theorem forall_mem (hP : ∀ a w, spells a w → ∀ x ∈ w, P x) (h : Spelled spells s t) :
    ∀ x ∈ t, P x := by
  induction h with
  | nil => simp
  | cons ha _ ih =>
    intro x hx
    rcases List.mem_append.1 hx with hx | hx
    · exact hP _ _ ha x hx
    · exact ih x hx

/-- A choice of one spelling for each thing is a text that spells them. -/
theorem flatMap {f : α → List Char} (hf : ∀ a ∈ s, spells a (f a)) :
    Spelled spells s (s.flatMap f) := by
  induction s with
  | nil => exact nil
  | cons a s ih =>
    rw [List.forall_mem_cons] at hf
    exact cons hf.1 (ih hf.2)

end Spelled

/-- A text spells itself, if its characters may stand for themselves. -/
theorem spelled_self {spells : Char → List Char → Prop} {s : List Char}
    (h : ∀ c ∈ s, spells c [c]) : Spelled spells s s := by
  simpa using Spelled.flatMap (f := fun c => [c]) h

/-! ## Hexadecimal digits -/

/-- Some characters are the digits of a number, each in a small or in a capital letter. -/
def SpellsHex (width n : Nat) (digits : List Char) : Prop :=
  List.Forall₂ (fun d h => d = h ∨ d = h.toUpper) digits (hex width n)

theorem mem_hex {width n : Nat} {h : Char} (hm : h ∈ hex width n) : ∃ k < 16, h = hexDigit k := by
  induction width generalizing n with
  | zero => simp [hex] at hm
  | succ width ih =>
    rcases List.mem_append.1 hm with hm | hm
    · exact ih hm
    · exact ⟨n % 16, Nat.mod_lt n (by decide), List.mem_singleton.1 hm⟩

theorem spellsHex_hex (width n : Nat) : SpellsHex width n (hex width n) :=
  List.forall₂_same.2 fun _ _ => .inl rfl

/-- What holds of every digit holds of the digits of a number. -/
theorem SpellsHex.forall_mem {P : Char → Prop} {width n : Nat} {digits : List Char}
    (hP : ∀ k < 16, P (hexDigit k) ∧ P (hexDigit k).toUpper) (h : SpellsHex width n digits) :
    ∀ d ∈ digits, P d := by
  intro d hd
  obtain ⟨i, hi, rfl⟩ := List.getElem_of_mem hd
  have hlen : i < (hex width n).length := h.length_eq ▸ hi
  obtain ⟨k, hk, he⟩ := mem_hex (List.getElem_mem hlen)
  have hspell := h.get hi hlen
  simp only [List.get_eq_getElem, he] at hspell
  rcases hspell with hd | hd
  · rw [hd]
    exact (hP k hk).1
  · rw [hd]
    exact (hP k hk).2

end MarkdownPreview.Text

/-!
# Pieces between separators

A text is cut at each separator. The pieces may be empty, and there is always one more of them than
there are separators.

* `pieces_ne_nil`: there is at least one piece.
* `pieces_of_not_mem`: without a separator, the text is the only piece.
* `pieces_append`: a separator parts the pieces before it from those after it.
-/
namespace MarkdownPreview.Text

variable {α : Type} [DecidableEq α]

/-- The pieces of a text between the separators. -/
def pieces (separator : α) : List α → List (List α)
  | [] => [[]]
  | c :: r =>
    if c = separator then [] :: pieces separator r
    else
      match pieces separator r with
      | [] => [[c]]
      | p :: ps => (c :: p) :: ps

theorem pieces_ne_nil (separator : α) (s : List α) : pieces separator s ≠ [] := by
  cases s with
  | nil => simp [pieces]
  | cons c r =>
    unfold pieces
    split
    · simp
    · split <;> simp

theorem pieces_cons_of_ne {separator c : α} (h : c ≠ separator) {r p : List α}
    {ps : List (List α)} (hr : pieces separator r = p :: ps) :
    pieces separator (c :: r) = (c :: p) :: ps := by
  simp [pieces, h, hr]

theorem pieces_append {separator : α} {p : List α} (h : separator ∉ p) (s : List α) :
    pieces separator (p ++ separator :: s) = p :: pieces separator s := by
  induction p with
  | nil => simp [pieces]
  | cons c r ih =>
    simp only [List.mem_cons, not_or] at h
    exact pieces_cons_of_ne (Ne.symm h.1) (ih h.2)

theorem pieces_of_not_mem {separator : α} {s : List α} (h : separator ∉ s) :
    pieces separator s = [s] := by
  induction s with
  | nil => rfl
  | cons c r ih =>
    simp only [List.mem_cons, not_or] at h
    exact pieces_cons_of_ne (Ne.symm h.1) (ih h.2)

end MarkdownPreview.Text

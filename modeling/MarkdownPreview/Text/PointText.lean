import MarkdownPreview.Text.Blank
import MarkdownPreview.Text.Escape
import MarkdownPreview.Text.LowerCase
import MarkdownPreview.Text.Point
import MarkdownPreview.Text.Quoted

/-!
# Texts of points

Trimming, small letters, escapes and quotes for texts that may hold lone surrogates. A lone surrogate
is no blank and no letter and needs no escape; between quotes it is written by its number.

* `trim_ofChars`, `lowerCase_ofChars`, `escape_ofChars`, `quoted_ofChars`: a text of characters alone
  is treated as such.
* `unescape_escape`: an escaped text can be read back.
-/
namespace MarkdownPreview.Text.Point

def isBlank : Point → Bool
  | char c => Text.isBlank c
  | lone _ => false

def trim (ps : List Point) : List Point :=
  ((ps.dropWhile isBlank).reverse.dropWhile isBlank).reverse

/-- A text with `f` done to every stretch of characters. The characters of the stretch so far are
given last character first. -/
def mapRuns (f : List Char → List Char) : (run : List Char) → List Point → List Point
  | run, [] => ofChars (f run.reverse)
  | run, char c :: r => mapRuns f (c :: run) r
  | run, lone n :: r => ofChars (f run.reverse) ++ lone n :: mapRuns f [] r

def lowerCase (ps : List Point) : List Point :=
  mapRuns Text.lowerCase [] ps

def escape (ps : List Point) : List Point :=
  mapRuns Text.escape [] ps

/-- The text that an escaped one stands for. -/
def unescape (ps : List Point) : List Point :=
  mapRuns Text.unescape [] ps

/-- The quote that goes around a text. -/
def quoteFor (ps : List Point) : Char :=
  if ps.contains (char '\'') && !ps.contains (char '"') then '"' else '\''

/-- A point as it stands between quotes. -/
def quotedPoint (quote : Char) : Point → List Char
  | char c => quotedChar quote c
  | lone n => ['\\', 'u'] ++ hex 4 n

def quoted (ps : List Point) : List Char :=
  let q := quoteFor ps
  q :: ps.flatMap (quotedPoint q) ++ [q]

theorem trim_ofChars (cs : List Char) : trim (ofChars cs) = ofChars (Text.trim cs) := by
  have h : isBlank ∘ char = Text.isBlank := rfl
  simp only [trim, ofChars, List.dropWhile_map, h, ← List.map_reverse, Text.trim, Text.trimStart,
    Text.trimEnd]

theorem mem_dropWhile_iff {α : Type} {p : α → Bool} {a : α} (ha : p a = false) (l : List α) :
    a ∈ l.dropWhile p ↔ a ∈ l := by
  refine ⟨fun h => (List.dropWhile_sublist p).subset h, fun h => ?_⟩
  rw [← List.takeWhile_append_dropWhile (p := p) (l := l), List.mem_append] at h
  refine h.resolve_left fun ht => ?_
  rw [List.all_eq_true.1 List.all_takeWhile a ht] at ha
  cases ha

theorem mem_trim_iff {p : Point} (hp : isBlank p = false) (ps : List Point) :
    p ∈ trim ps ↔ p ∈ ps := by
  rw [trim, List.mem_reverse, mem_dropWhile_iff hp, List.mem_reverse, mem_dropWhile_iff hp]

theorem mapRuns_ofChars (f : List Char → List Char) (run cs : List Char) :
    mapRuns f run (ofChars cs) = ofChars (f (run.reverse ++ cs)) := by
  induction cs generalizing run with
  | nil => simp [ofChars, mapRuns]
  | cons c r ih => simpa [ofChars, mapRuns] using ih (c :: run)

theorem mapRuns_append_lone (f : List Char → List Char) (run cs : List Char) (n : Nat)
    (r : List Point) : mapRuns f run (ofChars cs ++ lone n :: r) =
      ofChars (f (run.reverse ++ cs)) ++ lone n :: mapRuns f [] r := by
  induction cs generalizing run with
  | nil => simp [ofChars, mapRuns]
  | cons c cs ih => simpa [ofChars, mapRuns] using ih (c :: run)

/-- What is done to the stretches is undone stretch by stretch. -/
theorem mapRuns_mapRuns {f g : List Char → List Char} (h : ∀ cs, g (f cs) = cs) (run : List Char)
    (ps : List Point) : mapRuns g [] (mapRuns f run ps) = ofChars run.reverse ++ ps := by
  induction ps generalizing run with
  | nil => simp [mapRuns, mapRuns_ofChars, h]
  | cons p r ih =>
    cases p with
    | char c => simp [mapRuns, ih, ofChars]
    | lone n =>
      rw [mapRuns, mapRuns_append_lone, List.reverse_nil, List.nil_append, h, ih]
      rfl

theorem lone_mem_mapRuns_iff (f : List Char → List Char) (run : List Char) (ps : List Point)
    (n : Nat) : lone n ∈ mapRuns f run ps ↔ lone n ∈ ps := by
  induction ps generalizing run with
  | nil => simp [mapRuns, ofChars]
  | cons p r ih => cases p <;> simp [mapRuns, ih, ofChars]

/-- Characters come from a stretch only. -/
theorem exists_of_mem_mapRuns {f : List Char → List Char} {c : Char} {run : List Char}
    {ps : List Point} (h : char c ∈ mapRuns f run ps) : ∃ cs, c ∈ f cs := by
  induction ps generalizing run with
  | nil => exact ⟨run.reverse, by simpa [mapRuns, ofChars] using h⟩
  | cons p r ih =>
    cases p with
    | char d => exact ih (by simpa [mapRuns] using h)
    | lone n =>
      rw [mapRuns, List.mem_append, List.mem_cons] at h
      rcases h with h | h | h
      · exact ⟨run.reverse, by simpa [ofChars] using h⟩
      · cases h
      · exact ih h

theorem escape_ofChars (cs : List Char) : escape (ofChars cs) = ofChars (Text.escape cs) :=
  mapRuns_ofChars Text.escape [] cs

theorem unescape_escape (ps : List Point) : unescape (escape ps) = ps :=
  mapRuns_mapRuns Text.unescape_escape [] ps

theorem lowerCase_ofChars (cs : List Char) :
    lowerCase (ofChars cs) = ofChars (Text.lowerCase cs) :=
  mapRuns_ofChars Text.lowerCase [] cs

theorem mem_ofChars (cs : List Char) (c : Char) : char c ∈ ofChars cs ↔ c ∈ cs := by
  simp [ofChars]

theorem quoted_ofChars (cs : List Char) : quoted (ofChars cs) = Text.quoted cs := by
  have hq : quoteFor (ofChars cs) = Text.quoteFor cs := by
    simp [quoteFor, Text.quoteFor, mem_ofChars]
  simp only [quoted, Text.quoted, hq]
  rw [ofChars, List.flatMap_map]
  rfl

end MarkdownPreview.Text.Point

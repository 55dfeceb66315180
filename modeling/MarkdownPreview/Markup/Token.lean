import MarkdownPreview.Markup.Vocabulary

/-!
# Tokens of a converted document

A document is not parsed. One walk from left to right cuts it into single characters and recognised
tags (`Segment`), and the tags with their places are the document's tokens (`scan`).

A tag is found in whatever case it is written, but it is given its kind only if its text, with the
gap of an item closed, is one of the exact texts of that kind; otherwise it is `other`. A paragraph
task item whose marker is not exact (`[X]`) is still a paragraph item: its token ends before the
marker.

* `flatMap_text_segments`: the segments make up the text, nothing is lost or doubled.
* `segmentsFrom_eq_drop`: the walk goes on right after each token.
-/
namespace MarkdownPreview.Markup

/-! ## The token at the start of a text -/

/-- A recognised tag: its kind and its text. -/
structure Tag where
  kind : Kind
  text : List Char
  deriving DecidableEq, Repr

/-- Whether some spelling of the vocabulary has this kind and takes this text for exact. -/
def isExact (k : Kind) (text : List Char) : Bool :=
  vocabulary.any fun sp => sp.kind = k && sp.canonical.any (·.toList = closeGap text)

/-- Paragraph task items, which are paragraph items when their marker is not exact. -/
def Kind.isParagraphTask (k : Kind) : Bool :=
  k = .itemParaChecked || k = .itemParaUnchecked

def markerLength : Nat := 3

/-- The tag that a spelling of kind `k` makes of the text it takes. -/
def settle (k : Kind) (text : List Char) : Tag :=
  let unmarked := text.take (text.length - markerLength)
  if isExact k text then ⟨k, text⟩
  else if k.isParagraphTask && isExact .itemPara unmarked then ⟨.itemPara, unmarked⟩
  else ⟨.other, text⟩

/-- The tag at the start of a text: the first of the spellings that finds one decides. -/
def tagAt? (spellings : List Spelling) (s : List Char) : Option Tag :=
  spellings.findSome? fun sp => (sp.take? s).map (settle sp.kind)

theorem settle_append (k : Kind) (text : List Char) :
    (settle k text).text ++ text.drop (settle k text).text.length = text := by
  unfold settle
  extract_lets unmarked
  split
  · simp
  · split
    · simp only [unmarked, List.length_take]
      rw [Nat.min_eq_left (by omega)]
      exact List.take_append_drop ..
    · simp

/-- A tag's text stands at the start of the text it was found in. -/
theorem tagAt?_append {sps : List Spelling} {s : List Char} {t : Tag} (h : tagAt? sps s = some t) :
    t.text ++ s.drop t.text.length = s := by
  obtain ⟨sp, -, hsp⟩ := List.exists_of_findSome?_eq_some h
  obtain ⟨a, ha, rfl⟩ := Option.map_eq_some_iff.1 hsp
  have h1 := Spelling.take?_append ha
  have h2 := settle_append sp.kind a
  generalize (settle sp.kind a).text = b at h2
  have hs : s = b ++ (a.drop b.length ++ s.drop a.length) := by
    rw [← List.append_assoc, h2, h1]
  rw [hs]; simp

theorem settle_text_ne_nil {k : Kind} {text : List Char} (h : text ≠ []) :
    (settle k text).text ≠ [] := by
  unfold settle
  extract_lets unmarked
  split
  · exact h
  · split
    · rename_i hu
      intro he
      simp only at he
      rw [he] at hu
      simp [show isExact .itemPara [] = false by decide] at hu
    · exact h

theorem tagAt?_text_ne_nil {f : Features} {s : List Char} {t : Tag}
    (h : tagAt? (active f) s = some t) : t.text ≠ [] := by
  obtain ⟨sp, hm, hsp⟩ := List.exists_of_findSome?_eq_some h
  obtain ⟨a, ha, rfl⟩ := Option.map_eq_some_iff.1 hsp
  obtain ⟨r, rfl⟩ := Spelling.take?_eq_cons (opensTag_of_mem_active hm) ha
  exact settle_text_ne_nil (by simp)

/-! ## Segments -/

/-- A piece of a scanned text: one character that belongs to no tag, or a tag. -/
inductive Segment where
  | plain (c : Char)
  | tag (t : Tag)
  deriving DecidableEq, Repr

def Segment.text : Segment → List Char
  | .plain c => [c]
  | .tag t => t.text

/-- The segments of a text whose first `skip` characters belong to a tag already found. -/
def segmentsFrom (sps : List Spelling) : (skip : Nat) → List Char → List Segment
  | _, [] => []
  | skip + 1, _ :: r => segmentsFrom sps skip r
  | 0, c :: r =>
    match tagAt? sps (c :: r) with
    | some t => .tag t :: segmentsFrom sps (t.text.length - 1) r
    | none => .plain c :: segmentsFrom sps 0 r

def segments (f : Features) (s : List Char) : List Segment :=
  segmentsFrom (active f) 0 s

theorem segmentsFrom_eq_drop (sps : List Spelling) (n : Nat) (s : List Char) :
    segmentsFrom sps n s = segmentsFrom sps 0 (s.drop n) := by
  induction s generalizing n with
  | nil => cases n <;> simp [segmentsFrom]
  | cons c r ih =>
    cases n with
    | zero => rfl
    | succ n => simpa [segmentsFrom] using ih n

theorem flatMap_text_segmentsFrom (f : Features) (n : Nat) (s : List Char) :
    (segmentsFrom (active f) n s).flatMap Segment.text = s.drop n := by
  induction s generalizing n with
  | nil => cases n <;> simp [segmentsFrom]
  | cons c r ih =>
    cases n with
    | succ n => simpa [segmentsFrom] using ih n
    | zero =>
      unfold segmentsFrom
      split
      · rename_i t ht
        have ha := tagAt?_append ht
        cases hx : t.text with
        | nil => exact absurd hx (tagAt?_text_ne_nil ht)
        | cons d u => rw [hx] at ha; simpa [Segment.text, hx, ih] using ha
      · simp [Segment.text, ih]

/-- The segments make up the text. -/
theorem flatMap_text_segments (f : Features) (s : List Char) :
    (segments f s).flatMap Segment.text = s :=
  flatMap_text_segmentsFrom f 0 s

/-! ## Tokens -/

/-- A tag at its place: `start` characters precede it. -/
structure Token extends Tag where
  start : Nat
  deriving DecidableEq, Repr

def Token.stop (t : Token) : Nat :=
  t.start + t.text.length

/-- The tokens among segments that begin at place `pos`. -/
def tokensFrom : (pos : Nat) → List Segment → List Token
  | _, [] => []
  | pos, .plain _ :: r => tokensFrom (pos + 1) r
  | pos, .tag t :: r => ⟨t, pos⟩ :: tokensFrom (pos + t.text.length) r

/-- The tokens of a text under `f`, in order. -/
def scan (f : Features) (html : String) : List Token :=
  tokensFrom 0 (segments f html.toList)

end MarkdownPreview.Markup

import MarkdownPreview.Json.Value

/-!
# Angle brackets in shown values

A tag stands between angle brackets. Trimming a text, putting it into small letters and putting it
between quotes neither drops an angle bracket nor brings one in, and no number is written with one.
So the text of a JSON value has an angle bracket exactly if one of the texts in the value has it.

* `angle_mem_quoted_iff`, `angle_mem_trim_iff`, `angle_mem_lowerCase_iff`: what is done to a text
  keeps its angle brackets.
* `noAngle_exactText`: a number has none.
* `angle_mem_display_iff`: the angle brackets of a shown value are those of its texts.
-/
namespace MarkdownPreview.Text

/-- What a tag starts or ends with. -/
def isAngle (c : Char) : Bool :=
  c = '<' || c = '>'

theorem isAngle_iff {c : Char} : isAngle c = true ↔ c = '<' ∨ c = '>' := by
  simp [isAngle]

theorem ne_of_isAngle {x d : Char} (hx : isAngle x = true) (hd : isAngle d = false) : x ≠ d := by
  rintro rfl
  rw [hx] at hd
  cases hd

theorem toNat_of_isAngle {x : Char} (h : isAngle x = true) : x.toNat = 0x3c ∨ x.toNat = 0x3e := by
  rcases isAngle_iff.1 h with rfl | rfl
  · exact .inl rfl
  · exact .inr rfl

/-- A text without angle brackets. -/
def NoAngle (s : List Char) : Prop :=
  ∀ c ∈ s, isAngle c = false

instance (s : List Char) : Decidable (NoAngle s) :=
  List.decidableBAll (isAngle · = false) s

theorem NoAngle.not_mem {s : List Char} (h : NoAngle s) {x : Char} (hx : isAngle x = true) :
    x ∉ s := fun hm => by
  rw [h x hm] at hx
  cases hx

theorem noAngle_append {s t : List Char} (hs : NoAngle s) (ht : NoAngle t) : NoAngle (s ++ t) :=
  List.forall_mem_append.2 ⟨hs, ht⟩

theorem noAngle_ite {p : Prop} [Decidable p] {s t : List Char} (hs : NoAngle s) (ht : NoAngle t) :
    NoAngle (if p then s else t) := by
  split
  · exact hs
  · exact ht

theorem noAngle_digits {s : List Char} (h : ∀ c ∈ s, c.isDigit = true) : NoAngle s := by
  intro c hc
  cases ha : isAngle c with
  | false => rfl
  | true =>
    have hd := h c hc
    rcases isAngle_iff.1 ha with rfl | rfl <;> cases hd

/-! ## Quotes -/

theorem noAngle_hex (width n : Nat) : NoAngle (hex width n) := by
  have hdigit : ∀ d < 16, isAngle (hexDigit d) = false := by decide
  induction width generalizing n with
  | zero => exact fun _ h => nomatch h
  | succ w ih =>
    refine noAngle_append (ih (n / 16)) fun c hc => ?_
    rw [List.mem_singleton.1 hc]
    exact hdigit _ (Nat.mod_lt n (by decide))

theorem noAngle_byNumber (c : Char) : NoAngle (byNumber c) := by
  have hshort : NoAngle (['\\', 'x'] ++ hex 2 c.toNat) :=
    noAngle_append (by decide) (noAngle_hex 2 _)
  have hmiddle : NoAngle (['\\', 'u'] ++ hex 4 c.toNat) :=
    noAngle_append (by decide) (noAngle_hex 4 _)
  have hlong : NoAngle (['\\', 'U'] ++ hex 8 c.toNat) :=
    noAngle_append (by decide) (noAngle_hex 8 _)
  exact noAngle_ite hshort (noAngle_ite hmiddle hlong)

theorem noAngle_quotedChar {q c : Char} (hc : isAngle c = false) : NoAngle (quotedChar q c) := by
  have hself : NoAngle [c] := by
    intro d hd
    rw [List.mem_singleton.1 hd, hc]
  have hescaped : NoAngle ['\\', c] := noAngle_append (s := ['\\']) (by decide) hself
  unfold quotedChar
  refine noAngle_ite hescaped ?_
  refine noAngle_ite (by decide) (noAngle_ite (by decide) (noAngle_ite (by decide) ?_))
  exact noAngle_ite (noAngle_byNumber c) hself

/-- Between quotes an angle bracket stands for itself, and for nothing else. -/
theorem angle_mem_quotedChar_iff {x q : Char} (hx : isAngle x = true) (hq : isAngle q = false)
    (c : Char) : x ∈ quotedChar q c ↔ x = c := by
  cases hc : isAngle c with
  | false => exact iff_of_false ((noAngle_quotedChar hc).not_mem hx) (ne_of_isAngle hx hc)
  | true =>
    have hprintable : Table.unprintable.has c = false := by
      rcases isAngle_iff.1 hc with rfl | rfl <;> decide +kernel
    rw [quotedChar_plain (ne_of_isAngle hc hq) (ne_of_isAngle hc (by decide)) hprintable,
      List.mem_singleton]

theorem isAngle_quoteFor (ps : List Point) : isAngle (Point.quoteFor ps) = false := by
  unfold Point.quoteFor
  split <;> rfl

theorem angle_mem_quotedPoint_iff {x q : Char} (hx : isAngle x = true) (hq : isAngle q = false)
    (p : Point) : x ∈ Point.quotedPoint q p ↔ Point.char x = p := by
  cases p with
  | char c => rw [Point.quotedPoint, angle_mem_quotedChar_iff hx hq, Point.char.injEq]
  | lone n =>
    have hnone : NoAngle (Point.quotedPoint q (.lone n)) :=
      noAngle_append (by decide) (noAngle_hex 4 n)
    exact iff_of_false (hnone.not_mem hx) nofun

/-- A text between quotes has the angle brackets of the text. -/
theorem angle_mem_quoted_iff {x : Char} (hx : isAngle x = true) (ps : List Point) :
    x ∈ Point.quoted ps ↔ .char x ∈ ps := by
  have hq := isAngle_quoteFor ps
  have hne : x ≠ Point.quoteFor ps := ne_of_isAngle hx hq
  simp only [Point.quoted, List.mem_append, List.mem_cons, hne, List.mem_flatMap,
    angle_mem_quotedPoint_iff hx hq, List.not_mem_nil, or_false, false_or]
  exact exists_eq_right'

/-! ## Blanks at the ends -/

theorem angle_mem_trim_iff {x : Char} (hx : isAngle x = true) (ps : List Point) :
    .char x ∈ Point.trim ps ↔ .char x ∈ ps := by
  have hb : Point.isBlank (.char x) = false := by
    rcases isAngle_iff.1 hx with rfl | rfl <;> rfl
  exact Point.mem_trim_iff hb ps

/-! ## Small letters -/

/-- Capitals and their small forms come behind the angle brackets. -/
theorem capitals_behind : ∀ run ∈ Table.capitals, 0x3e < run.1 ∧ 0x3e < run.2.2.2 := by
  decide +kernel

theorem toNat_ofNat_of_lt {low n : Nat} (h : low < n) :
    (Char.ofNat n).toNat = 0 ∨ low < (Char.ofNat n).toNat := by
  by_cases hv : n.isValidChar
  · rw [Char.ofNat, dif_pos hv]
    exact .inr h
  · rw [Char.ofNat, dif_neg hv]
    exact .inl rfl

theorem smallForm_eq_angle_iff {x : Char} (hx : isAngle x = true) (c : Char) :
    smallForm c = x ↔ c = x := by
  have hn := toNat_of_isAngle hx
  unfold smallForm
  extract_lets n run
  cases hr : run with
  | none => rfl
  | some r =>
    obtain ⟨first, last, distance, small⟩ := r
    have hbehind : 0x3e < first ∧ 0x3e < small :=
      capitals_behind _ (List.mem_of_find?_eq_some hr)
    have hin := List.find?_some hr
    simp only [Bool.and_eq_true, decide_eq_true_eq] at hin
    refine iff_of_false ?_ ?_
    · rintro rfl
      have := toNat_ofNat_of_lt (show 0x3e < small + (n - first) by omega)
      simp only at hn
      omega
    · rintro rfl
      have hc : n = c.toNat := rfl
      omega

theorem angle_mem_lowerChar_iff {x : Char} (hx : isAngle x = true) (before after : List Char)
    (c : Char) : x ∈ lowerChar before c after ↔ x = c := by
  unfold lowerChar
  split
  · rename_i hc
    subst hc
    have hsmall : ∀ atEnd : Bool, NoAngle [if atEnd then 'ς' else 'σ'] := by decide
    exact iff_of_false ((hsmall _).not_mem hx) (ne_of_isAngle hx (by decide))
  · split
    · rename_i hc
      subst hc
      have hdotted : NoAngle ['i', '\u0307'] := by decide
      exact iff_of_false (hdotted.not_mem hx) (ne_of_isAngle hx (by decide))
    · rw [List.mem_singleton, eq_comm, smallForm_eq_angle_iff hx, eq_comm]

theorem angle_mem_lowerFrom_iff {x : Char} (hx : isAngle x = true) (before s : List Char) :
    x ∈ lowerFrom before s ↔ x ∈ s := by
  induction s generalizing before with
  | nil => rfl
  | cons c r ih =>
    rw [lowerFrom_cons, List.mem_append, angle_mem_lowerChar_iff hx, ih, List.mem_cons]

theorem mem_mapRuns_iff {f : List Char → List Char} {x : Char} (hf : ∀ s, x ∈ f s ↔ x ∈ s)
    (run : List Char) (ps : List Point) :
    .char x ∈ Point.mapRuns f run ps ↔ x ∈ run ∨ .char x ∈ ps := by
  induction ps generalizing run with
  | nil => simp [Point.mapRuns, Point.mem_ofChars, hf]
  | cons p r ih =>
    cases p with
    | char c =>
      rw [Point.mapRuns, ih, List.mem_cons, List.mem_cons, Point.char.injEq, or_comm (a := x = c),
        or_assoc]
    | lone n => simp [Point.mapRuns, ih, Point.mem_ofChars, hf]

theorem angle_mem_lowerCase_iff {x : Char} (hx : isAngle x = true) (ps : List Point) :
    .char x ∈ Point.lowerCase ps ↔ .char x ∈ ps := by
  have hrun : ∀ s, x ∈ lowerCase s ↔ x ∈ s := angle_mem_lowerFrom_iff hx []
  rw [Point.lowerCase, mem_mapRuns_iff hrun]
  simp

end MarkdownPreview.Text

/-! ## Numbers -/

namespace MarkdownPreview.Number

open Text (NoAngle noAngle_append noAngle_digits noAngle_ite)

theorem noAngle_toDigits (n : Nat) : NoAngle (Nat.toDigits 10 n) :=
  noAngle_digits fun _ h => Nat.isDigit_of_mem_toDigits (by decide) (by decide) h

theorem noAngle_zeros (n : Nat) : NoAngle (zeros n) := by
  intro c hc
  rw [List.eq_of_mem_replicate hc]
  rfl

theorem noAngle_toString (i : Int) : NoAngle (toString i).toList := by
  cases i with
  | ofNat n =>
    have he : (toString (Int.ofNat n)).toList = Nat.toDigits 10 n := Nat.toList_repr
    rw [he]
    exact noAngle_toDigits n
  | negSucc n =>
    have he : (toString (Int.negSucc n)).toList = '-' :: Nat.toDigits 10 (n + 1) := by
      rw [← Nat.toList_repr]
      exact String.toList_append
    rw [he]
    exact noAngle_append (s := ['-']) (by decide) (noAngle_toDigits (n + 1))

/-- Digits without trailing zeros are some of the digits. -/
theorem digits_dropTrailingZeros_subset (x : Scientific) :
    x.dropTrailingZeros.digits ⊆ x.digits := by
  unfold Scientific.dropTrailingZeros
  split
  · exact List.Subset.refl _
  · rename_i d ds hd
    rw [hd]
    refine List.cons_subset_cons d fun c hc => ?_
    exact List.mem_reverse.1 ((List.dropWhile_sublist _).subset (List.mem_reverse.1 hc))

theorem noAngle_shortest (u : Nat) : NoAngle (shortest u).digits := by
  have hzero : NoAngle (⟨['0'], 0⟩ : Scientific).digits := by decide
  unfold shortest
  extract_lets power grid
  split
  · exact hzero
  · cases hf : (List.range' 1 maxDigits).findSome? grid with
    | none => exact hzero
    | some x =>
      obtain ⟨k, -, hk⟩ := List.exists_of_findSome?_eq_some hf
      obtain ⟨c, -, rfl⟩ := Option.map_eq_some_iff.1 hk
      exact fun d hd => noAngle_toDigits c d (digits_dropTrailingZeros_subset _ hd)

theorem noAngle_write (l : Layout) {x : Scientific} (h : NoAngle x.digits) :
    NoAngle (l.write x) := by
  have htake : ∀ n, NoAngle (x.digits.take n) := fun n c hc => h c (List.mem_of_mem_take hc)
  have hdrop : ∀ n, NoAngle (x.digits.drop n) := fun n c hc => h c (List.mem_of_mem_drop hc)
  unfold Layout.write
  split
  · unfold Layout.writeOut
    split
    · exact noAngle_append (noAngle_append (by decide) (noAngle_zeros _)) h
    · exact noAngle_ite
        (noAngle_append (noAngle_append h (noAngle_zeros _)) (noAngle_ite (by decide) (by decide)))
        (noAngle_append (noAngle_append (htake _) (by decide)) (hdrop _))
  · have hpoint : NoAngle (if x.digits.length ≤ 1 then [] else '.' :: x.digits.drop 1) :=
      noAngle_ite (by decide) (noAngle_append (s := ['.']) (by decide) (hdrop 1))
    have hsign : NoAngle ['e', if x.exponent < 0 then '-' else '+'] := by
      split <;> decide
    exact noAngle_append (noAngle_append (noAngle_append (noAngle_append (htake 1) hpoint) hsign)
      (noAngle_zeros _)) (noAngle_toDigits _)

theorem noAngle_signed (negative : Bool) {text : List Char} (h : NoAngle text) :
    NoAngle (signed negative text).toList := by
  rw [signed, String.toList_ofList]
  exact noAngle_ite (noAngle_append (s := ['-']) (by decide) h) h

theorem noAngle_exactText (x : Binary64) : NoAngle x.exactText.toList := by
  cases x with
  | finite s u => exact noAngle_signed s (noAngle_write exactLayout (noAngle_shortest u))
  | infinite s => exact noAngle_signed s (by decide)
  | nan => exact (by decide : NoAngle "nan".toList)

end MarkdownPreview.Number

/-! ## Values -/

namespace MarkdownPreview.Json.Value

open Text (Phrase isAngle NoAngle)

mutual

/-- The texts in a value, keys included. -/
def texts : Value → List Phrase
  | phrase p => [p]
  | array items => itemTexts items
  | object fields => fieldTexts fields
  | _ => []

def itemTexts : List Value → List Phrase
  | [] => []
  | v :: r => texts v ++ itemTexts r

def fieldTexts : List (Phrase × Value) → List Phrase
  | [] => []
  | (k, v) :: r => k :: texts v ++ fieldTexts r

end

/-- Whether a character stands in one of the texts of a value. -/
def Mentions (v : Value) (c : Char) : Prop :=
  ∃ p ∈ v.texts, .char c ∈ p.points

instance (v : Value) (c : Char) : Decidable (v.Mentions c) :=
  inferInstanceAs (Decidable (∃ p ∈ v.texts, _ ∈ p.points))

theorem mem_literal_of_noAngle {x : Char} (hx : isAngle x = true) {s : List Char}
    (hs : NoAngle s) : x ∈ s ↔ ∃ p ∈ ([] : List Phrase), .char x ∈ p.points :=
  iff_of_false (hs.not_mem hx) (by simp)

mutual

theorem angle_mem_literal_iff {x : Char} (hx : isAngle x = true) :
    ∀ v : Value, x ∈ v.literal ↔ ∃ p ∈ v.texts, .char x ∈ p.points
  | null => mem_literal_of_noAngle hx (by decide)
  | bool true => mem_literal_of_noAngle hx (by decide)
  | bool false => mem_literal_of_noAngle hx (by decide)
  | int i => mem_literal_of_noAngle hx (Number.noAngle_toString i)
  | real r => mem_literal_of_noAngle hx (Number.noAngle_exactText r)
  | phrase p => by
    rw [literal, Text.angle_mem_quoted_iff hx]
    simp [texts]
  | array items => by
    have hne : x ≠ '[' ∧ x ≠ ']' :=
      ⟨Text.ne_of_isAngle hx (by decide), Text.ne_of_isAngle hx (by decide)⟩
    simp [literal, texts, hne, angle_mem_literalItems_iff hx items]
  | object fields => by
    have hne : x ≠ '\x7b' ∧ x ≠ '\x7d' :=
      ⟨Text.ne_of_isAngle hx (by decide), Text.ne_of_isAngle hx (by decide)⟩
    simp [literal, texts, hne, angle_mem_literalFields_iff hx fields]

theorem angle_mem_literalItems_iff {x : Char} (hx : isAngle x = true) :
    ∀ items : List Value, x ∈ literalItems items ↔ ∃ p ∈ itemTexts items, .char x ∈ p.points
  | [] => mem_literal_of_noAngle hx (by decide)
  | [v] => by simp [literalItems, itemTexts, angle_mem_literal_iff hx v]
  | v :: w :: r => by
    have hcomma : x ∉ ", ".toList := (by decide : NoAngle ", ".toList).not_mem hx
    rw [literalItems, itemTexts]
    simp only [List.mem_append, hcomma, or_false, angle_mem_literal_iff hx v,
      angle_mem_literalItems_iff hx (w :: r), or_and_right, exists_or]

theorem angle_mem_literalFields_iff {x : Char} (hx : isAngle x = true) :
    ∀ fields : List (Phrase × Value),
      x ∈ literalFields fields ↔ ∃ p ∈ fieldTexts fields, .char x ∈ p.points
  | [] => mem_literal_of_noAngle hx (by decide)
  | [(k, v)] => by
    have hcolon : x ∉ ": ".toList := (by decide : NoAngle ": ".toList).not_mem hx
    rw [literalFields, fieldTexts, fieldTexts]
    simp only [List.mem_append, List.mem_cons, hcolon, or_false, angle_mem_literal_iff hx v,
      Text.angle_mem_quoted_iff hx, List.append_nil, or_and_right, exists_or, exists_eq_left]
  | (k, v) :: f :: r => by
    have hcolon : x ∉ ": ".toList := (by decide : NoAngle ": ".toList).not_mem hx
    have hcomma : x ∉ ", ".toList := (by decide : NoAngle ", ".toList).not_mem hx
    rw [literalFields, fieldTexts]
    simp only [List.mem_append, List.mem_cons, hcolon, hcomma, or_false,
      angle_mem_literal_iff hx v, angle_mem_literalFields_iff hx (f :: r),
      Text.angle_mem_quoted_iff hx, List.cons_append, or_and_right, exists_or, exists_eq_left,
      or_assoc]

end

/-- The angle brackets of a shown value are those of its texts. -/
theorem angle_mem_display_iff {x : Char} (hx : isAngle x = true) (v : Value) :
    .char x ∈ v.display ↔ v.Mentions x := by
  cases v with
  | phrase p => simp [display, Mentions, texts]
  | _ => exact (Text.Point.mem_ofChars _ x).trans (angle_mem_literal_iff hx _)

end MarkdownPreview.Json.Value

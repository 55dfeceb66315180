import MarkdownPreview.Text.Escape
import MarkdownPreview.Text.PointText

/-!
# Phrases

A text from outside is a string unless it holds a lone surrogate; a phrase is either. Phrases are put
together, escaped and measured like strings. The difference is felt when one is written: UTF-8 has
no octets for a lone surrogate.

* `points_inj`: a phrase is known by its points.
* `points_append`, `points_escaped`: what is done to a phrase is done to its points.
* `asString_ok_iff`: exactly the strings can be written.
-/
namespace MarkdownPreview.Text

/-! ## Faults -/

/-- Where a text cannot be written: at a surrogate, and at any others right behind it. -/
structure EncodeFault where
  /-- How many points stand before it. -/
  position : Nat
  surrogate : Nat
  /-- How many more surrogates follow. -/
  more : Nat
  deriving DecidableEq, Repr

namespace EncodeFault

def message (e : EncodeFault) : String :=
  let what :=
    if e.more = 0 then
      "character '" ++ String.ofList ('\\' :: 'u' :: hex 4 e.surrogate) ++ "' in position " ++
        toString e.position
    else
      "characters in position " ++ toString e.position ++ "-" ++ toString (e.position + e.more)
  "'utf-8' codec can't encode " ++ what ++ ": surrogates not allowed"

/-- The same fault behind one point more. -/
def later (e : EncodeFault) : EncodeFault :=
  { e with position := e.position + 1 }

end EncodeFault

/-- The first lone surrogate that is not `allowed`, with all that follow it. -/
def encodeFault? (allowed : Nat → Bool) : List Point → Option EncodeFault
  | [] => none
  | .char _ :: r => (encodeFault? allowed r).map .later
  | .lone n :: r =>
    if allowed n then (encodeFault? allowed r).map .later
    else some ⟨0, n, (r.takeWhile Point.isLone).length⟩

theorem exists_encodeFault {ps : List Point} (h : Point.chars? ps = none) :
    ∃ e, encodeFault? (fun _ => false) ps = some e := by
  induction ps with
  | nil => cases h
  | cons p r ih =>
    cases p with
    | lone n => exact ⟨_, rfl⟩
    | char c =>
      obtain ⟨e, he⟩ := ih (Option.map_eq_none_iff.1 h)
      exact ⟨e.later, by rw [encodeFault?, he]; rfl⟩

/-! ## Phrases -/

inductive Phrase where
  | plain (s : String)
  /-- It holds at least one lone surrogate. -/
  | broken (points : List Point) (h : Point.chars? points = none)
  deriving DecidableEq, Repr

namespace Phrase

instance : Coe String Phrase := ⟨plain⟩

def ofPoints (ps : List Point) : Phrase :=
  match h : Point.chars? ps with
  | some cs => plain (String.ofList cs)
  | none => broken ps h

def points : Phrase → List Point
  | plain s => Point.ofChars s.toList
  | broken ps _ => ps

/-- A phrase as a string, with the replacement character for each lone surrogate. -/
def shown : Phrase → String
  | plain s => s
  | broken ps _ => String.ofList (ps.map Point.shown)

def length : Phrase → Nat
  | plain s => s.length
  | broken ps _ => ps.length

theorem ofPoints_ofChars (cs : List Char) :
    ofPoints (Point.ofChars cs) = plain (String.ofList cs) := by
  have hcs := Point.chars?_ofChars cs
  unfold ofPoints
  split
  · rename_i ds h
    rw [Option.some.inj (h.symm.trans hcs)]
  · rename_i h
    cases h.symm.trans hcs

@[simp] theorem ofPoints_points (p : Phrase) : ofPoints p.points = p := by
  cases p with
  | plain s => rw [points, ofPoints_ofChars, String.ofList_toList]
  | broken ps h =>
    unfold ofPoints
    split <;> simp_all [points]

@[simp] theorem points_ofPoints (ps : List Point) : (ofPoints ps).points = ps := by
  unfold ofPoints
  split
  · rename_i cs h
    rw [points, String.toList_ofList, Point.ofChars_of_chars? h]
  · rfl

/-- A phrase is known by its points. -/
theorem points_inj {p q : Phrase} : p.points = q.points ↔ p = q :=
  ⟨fun h => by rw [← ofPoints_points p, h, ofPoints_points], congrArg points⟩

/-- Whether a phrase is a string. -/
def IsPlain (p : Phrase) : Prop :=
  ∃ s, p = plain s

theorem isPlain_plain (s : String) : (plain s).IsPlain :=
  ⟨s, rfl⟩

theorem isPlain_iff {p : Phrase} : p.IsPlain ↔ ∀ n, .lone n ∉ p.points := by
  rw [← Point.exists_chars?_iff]
  cases p with
  | plain s => exact iff_of_true ⟨s, rfl⟩ ⟨s.toList, Point.chars?_ofChars s.toList⟩
  | broken ps h =>
    refine iff_of_false (fun ⟨s, hs⟩ => by cases hs) ?_
    rintro ⟨cs, hcs⟩
    cases h.symm.trans hcs

/-! ## Order -/

def le (p q : Phrase) : Bool :=
  Point.textLe p.points q.points

theorem le_trans {p q r : Phrase} (h : p.le q = true) (h' : q.le r = true) : p.le r = true :=
  Point.textLe_trans h h'

theorem le_total (p q : Phrase) : p.le q = true ∨ q.le p = true :=
  Point.textLe_total ..

theorem le_antisymm {p q : Phrase} (h : p.le q = true) (h' : q.le p = true) : p = q :=
  points_inj.1 (Point.textLe_antisymm h h')

/-! ## Putting phrases together -/

/-- A surrogate and its partner do not become one point by standing side by side. -/
def append : Phrase → Phrase → Phrase
  | plain s, plain t => plain (s ++ t)
  | p, q => ofPoints (p.points ++ q.points)

instance : Append Phrase := ⟨append⟩

@[simp] theorem plain_append (s t : String) : plain s ++ plain t = plain (s ++ t) := rfl

@[simp] theorem points_append (p q : Phrase) : (p ++ q).points = p.points ++ q.points := by
  cases p with
  | plain s =>
    cases q with
    | plain t => simp [points, Point.ofChars]
    | broken ps h => exact points_ofPoints _
  | broken ps h => exact points_ofPoints _

theorem isPlain_append_iff {p q : Phrase} : (p ++ q).IsPlain ↔ p.IsPlain ∧ q.IsPlain := by
  simp only [isPlain_iff, points_append, List.mem_append, not_or, forall_and]

theorem empty_append (p : Phrase) : plain "" ++ p = p := by
  rw [← points_inj, points_append]
  rfl

theorem append_assoc (p q r : Phrase) : p ++ q ++ r = p ++ (q ++ r) := by
  rw [← points_inj]
  simp

def intercalate (between : String) (ps : List Phrase) : Phrase :=
  ofPoints ((Point.ofChars between.toList).intercalate (ps.map points))

theorem points_intercalate (between : String) (ps : List Phrase) :
    (intercalate between ps).points =
      (Point.ofChars between.toList).intercalate (ps.map points) :=
  points_ofPoints _

/-! ## Blanks -/

def isBlank (p : Phrase) : Bool :=
  (Point.trim p.points).isEmpty

def dropFinalLineFeeds (p : Phrase) : Phrase :=
  ofPoints (p.points.reverse.dropWhile (· = .char '\n')).reverse

/-- What is nothing but blanks holds no lone surrogate. -/
theorem isPlain_of_isBlank {p : Phrase} (h : p.isBlank = true) : p.IsPlain := by
  refine isPlain_iff.2 fun n hn => ?_
  have hempty : Point.trim p.points = [] := List.isEmpty_iff.1 h
  have hmem := (Point.mem_trim_iff rfl p.points).2 hn
  rw [hempty] at hmem
  cases hmem

theorem isPlain_dropFinalLineFeeds_iff {p : Phrase} :
    p.dropFinalLineFeeds.IsPlain ↔ p.IsPlain := by
  simp only [isPlain_iff, dropFinalLineFeeds, points_ofPoints, List.mem_reverse]
  refine forall_congr' fun n => not_congr ?_
  rw [Point.mem_dropWhile_iff (by simp), List.mem_reverse]

/-! ## Phrases in markup -/

def escaped : Phrase → Phrase
  | plain s => plain (Text.escaped s)
  | p => ofPoints (Point.escape p.points)

theorem points_escaped (p : Phrase) : p.escaped.points = Point.escape p.points := by
  cases p with
  | plain s =>
    rw [escaped, points, points, Text.escaped, String.toList_ofList, Point.escape_ofChars]
  | broken ps h => exact points_ofPoints _

theorem isPlain_escaped_iff {p : Phrase} : p.escaped.IsPlain ↔ p.IsPlain := by
  simp only [isPlain_iff, points_escaped, Point.escape, Point.lone_mem_mapRuns_iff]

/-! ## Writing phrases -/

/-- The fault of a phrase if surrogates that are `allowed` can be written, see `encodeFault?`. -/
def fault? (allowed : Nat → Bool) : Phrase → Option EncodeFault
  | plain _ => none
  | broken ps _ => encodeFault? allowed ps

/-- The string that is to be written for a phrase. -/
def asString (p : Phrase) : Except EncodeFault String :=
  match p.fault? fun _ => false with
  | some e => .error e
  | none => .ok p.shown

@[simp] theorem asString_plain (s : String) : asString (plain s) = .ok s := rfl

theorem asString_broken {ps : List Point} (h : Point.chars? ps = none) :
    ∃ e, asString (broken ps h) = .error e := by
  obtain ⟨e, he⟩ := exists_encodeFault h
  exact ⟨e, by simp only [asString, fault?, he]⟩

/-- Exactly the strings can be written. -/
theorem asString_ok_iff {p : Phrase} {s : String} : p.asString = .ok s ↔ p = plain s := by
  cases p with
  | plain t => simp
  | broken ps h =>
    obtain ⟨e, he⟩ := asString_broken h
    simp [he]

end Phrase

end MarkdownPreview.Text

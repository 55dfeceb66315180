import MarkdownPreview.Text.Phrase
import MarkdownPreview.Text.Pieces

/-!
# Paths

A path is the parts between slashes, behind one of two roots or none. Empty parts and single dots
say nothing and are left out; two dots stay, as what they lead to depends on the files. Two slashes
at the start are a root of their own, any other number of them is the common one.

Names of files are octets. A path holds a surrogate for each octet of a name that is none of UTF-8;
other surrogates stand for nothing, and no file has such a name.

* `ofPhrase_of_part`: a text of one plain part is its own path.
-/
namespace MarkdownPreview.Files

open Text (Phrase Point EncodeFault)

/-- Where a path starts. -/
inductive Root where
  /-- The working directory. -/
  | here
  /-- The root directory. -/
  | top
  /-- The root directory, written with two slashes. -/
  | doubled
  deriving DecidableEq, Repr

def Root.text : Root → String
  | here => ""
  | top => "/"
  | doubled => "//"

/-- The root of a path by the number of its first slashes. -/
def Root.ofSlashes : Nat → Root
  | 0 => here
  | 2 => doubled
  | _ => top

structure Path where
  root : Root
  parts : List Phrase
  deriving DecidableEq, Repr

namespace Path

/-- Whether a part says where a path leads. -/
def isTelling (part : List Point) : Bool :=
  !part.isEmpty && part ≠ [.char '.']

def ofPhrase (p : Phrase) : Path where
  root := .ofSlashes (p.points.takeWhile (· = .char '/')).length
  parts := ((Text.pieces (.char '/') p.points).filter isTelling).map Phrase.ofPoints

def text (p : Path) : Phrase :=
  if p.root = .here ∧ p.parts = [] then "."
  else .plain p.root.text ++ Phrase.intercalate "/" p.parts

/-- The last part; empty where there is none. -/
def name (p : Path) : Phrase :=
  p.parts.getLast?.getD ""

/-- A text of one part that tells something is its own path. -/
theorem ofPhrase_of_part {p : Phrase} (hs : .char '/' ∉ p.points)
    (ht : isTelling p.points = true) : (ofPhrase p).text = p ∧ (ofPhrase p).name = p := by
  have hroot : p.points.takeWhile (· = .char '/') = [] := by
    cases h : p.points with
    | nil => rfl
    | cons c r =>
      have hc : c ≠ .char '/' := fun e => hs (by rw [h, e]; exact List.mem_cons_self)
      simp [hc]
  have hp : ofPhrase p = ⟨.here, [p]⟩ := by
    simp [ofPhrase, hroot, Root.ofSlashes, Text.pieces_of_not_mem hs, ht]
  rw [hp]
  refine ⟨Phrase.points_inj.1 ?_, rfl⟩
  have hempty : (Phrase.plain "").points = [] := rfl
  rw [text, if_neg (by simp), Root.text, Phrase.points_append, hempty, Phrase.points_intercalate]
  simp

end Path

/-! ## Names -/

/-- Whether a surrogate stands for an octet of a name. -/
def isNameOctet (n : Nat) : Bool :=
  0xdc80 ≤ n && n ≤ 0xdcff

def pointOctets : Point → List UInt8
  | .char c => String.utf8EncodeChar c
  | .lone n => [UInt8.ofNat n]

/-- The octets of a name, if its surrogates stand for octets. -/
def nameOctets (p : Phrase) : List UInt8 :=
  p.points.flatMap pointOctets

/-- What is wrong with a path that is none of any file. -/
def Path.fault? (p : Path) : Option EncodeFault :=
  p.text.fault? isNameOctet

end MarkdownPreview.Files
